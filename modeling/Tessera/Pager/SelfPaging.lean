import Tessera.Config
import Tessera.Object
import Tessera.Lib.Bounded
import Tessera.Lib.Transition

/-!
The guard against paging cycles: which pager serves which object, and which
requester waits for which pager. A request is refused when its pager waits,
along the recorded edges, for the requester. Names are plain numbers here; that
a requester and a pager of one process go by one number is up to the callers. As
far as the recorded edges go, the guard keeps them free of cycles.
-/
namespace Tessera
open List Relation Transition

inductive PageInResult where
  | served | cycle
  deriving DecidableEq

structure SelfPagingGraph (cfg : Config) where
  bindings : Bounded (Nat × Nat) cfg.maxPagers
  waits : Bounded (Nat × Nat) cfg.maxPagers
  deriving DecidableEq

namespace SelfPagingGraph
variable {cfg : Config}

section
variable (g : SelfPagingGraph cfg)

def new : SelfPagingGraph cfg := ⟨.empty, .empty⟩

def bind (object pager : Nat) : Except KError Unit × SelfPagingGraph cfg :=
  match g.bindings.items.findIdx? (·.1 = object) with
  | some slot => (.ok (), { g with bindings := g.bindings.set slot (object, pager) })
  | none =>
    match g.bindings.push (object, pager) with
    | none => (.error .outOfMemory, g)
    | some bindings => (.ok (), { g with bindings })

def unbind (object : Nat) : Bool × SelfPagingGraph cfg :=
  match g.bindings.items.findIdx? (·.1 = object) with
  | none => (false, g)
  | some slot => (true, { g with bindings := g.bindings.swapRemove slot })

def serverOf (object : Nat) : Option Nat :=
  (g.bindings.items.find? (·.1 = object)).map (·.2)

def waitsFor (node : Nat) : Option Nat :=
  (g.waits.items.find? (·.1 = node)).map (·.2)

def follow (g : SelfPagingGraph cfg) (target : Nat) : (turns node : Nat) → Bool
  | 0, _ => false
  | turns + 1, node =>
    match g.waitsFor node with
    | none => false
    | some next => if next = target then true else g.follow target turns next

/-- One turn more than there are edges. -/
def reaches (start target : Nat) : Bool :=
  g.follow target (g.waits.items.length + 1) start

/-- A request past the bound is served too, but leaves no edge. -/
def requestPageIn (requester object : Nat) : PageInResult × SelfPagingGraph cfg :=
  match g.serverOf object with
  | none => (.cycle, g)
  | some server =>
    if server = requester ∨ g.reaches server requester then (.cycle, g)
    else
      match g.waits.push (requester, server) with
      | none => (.served, g)
      | some waits => (.served, { g with waits })

def complete (requester : Nat) : SelfPagingGraph cfg :=
  match g.waits.items.findIdx? (·.1 = requester) with
  | none => g
  | some i => { g with waits := g.waits.swapRemove i }

def Edge (a b : Nat) : Prop := (a, b) ∈ g.waits.items

def Single : Prop := (g.waits.items.map Prod.fst).Nodup

def Acyclic : Prop := ∀ a, ¬ TransGen g.Edge a a

end

variable {g g' : SelfPagingGraph cfg} {a b target : Nat}

theorem path_through {edge : Nat → Nat → Prop} (path : TransGen (fun x y => edge x y ∨ x = r ∧ y = s) a b) :
    TransGen edge a b ∨ ReflTransGen edge a r ∧ ReflTransGen edge s b := by
  induction path with
  | single step =>
    rcases step with old | ⟨rfl,rfl⟩
    · exact .inl (.single old)
    · exact .inr ⟨.refl,.refl⟩
  | tail before step ih =>
    rcases step with old | ⟨rfl,rfl⟩
    · rcases ih with avoids | ⟨arrives,leaves⟩
      · exact .inl (avoids.tail old)
      · exact .inr ⟨arrives,leaves.tail old⟩
    rcases ih with avoids | ⟨arrives,_⟩
    · exact .inr ⟨avoids.to_reflTransGen,.refl⟩
    · exact .inr ⟨arrives,.refl⟩

theorem edge_of_waitsFor (found : g.waitsFor a = some b) : g.Edge a b := by
  obtain ⟨e,first,rfl⟩ := Option.map_eq_some_iff.mp found
  have waiter : e.1 = a := by simpa using find?_some first
  rw [← waiter]
  exact mem_of_find?_eq_some first

theorem path_of_follow (found : g.follow target turns node = true) : TransGen g.Edge node target := by
  fun_induction g.follow target turns node with
  | case1 | case2 => cases found
  | case3 _ _ edge => exact .single (edge_of_waitsFor edge)
  | case4 _ _ _ edge _ ih => exact .head (edge_of_waitsFor edge) (ih found)

structure Kept (g : SelfPagingGraph cfg) : Prop where
  single : g.Single
  acyclic : g.Acyclic

section
variable (kept : g.Kept)
include kept

theorem waitsFor_of_edge (edge : g.Edge a b) : g.waitsFor a = some b := by
  cases found : g.waits.items.find? (·.1 = a) with
  | none => simpa using List.find?_eq_none.mp found (a, b) edge
  | some e =>
    have first : e.1 = a := by simpa using find?_some found
    have same : e = (a, b) := inj_on_of_nodup_map kept.single (mem_of_find?_eq_some found) edge first
    rw [waitsFor, found, same]
    rfl

/-- The walk cannot run out of turns: the nodes it has left behind are different
    waiters, and there are no more waiters than edges. -/
theorem follow_of_path {seen : List Nat} (distinct : seen.Nodup)
    (waiters : ∀ s ∈ seen, s ∈ g.waits.items.map Prod.fst) (behind : ∀ s ∈ seen, TransGen g.Edge s node)
    (enough : g.waits.items.length < seen.length + turns) (path : TransGen g.Edge node target) :
    g.follow target turns node = true := by
  induction turns generalizing node seen with
  | zero =>
    have few := (subperm_of_subset distinct waiters).length_le
    rw [length_map] at few
    omega
  | succ turns ih =>
    obtain ⟨next,edge,rest⟩ := TransGen.head'_iff.mp path
    unfold follow
    rw [waitsFor_of_edge kept edge]
    dsimp only
    split
    · rfl
    rename_i further
    have onward : TransGen g.Edge next target := by
      rcases reflTransGen_iff_eq_or_transGen.mp rest with same | path
      · exact absurd same.symm further
      · exact path
    apply ih (nodup_cons.mpr ⟨fun again => kept.acyclic node (behind node again),distinct⟩) _ _ _ onward
    · exact forall_mem_cons.mpr ⟨mem_map.mpr ⟨_,edge,rfl⟩,waiters⟩
    · exact forall_mem_cons.mpr ⟨.single edge,fun s old => (behind s old).tail edge⟩
    · simp only [length_cons]
      omega

theorem refused_iff {server : Nat} :
    (server = requester ∨ g.reaches server requester = true) ↔ ReflTransGen g.Edge server requester := by
  rw [reflTransGen_iff_eq_or_transGen, eq_comm]
  apply or_congr_right
  constructor
  · exact path_of_follow
  · exact follow_of_path kept nodup_nil (by simp) (by simp) (by simp)

theorem requestPageIn_keeps (obj : Nat) (fresh : ∀ server, ¬ g.Edge requester server) :
    (g.requestPageIn requester obj).2.Kept := by
  fun_cases g.requestPageIn requester obj with
  | case1 | case2 | case3 => exact kept
  | case4 server _ apart waits pushed =>
    have items := (Bounded.push_eq_some.mp pushed).2
    constructor
    · rw [show Single _ = (waits.items.map _).Nodup from rfl, items, map_append]
      refine kept.single.append (nodup_singleton _) (disjoint_singleton.mpr fun mem => ?_)
      obtain ⟨e,inside,rfl⟩ := mem_map.mp mem
      exact fresh e.2 inside
    · intro a cycle
      have edges : ∀ x y, Edge { g with waits } x y → g.Edge x y ∨ x = requester ∧ y = server := by
        intro _ _ edge
        rw [Edge, items, mem_append, mem_singleton, Prod.mk.injEq] at edge
        exact edge
      rcases path_through (TransGen.mono edges _ _ cycle) with old | ⟨arrives,leaves⟩
      · exact kept.acyclic a old
      -- the server already waits for the requester, which the guard would have seen
      · exact apart ((refused_iff kept).mpr (leaves.trans arrives))

theorem complete_keeps (requester : Nat) : (g.complete requester).Kept := by
  fun_cases g.complete requester with
  | case1 => exact kept
  | case2 i found =>
    have perm := g.waits.swapRemove_perm (findIdx?_eq_some_iff_getElem.mp found).1
    constructor
    · rw [Single, (perm.map _).nodup_iff]
      exact kept.single.sublist ((eraseIdx_sublist _ i).map _)
    · intro a cycle
      apply kept.acyclic a
      refine TransGen.mono (fun _ _ edge => ?_) _ _ cycle
      exact mem_of_mem_eraseIdx (perm.mem_iff.mp edge)

end

inductive GuardAction where
  | bind (object pager : Nat)
  | unbind (object : Nat)
  | requestPageIn (requester object : Nat)
  | complete (requester : Nat)

def perform (g : SelfPagingGraph cfg) : GuardAction → SelfPagingGraph cfg
  | .bind object pager => (g.bind object pager).2
  | .unbind object => (g.unbind object).2
  | .requestPageIn requester object => (g.requestPageIn requester object).2
  | .complete requester => g.complete requester

def Step (g : SelfPagingGraph cfg) (a : GuardAction) (g' : SelfPagingGraph cfg) : Prop := g' = g.perform a

/-- Nobody asks for a page while an earlier request of theirs is out. -/
def OneAtATime (g : SelfPagingGraph cfg) : GuardAction → Prop
  | .requestPageIn requester _ => ∀ server, ¬ g.Edge requester server
  | _ => True

theorem Kept.of_waits (kept : g.Kept) (same : g'.waits = g.waits) : g'.Kept := by
  cases g'
  cases same
  exact ⟨kept.single,kept.acyclic⟩

theorem kept_run (run : Disciplined (fun _ => OneAtATime) Step new history g) : g.Kept := by
  refine run.invariant (fun _ => Kept) ?_ ⟨by simp [Single, new, Bounded.empty],fun _ cycle => ?_⟩
  · rintro _ g a _ kept alone rfl
    cases a with
    | bind obj pager =>
      apply kept.of_waits
      simp only [perform]
      fun_cases g.bind obj pager <;> rfl
    | unbind obj =>
      apply kept.of_waits
      simp only [perform]
      fun_cases g.unbind obj <;> rfl
    | requestPageIn _ obj => exact requestPageIn_keeps kept obj alone
    | complete requester => exact complete_keeps kept requester
  · obtain ⟨_,edge,_⟩ := TransGen.head'_iff.mp cycle
    cases edge

/-- However many requests are out, the edges the guard keeps close no cycle. It
    refuses a request when the new edge would close one or nobody serves the object,
    and never besides. -/
theorem guard_refuses_exactly_cycles (run : Disciplined (fun _ => OneAtATime) Step new history g) :
    g.Acyclic ∧ ∀ requester obj, (g.requestPageIn requester obj).1 = .cycle ↔
      ∀ server, g.serverOf obj = some server → ReflTransGen g.Edge server requester := by
  have kept := kept_run run
  refine ⟨kept.acyclic,fun requester obj => ?_⟩
  fun_cases g.requestPageIn requester obj <;> simp_all [refused_iff]

def served : SelfPagingGraph .minimal := ((new.bind 0 1).2.bind 5 2).2

/-- A service that waits for another may not be waited for by it. -/
theorem service_is_refused_its_client : ∃ g : SelfPagingGraph .minimal,
    Disciplined (fun _ => OneAtATime) Step new [.bind 0 1, .bind 5 2, .requestPageIn 1 5] g ∧
      g.Acyclic ∧ (g.requestPageIn 2 0).1 = .cycle ∧ (g.requestPageIn 3 0).1 = .served := by
  have run : Disciplined (fun _ => OneAtATime) Step new [.bind 0 1, .bind 5 2] served :=
    (Disciplined.start.more trivial rfl).more trivial rfl
  have idle : served.waits.items = [] := by decide
  have first : served.OneAtATime (.requestPageIn 1 5) := fun _ => by simp [Edge, idle]
  have asked := run.more first rfl
  exact ⟨_,asked,(guard_refuses_exactly_cycles asked).1,by decide,by decide⟩

end SelfPagingGraph
end Tessera
