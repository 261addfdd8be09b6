import Mathlib.Data.List.Perm.Subperm

/-!
Forests given by the list of children of each node, and their walk with an
explicit stack. The walk lists a node when it takes it off the stack, so an
ancestor comes before its descendants. The stack and the list have a capacity,
which a forest that fits into it does not exceed.
-/
namespace Forest
open List
variable {α : Type}

def Child (kids : α → List α) (a b : α) : Prop := a ∈ kids b

def Below (kids : α → List α) : α → α → Prop := Relation.ReflTransGen (Child kids)

def Descends (kids : α → List α) : α → α → Prop := Relation.TransGen (Child kids)

structure IsForest (kids : α → List α) : Prop where
  once : ∀ a, (kids a).Nodup
  single : ∀ a b c, a ∈ kids b → a ∈ kids c → b = c
  acyclic : ∀ a, ¬ Descends kids a a

/-- The last child is pushed last and comes off first. -/
def walk (kids : α → List α) (cap : Nat) : Nat → List α → List α → Option (List α)
  | _, [], done => some done
  | 0, _ :: _, _ => none
  | room + 1, a :: rest, done =>
    if cap < rest.length + (kids a).length then none
    else walk kids cap room ((kids a).reverse ++ rest) (done ++ [a])

/-- Where the walk from a root stands: the nodes listed and the nodes stacked are
    different ones of the root's tree, and what is missing hangs below the stack. -/
structure Progress (kids : α → List α) (root : α) (stack done : List α) : Prop where
  once : (done ++ stack).Nodup
  started : root ∈ done ++ stack
  closed : ∀ a ∈ done, ∀ c ∈ kids a, c ∈ done ++ stack
  below : ∀ a ∈ done ++ stack, Below kids a root
  parent : ∀ c ∈ done ++ stack, c = root ∨ ∃ a ∈ done, c ∈ kids a
  ordered : done.Pairwise fun a b => ¬ Descends kids a b

variable {kids : α → List α} {root : α}

theorem progress_start : Progress kids root [root] [] where
  once := by simp
  started := mem_singleton.mpr rfl
  closed := nofun
  below := by
    intro _ mem
    rw [mem_singleton.mp mem]
    exact .refl
  parent := fun c mem => .inl (mem_singleton.mp mem)
  ordered := .nil

variable {a leaf : α} {done rest all : List α} {kids' : α → List α}

theorem IsForest.root_not_below (forest : IsForest kids) (below : Below kids a root) : ¬ Descends kids root a :=
  fun descends => forest.acyclic root (descends.trans_left below)

theorem Progress.not_descends {stack : List α} (forest : IsForest kids)
    (progress : Progress kids root stack done) {b : α} (listed : a ∈ done) (stacked : b ∈ stack) :
    ¬ Descends kids a b := by
  intro descends
  have below := progress.below b (mem_append_right done stacked)
  have apart : b ∉ done := fun mem => (nodup_append.mp progress.once).2.2 b mem b stacked rfl
  -- every ancestor of a listed node up to the root is listed
  induction descends using Relation.TransGen.head_induction_on with
  | single child =>
    rcases progress.parent _ (mem_append_left stack listed) with rfl | ⟨_,mem,kid⟩
    · exact forest.root_not_below below (.single child)
    · rw [forest.single _ _ _ kid child] at mem
      exact apart mem
  | head child rest ih =>
    rcases progress.parent _ (mem_append_left stack listed) with rfl | ⟨_,mem,kid⟩
    · exact forest.root_not_below below (.head child rest)
    · rw [forest.single _ _ _ kid child] at mem
      exact ih mem

theorem Progress.fresh {c : α} (forest : IsForest kids) (progress : Progress kids root (a :: rest) done)
    (kid : c ∈ kids a) : c ∉ done ++ a :: rest := by
  intro mem
  have top : a ∈ done ++ a :: rest := mem_append_right done mem_cons_self
  rcases progress.parent c mem with rfl | ⟨_,listed,other⟩
  · exact forest.root_not_below (progress.below a top) (.single kid)
  · rw [forest.single _ _ _ other kid] at listed
    exact (nodup_append.mp progress.once).2.2 a listed a mem_cons_self rfl

theorem Progress.step (forest : IsForest kids) (progress : Progress kids root (a :: rest) done) :
    Progress kids root ((kids a).reverse ++ rest) (done ++ [a]) := by
  have whole (c : α) :
      c ∈ done ++ [a] ++ ((kids a).reverse ++ rest) ↔ c ∈ done ++ a :: rest ∨ c ∈ kids a := by
    simp only [mem_append, mem_cons, mem_reverse]
    tauto
  have top : a ∈ done ++ a :: rest := mem_append_right done mem_cons_self
  constructor
  · have perm : (done ++ [a] ++ ((kids a).reverse ++ rest)).Perm ((done ++ a :: rest) ++ kids a) := by
      rw [append_assoc, append_assoc]
      exact (((perm_append_comm).trans ((kids a).reverse_perm.append_left rest)).cons a).append_left done
    rw [perm.nodup_iff, nodup_append]
    refine ⟨progress.once,forest.once a,?_⟩
    intro c mem _ kid same
    subst same
    exact progress.fresh forest kid mem
  · exact (whole root).mpr (.inl progress.started)
  · intro b listed c kid
    rw [whole]
    rcases mem_append.mp listed with old | new
    · exact .inl (progress.closed b old c kid)
    · rw [mem_singleton.mp new] at kid
      exact .inr kid
  · intro c mem
    rcases (whole c).mp mem with old | kid
    · exact progress.below c old
    · exact .head kid (progress.below a top)
  · intro c mem
    rcases (whole c).mp mem with old | kid
    · rcases progress.parent c old with same | ⟨b,listed,kid⟩
      · exact .inl same
      · exact .inr ⟨b,mem_append_left [a] listed,kid⟩
    · exact .inr ⟨a,mem_append_right done (mem_singleton.mpr rfl),kid⟩
  · rw [pairwise_append]
    refine ⟨progress.ordered,pairwise_singleton _ a,?_⟩
    intro _ listed _ last
    rw [mem_singleton.mp last]
    exact progress.not_descends forest listed mem_cons_self

theorem Progress.complete (progress : Progress kids root [] done) (a : α) : a ∈ done ↔ Below kids a root := by
  have started := progress.started
  have closed := progress.closed
  simp only [append_nil] at started closed
  constructor
  · intro mem
    exact progress.below a (by simpa using mem)
  intro below
  induction below using Relation.ReflTransGen.head_induction_on with
  | refl => exact started
  | head child _ ih => exact closed _ ih _ child

theorem walk_progress (forest : IsForest kids) {cap : Nat} (fits : all.length ≤ cap)
    (inside : ∀ a, Below kids a root → a ∈ all) (room : Nat) (stack done : List α)
    (progress : Progress kids root stack done) (left : cap ≤ room + done.length) :
    ∃ order, walk kids cap room stack done = some order ∧ Progress kids root [] order := by
  induction room generalizing stack done with
  | zero =>
    cases stack with
    | nil => exact ⟨done,rfl,progress⟩
    | cons a rest =>
      have within : done ++ a :: rest ⊆ all := fun c mem => inside c (progress.below c mem)
      have bounded := (subperm_of_subset progress.once within).length_le
      simp only [length_append, length_cons] at bounded
      omega
  | succ room ih =>
    cases stack with
    | nil => exact ⟨done,rfl,progress⟩
    | cons a rest =>
      have next := progress.step forest
      have within : done ++ [a] ++ ((kids a).reverse ++ rest) ⊆ all := fun c mem => inside c (next.below c mem)
      have bounded := (subperm_of_subset next.once within).length_le
      simp only [length_append, length_reverse] at bounded
      rw [walk, if_neg (by omega)]
      apply ih _ _ next
      simp only [length_append, length_cons]
      omega

/-- The walk lists the root's tree, each node once and no node after one that
    descends from it. -/
theorem walk_spec (forest : IsForest kids) (root : α) (cap : Nat) (all : List α) (fits : all.length ≤ cap)
    (inside : ∀ a, Below kids a root → a ∈ all) :
    ∃ order, walk kids cap cap [root] [] = some order ∧ order.Nodup ∧ (∀ a, a ∈ order ↔ Below kids a root) ∧
      order.Pairwise fun a b => ¬ Descends kids a b := by
  obtain ⟨order,walked,progress⟩ := walk_progress forest fits inside cap [root] [] progress_start (Nat.le_refl cap)
  exact ⟨order,walked,by simpa using progress.once,progress.complete,progress.ordered⟩

def descend (kids : α → List α) : (turns : Nat) → α → α
  | 0, a => a
  | turns + 1, a =>
    match kids a with
    | [] => a
    | c :: _ => descend kids turns c

theorem descend_below (turns : Nat) (a : α) : Below kids (descend kids turns a) a := by
  induction turns generalizing a with
  | zero => exact .refl
  | succ turns ih =>
    unfold descend
    split
    · exact .refl
    · rename_i c _ here
      exact (ih c).tail (show c ∈ kids a from here ▸ mem_cons_self)

theorem below_without_leaf (bare : kids leaf = []) (pruned : ∀ a b, a ∈ kids' b ↔ a ≠ leaf ∧ a ∈ kids b)
    (other : root ≠ leaf) (a : α) : Below kids' a root ↔ a ≠ leaf ∧ Below kids a root := by
  constructor
  · intro below
    induction below using Relation.ReflTransGen.head_induction_on with
    | refl => exact ⟨other,.refl⟩
    | head child _ ih =>
      obtain ⟨apart,kid⟩ := (pruned _ _).mp child
      exact ⟨apart,.head kid ih.2⟩
  · rintro ⟨apart,below⟩
    induction below using Relation.ReflTransGen.head_induction_on with
    | refl => exact .refl
    | @head c b child _ ih =>
      have inner : b ≠ leaf := by
        rintro rfl
        rw [Child, bare] at child
        cases child
      exact .head ((pruned _ _).mpr ⟨apart,child⟩) (ih inner)

section
variable (acyclic : ∀ a, ¬ Descends kids a a)
include acyclic

/-- A descent that has as many turns as there are nodes ends at a leaf. The nodes it
    has passed are ancestors of the one it is at, so it meets none of them again. -/
theorem descend_leaf_from (inside : ∀ a, Below kids a root → a ∈ all)
    (turns : Nat) (a : α) (passed : List α) (below : Below kids a root) (once : passed.Nodup)
    (within : passed ⊆ all) (above : ∀ b ∈ passed, Descends kids a b)
    (enough : all.length ≤ turns + passed.length) : kids (descend kids turns a) = [] := by
  have fresh : a ∉ passed := fun mem => acyclic a (above a mem)
  have longer : (a :: passed).Nodup := nodup_cons.mpr ⟨fresh,once⟩
  have covered : a :: passed ⊆ all := cons_subset.mpr ⟨inside a below,within⟩
  induction turns generalizing a passed with
  | zero =>
    have bounded := (subperm_of_subset longer covered).length_le
    rw [length_cons] at bounded
    omega
  | succ turns ih =>
    unfold descend
    split
    · assumption
    rename_i c _ here
    have kid : Child kids c a := show c ∈ kids a from here ▸ mem_cons_self
    have beneath : ∀ b ∈ a :: passed, Descends kids c b := by
      intro b mem
      rcases mem_cons.mp mem with rfl | older
      · exact .single kid
      · exact .head kid (above b older)
    have new : c ∉ a :: passed := fun mem => acyclic c (beneath c mem)
    refine ih c (a :: passed) (.head kid below) longer covered beneath ?_ new
      (nodup_cons.mpr ⟨new,longer⟩) (cons_subset.mpr ⟨inside c (.head kid below),covered⟩)
    rw [length_cons]
    omega

theorem descend_leaf (inside : ∀ a, Below kids a root → a ∈ all)
    {turns : Nat} (enough : all.length ≤ turns) : kids (descend kids turns root) = [] :=
  descend_leaf_from acyclic inside turns root [] .refl .nil (nil_subset all) nofun enough

theorem acyclic_without_leaf
    (pruned : ∀ a b, a ∈ kids' b ↔ a ≠ leaf ∧ a ∈ kids b) (a : α) : ¬ Descends kids' a a := by
  intro cycle
  refine acyclic a (Relation.TransGen.mono ?_ a a cycle)
  intro c b child
  exact ((pruned c b).mp child).2

end

end Forest
