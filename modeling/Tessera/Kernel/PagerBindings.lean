import Tessera.Kernel.MemoryEffects
import Tessera.Memory.Pmem

/-!
The bindings the paging guard keeps, against the objects they are for. An object that
a service backs is bound when it is made and unbound when it is taken down, except
that the sweep over what an ending process holds takes objects down and leaves their
bindings, and that an object which a device still reaches stays while its binding
goes. Where neither happens there is one binding for each such object.
-/
namespace Tessera
open MemoryTable List Option Slots SelfPagingGraph
variable {cfg : Config} {σ : Type}

namespace SelfPagingGraph

def Distinct (g : SelfPagingGraph cfg) : Prop := (g.bindings.items.map Prod.fst).Nodup

variable {g g' : SelfPagingGraph cfg} {object pager : Nat}

theorem serverOf_eq_none : g.serverOf object = none ↔ object ∉ g.bindings.items.map Prod.fst := by
  rw [serverOf, map_eq_none_iff, List.find?_eq_none, List.mem_map]
  constructor
  · rintro none ⟨b,mem,same⟩
    exact none b mem (decide_eq_true same)
  · intro none b mem same
    exact none ⟨b,mem,of_decide_eq_true same⟩

theorem bind_new (fresh : g.serverOf object = none) (pager : Nat) :
    (∃ e, g.bind object pager = (.error e, g) ∧ g.bindings.items.length = cfg.maxPagers) ∨
      ∃ g', g.bind object pager = (.ok (), g') ∧ g'.bindings.items = g.bindings.items ++ [(object, pager)] := by
  have unbound : g.bindings.items.findIdx? (·.1 = object) = none := by
    rw [findIdx?_eq_none_iff]
    intro b mem
    rw [decide_eq_false_iff_not]
    exact fun same => serverOf_eq_none.mp fresh (mem_map.mpr ⟨b,mem,same⟩)
  unfold bind
  rw [unbound]
  dsimp only
  split
  · rename_i full
    exact .inl ⟨_,rfl,Bounded.push_eq_none.mp full⟩
  · rename_i pushed
    exact .inr ⟨_,rfl,(Bounded.push_eq_some.mp pushed).2⟩

section
variable (distinct : g.Distinct)
include distinct

theorem serverOf_eq_some : g.serverOf object = some pager ↔ (object, pager) ∈ g.bindings.items := by
  constructor
  · intro served
    obtain ⟨b,found,rfl⟩ := map_eq_some_iff.mp served
    have same : b.1 = object := by simpa using find?_some found
    rw [← same]
    exact mem_of_find?_eq_some found
  · intro bound
    cases found : g.bindings.items.find? (·.1 = object) with
    | none => simpa using find?_eq_none.mp found _ bound
    | some b =>
      have same : b.1 = object := by simpa using find?_some found
      have only := inj_on_of_nodup_map distinct (mem_of_find?_eq_some found) bound same
      rw [serverOf, found, only]
      rfl

theorem distinct_append (fresh : g.serverOf object = none)
    (items : g'.bindings.items = g.bindings.items ++ [(object, pager)]) : g'.Distinct := by
  rw [Distinct, items, map_append]
  refine distinct.append (nodup_singleton _) ?_
  intro _ mem again
  rw [map_singleton, mem_singleton] at again
  rw [again] at mem
  exact serverOf_eq_none.mp fresh mem

theorem serverOf_append (fresh : g.serverOf object = none)
    (items : g'.bindings.items = g.bindings.items ++ [(object, pager)]) (o : Nat) :
    g'.serverOf o = if o = object then some pager else g.serverOf o := by
  have after := distinct_append distinct fresh items
  ext p
  rw [serverOf_eq_some after, items, mem_append]
  by_cases same : o = object
  · subst same
    rw [← serverOf_eq_some distinct, fresh]
    simp [eq_comm]
  · rw [if_neg same, serverOf_eq_some distinct]
    simp [same]

theorem unbind_distinct (object : Nat) : (g.unbind object).2.Distinct := by
  unfold unbind
  split
  · exact distinct
  rename_i slot found
  have perm := g.bindings.swapRemove_perm (findIdx?_eq_some_iff_getElem.mp found).1
  rw [Distinct, (perm.map _).nodup_iff]
  exact List.Nodup.sublist ((eraseIdx_sublist _ slot).map _) distinct

theorem serverOf_unbind (object o : Nat) :
    (g.unbind object).2.serverOf o = if o = object then none else g.serverOf o := by
  have after := unbind_distinct distinct object
  unfold unbind at after ⊢
  split
  · rename_i missing
    split
    · rename_i same
      rw [serverOf_eq_none, same]
      intro bound
      obtain ⟨b,mem,is⟩ := mem_map.mp bound
      have no := findIdx?_eq_none_iff.mp missing b mem
      simp [is] at no
    · rfl
  · rename_i slot found
    rw [found] at after
    obtain ⟨inside,here,_⟩ := findIdx?_eq_some_iff_getElem.mp found
    have perm := g.bindings.swapRemove_perm inside
    have split := getElem_cons_eraseIdx_perm inside
    have key : g.bindings.items[slot].1 = object := by simpa using here
    have rest := (split.map Prod.fst).nodup_iff.mpr distinct
    rw [map_cons, nodup_cons, key] at rest
    ext p
    rw [serverOf_eq_some after]
    rw [perm.mem_iff]
    by_cases same : o = object
    · rw [if_pos same, same]
      simp only [reduceCtorEq, iff_false]
      exact fun still => rest.1 (mem_map.mpr ⟨_,still,rfl⟩)
    rw [if_neg same, serverOf_eq_some distinct, ← split.mem_iff, mem_cons]
    refine ⟨Or.inr,fun mem => mem.resolve_left fun is => same ?_⟩
    rw [← key, ← is]

end

end SelfPagingGraph

theorem MemoryTable.Sound.nodup_live {t : MemoryTable cfg} (sound : t.Sound) :
    (t.objects.live.map (·.object)).Nodup := by
  rw [Slots.live, List.Nodup, pairwise_map, pairwise_filterMap, pairwise_iff_getElem]
  intro i j insideI insideJ before a first b second same
  have cellI : t.objects.cell i = some a := by
    rw [Slots.cell, getElem?_eq_getElem insideI]
    exact first
  have cellJ : t.objects.cell j = some b := by
    rw [Slots.cell, getElem?_eq_getElem insideJ]
    exact second
  exact absurd (sound.distinct i j a b cellI cellJ same) (Nat.ne_of_lt before)

theorem MemoryTable.pagerOf_update (t : MemoryTable cfg) (object : ObjectId)
    (keeps : ∀ e, (f e).object = e.object ∧ (f e).pager = e.pager) : (t.update object f).pagerOf o = t.pagerOf o := by
  unfold pagerOf
  rw [t.find_update object fun e => (keeps e).1]
  split
  · cases t.find o with
    | none => rfl
    | some e => exact (keeps e).2
  · rfl

namespace Kernel

theorem objectId_eq {a b : ObjectId} (raw : a.raw = b.raw) : a = b := by
  exact congrArg ObjectId.mk raw

/-- Every object a service backs is bound to that service, and nothing else is bound. -/
structure PagersBound (k : Kernel cfg σ) : Prop where
  sound : k.memory.Sound
  distinct : k.paging.Distinct
  agree : ∀ o : ObjectId, k.paging.serverOf o.raw = (k.memory.pagerOf o).map (·.raw)

def livePaged (k : Kernel cfg σ) : List (MemoryObject cfg) := k.memory.objects.live.filter (·.pager.isSome)

theorem pagerOf_eases (eases : MemoryTable.Eases t t') (sound : t.Sound) (o : ObjectId) :
    t'.pagerOf o = t.pagerOf o := by
  have rel := eases.find sound o
  unfold pagerOf
  generalize t.find o = a, t'.find o = b at rel
  cases rel with
  | none => rfl
  | some eased => exact eased.pager

variable {k : Kernel cfg σ}

theorem PagersBound.of_loosens (bound : k.PagersBound) (loosens : Loosens k k') : k'.PagersBound := by
  refine ⟨loosens.memory.sound bound.sound,loosens.paging ▸ bound.distinct,fun o => ?_⟩
  rw [loosens.paging, pagerOf_eases loosens.memory bound.sound]
  exact bound.agree o

def Detachable (k : Kernel cfg σ) (object : ObjectId) : Prop :=
  ∀ a ∈ k.memory.attachmentOf object, a.isScoped = false

instance (k : Kernel cfg σ) (object : ObjectId) : Decidable (k.Detachable object) := by
  unfold Detachable
  infer_instance

theorem attachmentOf_detach (detachable : k.Detachable object) :
    (k.detachMemory object).2.memory.attachmentOf object = none := by
  unfold detachMemory
  split
  · rename_i none
    exact none
  rename_i a reached
  rw [if_neg (by rw [detachable a reached]; exact Bool.false_ne_true)]
  have finds := k.memory.find_update object (f := fun e => { e with attached := none }) (fun _ => rfl) object
  rw [if_pos rfl] at finds
  show ((k.memory.update object _).find object).bind _ = none
  rw [finds]
  cases k.memory.find object <;> rfl

section
variable [FrameSource σ] {k k' : Kernel cfg σ} {object owner pager : ObjectId} {t t' : MemoryTable cfg} {pages : Nat}

theorem pagerOf_destroyRecord (sound : k.memory.Sound)
    (loose : (k.memory.pagerOf object).isSome = true → k.memory.attachmentOf object = none) (o : ObjectId) :
    (k.destroyRecord object).memory.pagerOf o = if o = object then none else k.memory.pagerOf o := by
  rw [destroyRecord_memory]
  rcases destroy_cases k.memory object k.alloc with ⟨e,found,free⟩ | ⟨kept,reached⟩
  · unfold pagerOf
    rw [find_destroy sound found free]
    split <;> rfl
  -- a device still reaches the object, which is then one of the kernel's own
  have own : k.memory.pagerOf object = none := by
    by_contra backed
    have free := loose (isSome_iff_ne_none.mpr backed)
    cases found : k.memory.find object with
    | none => exact backed (by rw [pagerOf, found]; rfl)
    | some e =>
      rw [attachmentOf, found] at free
      exact reached e found free
  rw [kept]
  split
  · rename_i same
    rw [same]
    exact own
  · rfl

theorem bound_memoryDestroy (sound : k.memory.Sound) (distinct : k.paging.Distinct)
    (others : ∀ o : ObjectId, o ≠ object → k.paging.serverOf o.raw = (k.memory.pagerOf o).map (·.raw))
    (detachable : (k.memory.pagerOf object).isSome = true → k.Detachable object) :
    (k.memoryDestroy object).PagersBound := by
  have loosened := loosens_detachMemory k object
  have still := loosened.memory.sound sound
  have pager := pagerOf_eases loosened.memory sound
  have apart : (k.detachMemory object).2.paging.Distinct := loosened.paging ▸ distinct
  refine ⟨still.destroy object _,unbind_distinct apart object.raw,fun o => ?_⟩
  have record := pagerOf_destroyRecord (k := (k.detachMemory object).2.pagingUnbind object) still
    (fun backed => attachmentOf_detach (detachable (pager object ▸ backed))) o
  rw [memoryDestroy, record]
  show ((k.detachMemory object).2.paging.unbind object.raw).2.serverOf o.raw = _
  rw [serverOf_unbind apart]
  by_cases same : o = object
  · rw [if_pos same, if_pos (congrArg ObjectId.raw same)]
    rfl
  · rw [if_neg same, if_neg fun raw => same (objectId_eq raw), loosened.paging]
    exact (others o same).trans (congrArg _ (pager o).symm)

def installPaged (k : Kernel cfg σ) (slot : Nat) (p : Process cfg) (object : ObjectId) :
    Except KError Handle × Kernel cfg σ :=
  match p.handles.install object
      ((((Rights.read.union .write).union .map).union .transfer).union .supply) with
  | (.ok handle, handles) => (.ok handle, k.setProcess slot { p with handles })
  | (.error e, _) => (.error e, k.memoryDestroy object)

/-- The object is made, bound to its pager and handed to the caller, and is taken down
    again when one of the last two is refused. -/
def memoryCreatePaged (k : Kernel cfg σ) (slot bytes : Nat) (pagerHandle : Handle) :
    Except KError Handle × Kernel cfg σ :=
  if cfg.maxObjectPages < (bytes + frameSize - 1) / frameSize then (.error .limitExceeded, k)
  else
    match k.processes.cell slot with
    | none => (.error .accessDenied, k)
    | some p =>
      match p.handles.lookup pagerHandle with
      | .error e => (.error e, k)
      | .ok (pager, held) =>
        if !held.contains .supply then (.error .accessDenied, k)
        else
          match k.memory.createPaged p.id ((bytes + frameSize - 1) / frameSize) pager with
          | (.error e, memory) => (.error e, k.setMemory memory)
          | (.ok object, memory) =>
            match k.paging.bind object.raw pager.raw with
            | (.error e, paging) => (.error e, { k.setMemory memory with paging }.memoryDestroy object)
            | (.ok (), paging) => { k.setMemory memory with paging }.installPaged slot p object

section
omit [FrameSource σ]

theorem find_of_next (sound : t.Sound) (next : object = ⟨t.nextId⟩) : t.find object = none := by
  rw [find_eq_none]
  intro i f cell named
  have below := (sound.minted i f cell).2
  rw [named, next] at below
  exact absurd below (Nat.lt_irrefl _)

theorem createPaged_ok (sound : t.Sound) (done : t.createPaged owner pages pager = (.ok object, t')) :
    t'.Sound ∧ t.pagerOf object = none ∧ t'.attachmentOf object = none ∧ t'.framesOf object = [] ∧
      ∀ o, t'.pagerOf o = if o = object then some pager else t.pagerOf o := by
  have made := t.made_createPaged owner pages pager
  rw [done] at made
  have after := (made.creates sound).sound
  cases made with
  | entered _ free _ _ _ empty objects _ _ named _ attached _ _ backed =>
    obtain ⟨inside,vacant⟩ := free?_eq_some free
    have finds := find_insert after inside vacant objects
    rw [named] at finds
    refine ⟨after,by rw [pagerOf, find_of_next sound rfl]; rfl,?_,?_,fun o => ?_⟩
    · rw [attachmentOf, finds, if_pos rfl]
      exact attached
    · rw [framesOf, finds, if_pos rfl]
      exact filterMap_eq_nil_iff.mpr fun s mem => empty rfl s (mem_range'_1.mp mem)
    rw [pagerOf, finds]
    split
    · exact backed
    · rfl

end

theorem bound_memoryCreatePaged (bound : k.PagersBound) (slot bytes : Nat) (pagerHandle : Handle) :
    (k.memoryCreatePaged slot bytes pagerHandle).2.PagersBound := by
  unfold memoryCreatePaged
  split
  · exact bound
  split
  · exact bound
  rename_i p _
  split
  · exact bound
  rename_i pager _ _
  split
  · exact bound
  split
  · rename_i e memory refused
    have creates := creates_createPaged bound.sound p.id ((bytes + frameSize - 1) / frameSize) pager
    rw [refused] at creates
    obtain ⟨objects,_⟩ := creates.refused e rfl
    refine ⟨creates.sound,bound.distinct,fun o => ?_⟩
    show _ = (memory.pagerOf o).map _
    rw [pagerOf, find, objects]
    exact bound.agree o
  · rename_i object memory made
    obtain ⟨sound,unknown,free,_,pagers⟩ := createPaged_ok bound.sound made
    have unbound : k.paging.serverOf object.raw = none := by
      rw [bound.agree, unknown]
      rfl
    rcases bind_new unbound pager.raw with ⟨_,full,_⟩ | ⟨paging,placed,items⟩
    · rw [full]
      refine bound_memoryDestroy (k := { k.setMemory memory with paging := k.paging }) sound bound.distinct ?_ ?_
      · intro o other
        show _ = (memory.pagerOf o).map _
        rw [pagers, if_neg other]
        exact bound.agree o
      · intro _ a reached
        rw [show (k.setMemory memory).memory.attachmentOf object = none from free] at reached
        cases reached
    · rw [placed]
      have joined : ({ k.setMemory memory with paging } : Kernel cfg σ).PagersBound := by
        refine ⟨sound,distinct_append bound.distinct unbound items,fun o => ?_⟩
        show paging.serverOf o.raw = (memory.pagerOf o).map _
        rw [serverOf_append bound.distinct unbound items, pagers]
        by_cases same : o = object
        · rw [if_pos same, if_pos (congrArg ObjectId.raw same)]
          rfl
        · rw [if_neg same, if_neg fun raw => same (objectId_eq raw)]
          exact bound.agree o
      dsimp only [installPaged]
      split
      · exact ⟨joined.sound,joined.distinct,joined.agree⟩
      refine bound_memoryDestroy joined.sound joined.distinct (fun o _ => joined.agree o) fun _ a reached => ?_
      rw [show (k.setMemory memory).memory.attachmentOf object = none from free] at reached
      cases reached

omit [FrameSource σ] in
theorem detachable_of_loosens (loosens : Loosens k k') (sound : k.memory.Sound)
    (detachable : k.Detachable object) : k'.Detachable object := by
  intro a reached
  have rel := loosens.memory.find sound object
  unfold Detachable at detachable
  unfold attachmentOf at reached detachable
  generalize k.memory.find object = before, k'.memory.find object = after at rel reached detachable
  cases rel with
  | none => cases reached
  | some eased =>
    rcases eased.attached with same | gone
    · rw [bind_some, same] at reached
      exact detachable a reached
    · rw [bind_some, gone] at reached
      cases reached

theorem bound_handleClose (bound : k.PagersBound)
    (detachable : ∀ p object handles, k.processes.cell slot = some p → p.handles.dropHandle handle = (.ok object, handles) →
      (k.memory.pagerOf object).isSome = true → k.Detachable object) : (k.handleClose slot handle).2.PagersBound := by
  rcases handleClose_cases k slot handle with loosened | ⟨p,object,handles,_,caller,dropped,_,_,loosened,destroyed⟩
  · exact bound.of_loosens loosened
  rw [destroyed]
  have lessened := bound.of_loosens loosened
  refine bound_memoryDestroy lessened.sound lessened.distinct (fun o _ => lessened.agree o) fun backed => ?_
  rw [pagerOf_eases loosened.memory bound.sound] at backed
  exact detachable_of_loosens loosened bound.sound (detachable p object handles caller dropped backed)

/-- An object that a service backs is still held by somebody when the owner lets go. -/
def Outlives (k : Kernel cfg σ) (owner object : ObjectId) : Prop :=
  (k.memory.pagerOf object).isSome = true → (k.memory.removeHolder object owner).1 = true

omit [FrameSource σ] in
theorem outlives_of_find (same : k'.memory.find object = k.memory.find object)
    (outlives : k.Outlives owner object) : k'.Outlives owner object := by
  unfold Outlives pagerOf removeHolder at outlives ⊢
  rw [same]
  intro backed
  have left := outlives backed
  split at left <;> simp_all

/-- An owner lets go of an object, which is stopped and freed if that was its last holder. -/
theorem releaseHeld_cases (k : Kernel cfg σ) (owner object : ObjectId) : ∃ k₁, Loosens k k₁ ∧
    (∀ o, o ≠ object → k₁.memory.find o = k.memory.find o) ∧ (releaseHeld owner k object = k₁ ∨
      (k.memory.removeHolder object owner).1 = false ∧ releaseHeld owner k object = k₁.destroyRecord object) := by
  have lessened := k.memory.eases_removeHolder object owner
  have kept (o : ObjectId) (other : o ≠ object) := k.memory.find_removeHolder_other other owner
  unfold releaseHeld
  split
  · rename_i table left
    rw [left] at kept lessened
    exact ⟨{ k with memory := table },⟨lessened,rfl,rfl⟩,kept,.inl rfl⟩
  rename_i table last
  rw [last] at kept lessened
  have released : Loosens k { k with memory := table } := ⟨lessened,rfl,rfl⟩
  refine ⟨_,released.trans (loosens_detachMemory { k with memory := table } object),fun o other => ?_,.inr ⟨by rw [last],rfl⟩⟩
  exact (find_detachMemory_other _ other).trans (kept o other)

theorem find_releaseHeld_other (sound : k.memory.Sound) (owner : ObjectId) (other : o ≠ object) :
    (releaseHeld owner k object).memory.find o = k.memory.find o := by
  obtain ⟨_,loosened,kept,same | ⟨_,destroyed⟩⟩ := releaseHeld_cases k owner object
  · rw [same, kept o other]
  · rw [destroyed, destroyRecord_memory, find_destroy_other (loosened.memory.sound sound) other, kept o other]

theorem bound_releaseHeld (bound : k.PagersBound) (outlives : k.Outlives owner object) :
    (releaseHeld owner k object).PagersBound := by
  obtain ⟨k₁,loosened,_,same | ⟨last,destroyed⟩⟩ := releaseHeld_cases k owner object
  · exact same ▸ bound.of_loosens loosened
  rw [destroyed]
  have eased := bound.of_loosens loosened
  -- a service would have backed an object that somebody still holds
  have still : k₁.memory.pagerOf object = none := by
    rw [pagerOf_eases loosened.memory bound.sound]
    by_contra backed
    cases last.symm.trans (outlives (isSome_iff_ne_none.mpr backed))
  refine ⟨eased.sound.destroy object _,eased.distinct,fun o => ?_⟩
  rw [pagerOf_destroyRecord eased.sound (fun backed => by rw [still] at backed; cases backed)]
  split
  · rename_i same
    rw [same]
    exact (eased.agree object).trans (by rw [still])
  · exact eased.agree o

/-- What letting go of one object keeps, and does not undo for the others, holds after all of them. -/
theorem releaseMemoryOf_rule {P : Kernel cfg σ → Prop} {Q : Kernel cfg σ → ObjectId → Prop}
    (sound : ∀ k, P k → k.memory.Sound) (one : ∀ k object, P k → Q k object → P (releaseHeld owner k object))
    (others : ∀ k object o, P k → o ≠ object → Q k o → Q (releaseHeld owner k object) o) (start : P k)
    (each : ∀ object ∈ k.memory.objectsHeldBy owner, Q k object) : P (k.releaseMemoryOf owner) := by
  have sweep : ∀ (objects : List ObjectId) (k : Kernel cfg σ), objects.Nodup → P k →
      (∀ object ∈ objects, Q k object) → P (objects.foldl (releaseHeld owner) k) := by
    intro objects
    induction objects with
    | nil => exact fun k _ start _ => start
    | cons object rest ih =>
      intro k distinct start each
      obtain ⟨apart,distinct⟩ := nodup_cons.mp distinct
      refine ih _ distinct (one k object start (each object mem_cons_self)) fun o later => ?_
      exact others k object o start (fun same => apart (same ▸ later)) (each o (mem_cons_of_mem _ later))
  exact sweep _ k (List.Nodup.sublist (filter_sublist.map _) (sound k start).nodup_live) start each

theorem pagerOf_create (sound : t.Sound) (owner : ObjectId) (pages : Nat) (placement : Placement) (src : σ)
    (o : ObjectId) : (t.create owner pages placement src).2.1.pagerOf o = t.pagerOf o := by
  have made := t.made_create owner pages placement src
  have after := (made.creates sound).sound
  generalize (t.create owner pages placement src).1 = result, (t.create owner pages placement src).2.1 = t' at made after ⊢
  cases made with
  | refused | returned => rfl
  | entered _ free _ _ _ _ objects _ _ named _ _ _ _ own =>
    obtain ⟨inside,vacant⟩ := free?_eq_some free
    rw [pagerOf, find_insert after inside vacant objects, pagerOf]
    split
    · rename_i same
      rw [same, find_of_next sound named]
      exact own
    · rfl

omit [FrameSource σ] in
theorem PagersBound.length_livePaged (bound : k.PagersBound) :
    k.livePaged.length = k.paging.bindings.items.length := by
  have ids : (k.livePaged.map fun e => e.object.raw).Perm (k.paging.bindings.items.map Prod.fst) := by
    refine (perm_ext_iff_of_nodup ?_ bound.distinct).mpr fun raw => ?_
    · have apart : (k.livePaged.map (·.object)).Nodup :=
        List.Nodup.sublist (filter_sublist.map _) bound.sound.nodup_live
      have raws := apart.map fun a b => objectId_eq
      rwa [List.map_map] at raws
    · rw [← not_iff_not, ← serverOf_eq_none, bound.agree ⟨raw⟩, map_eq_none_iff]
      constructor
      · intro unlisted
        by_contra backed
        obtain ⟨pager,backed⟩ := ne_none_iff_exists'.mp backed
        obtain ⟨e,found,mine⟩ := bind_eq_some_iff.mp backed
        obtain ⟨named,i,_,cell⟩ := cell_of_find found
        refine unlisted (mem_map.mpr ⟨e,mem_filter.mpr ⟨mem_live.mpr ⟨i,cell⟩,?_⟩,congrArg _ named⟩)
        exact isSome_iff_exists.mpr ⟨pager,mine⟩
      · intro none listed
        obtain ⟨e,mem,rfl⟩ := mem_map.mp listed
        obtain ⟨live,backed⟩ := mem_filter.mp mem
        obtain ⟨_,cell⟩ := mem_live.mp live
        have found := bound.sound.find_of_cell cell
        rw [pagerOf, show (⟨e.object.raw⟩ : ObjectId) = e.object from rfl, found] at none
        rw [show e.pager = Option.none from none] at backed
        cases backed
  simpa using ids.length_eq

end
end Kernel

/-- The calls that make and take down objects a service backs, from the process's side and
    from the kernel's, and the transfers and attachments in between. -/
inductive PagedAction (cfg : Config) where
  | createPaged (slot bytes : Nat) (pager : Handle)
  | close (slot : Nat) (handle : Handle)
  | destroy (object : ObjectId)
  | release (owner : ObjectId)
  | create (owner : ObjectId) (pages : Nat) (placement : Placement)
  | attach (slot : Nat) (deviceHandle memoryHandle : Handle)
  | detach (slot : Nat) (handle : Handle)
  | depart (slot : Nat) (handles : HandleTable cfg) (departed : List ObjectId)
  | arrive (slot : Nat) (handles : HandleTable cfg) (object holder : ObjectId) (shared : Bool)

namespace Kernel
section
variable [FrameSource σ]

def performPaged (k : Kernel cfg σ) : PagedAction cfg → Kernel cfg σ
  | .createPaged slot bytes pager => (k.memoryCreatePaged slot bytes pager).2
  | .close slot handle => (k.handleClose slot handle).2
  | .destroy object => k.memoryDestroy object
  | .release owner => k.releaseMemoryOf owner
  | .create owner pages placement =>
    (k.setMemory (k.memory.create owner pages placement k.alloc).2.1).setAlloc
      (k.memory.create owner pages placement k.alloc).2.2
  | .attach slot deviceHandle memoryHandle => (k.dmaAttach slot deviceHandle memoryHandle).2
  | .detach slot handle => (k.dmaDetach slot handle).2
  | .depart slot handles departed => (k.setHandles slot handles).endBindingsOfDeparted slot departed
  | .arrive slot handles object holder true =>
    (k.setHandles slot handles).setMemory (k.memory.addHolder object holder).2
  | .arrive slot handles object holder false =>
    (k.setHandles slot handles).setMemory (k.memory.setSoleHolder object holder).2

def PagedStep (k : Kernel cfg σ) (a : PagedAction cfg) (k' : Kernel cfg σ) : Prop :=
  some (k.performPaged a) = some k'

end

def closed (p : Process cfg) (handle : Handle) : Option ObjectId :=
  match (p.handles.dropHandle handle).1 with
  | .ok object => some object
  | .error _ => none

/-- A process ends only when the objects that a service backs have another holder, and such
    an object is taken down only when no translation for a device leads to it. -/
def Tidy (k : Kernel cfg σ) : PagedAction cfg → Prop
  | .close slot handle => ∀ p ∈ k.processes.cell slot, ∀ object ∈ closed p handle,
      (k.memory.pagerOf object).isSome = true → k.Detachable object
  | .destroy object => (k.memory.pagerOf object).isSome = true → k.Detachable object
  | .release owner => ∀ object ∈ k.memory.objectsHeldBy owner, k.Outlives owner object
  | _ => True

instance (k : Kernel cfg σ) (owner object : ObjectId) : Decidable (k.Outlives owner object) := by
  unfold Outlives
  infer_instance

instance (k : Kernel cfg σ) (a : PagedAction cfg) : Decidable (k.Tidy a) := by
  unfold Tidy
  split <;> infer_instance

section
variable [FrameSource σ]

theorem bound_performPaged {k : Kernel cfg σ} (bound : k.PagersBound) (a : PagedAction cfg) (tidy : k.Tidy a) :
    (k.performPaged a).PagersBound := by
  cases a with
  | createPaged slot bytes pager => exact bound_memoryCreatePaged bound slot bytes pager
  | close =>
    refine bound_handleClose bound fun p object handles caller dropped backed => ?_
    exact tidy p caller object (by rw [closed, dropped]; rfl) backed
  | destroy => exact bound_memoryDestroy bound.sound bound.distinct (fun o _ => bound.agree o) tidy
  | release owner =>
    refine releaseMemoryOf_rule (fun _ => PagersBound.sound) (fun _ _ => bound_releaseHeld) ?_ bound tidy
    exact fun k object o bound other => outlives_of_find (find_releaseHeld_other bound.sound owner other)
  | create owner pages placement =>
    have creates := creates_create bound.sound owner pages placement k.alloc
    refine ⟨creates.sound,bound.distinct,fun o => (bound.agree o).trans ?_⟩
    exact congrArg _ (pagerOf_create bound.sound owner pages placement k.alloc o).symm
  | attach slot deviceHandle memoryHandle =>
    dsimp only [performPaged]
    cases done : k.dmaAttach slot deviceHandle memoryHandle with
    | mk result =>
      cases result with
      | error => exact bound.of_loosens (dmaAttach_error done).loosens
      | ok =>
        obtain ⟨memory,_,_,_,_,recorded,paging,_⟩ := dmaAttach_ok done
        have table := attach_ok recorded
        refine ⟨table ▸ bound.sound.update memory fun _ => ⟨rfl,rfl,rfl⟩,paging ▸ bound.distinct,fun o => ?_⟩
        rw [paging, table]
        refine (bound.agree o).trans (congrArg _ ?_)
        symm
        refine k.memory.pagerOf_update memory ?_
        exact fun _ => ⟨rfl,rfl⟩
  | detach slot handle => exact bound.of_loosens (loosens_dmaDetach k slot handle)
  | depart slot handles departed =>
    have loosened := loosens_endBindingsOfDeparted (k.setHandles slot handles) slot departed
    exact bound.of_loosens ⟨loosened.memory,loosened.paging,loosened.cacheBudget⟩
  | arrive slot handles object holder shared =>
    cases shared with
    | true => exact bound.of_loosens ⟨k.memory.eases_addHolder object holder,rfl,rfl⟩
    | false => exact bound.of_loosens ⟨k.memory.eases_setSoleHolder object holder,rfl,rfl⟩

/-- In every run in which processes end and objects go tidily, the guard holds one binding
    for each live object that a service backs, to that service, and holds no other; so a
    binding is refused only when that many objects are live. -/
theorem bindings_follow_objects {k₀ k : Kernel cfg σ} (empty : k₀.memory = .new) (unbound : k₀.paging = .new)
    {history : List (PagedAction cfg)} (run : Transition.Disciplined (fun _ => Tidy) PagedStep k₀ history k) :
    (∀ o : ObjectId, k.paging.serverOf o.raw = (k.memory.pagerOf o).map (·.raw)) ∧
      ∀ object pager e, (k.paging.bind object pager).1 = .error e → k.livePaged.length = cfg.maxPagers := by
  have bound : k.PagersBound := by
    refine run.invariant (fun _ k => k.PagersBound) ?_ ?_
    · intro _ _ a _ bound tidy step
      cases step
      exact bound_performPaged bound a tidy
    refine ⟨empty ▸ sound_new,unbound ▸ nodup_nil,fun o => ?_⟩
    rw [empty, unbound]
    have none : (MemoryTable.new : MemoryTable cfg).find o = none :=
      find_eq_none.mpr (by simp [MemoryTable.new])
    rw [MemoryTable.pagerOf, none]
    rfl
  refine ⟨bound.agree,fun object pager e refused => ?_⟩
  rw [bound.length_livePaged]
  unfold SelfPagingGraph.bind at refused
  split at refused
  · cases refused
  split at refused
  · rename_i full
    exact Bounded.push_eq_none.mp full
  · cases refused

end

def pagerHost : Kernel .minimal (BumpFrameAllocator .minimal) where
  exec := .new .new
  devices := ⟨.new, fun _ => .new⟩
  memory := .new
  processes := Slots.empty.put 0 { Process.new ⟨1⟩ (AddressSpace.fromArch .bare) with
    handles := (HandleTable.new.insert ⟨5⟩ .supply).2 }
  iommu := none
  alloc := .new [⟨0x100000, 0x10000, .usable⟩]

theorem closed_object_is_unbound : ∃ k : Kernel .minimal (BumpFrameAllocator .minimal),
      Transition.Disciplined (fun _ => Tidy) PagedStep pagerHost
        [.createPaged 0 4096 (.new 0 0), .createPaged 0 8192 (.new 0 0), .close 0 (.new 1 0)] k ∧
      k.livePaged.length = 1 ∧ k.paging.serverOf 0x1000 = (k.memory.pagerOf ⟨0x1000⟩).map (·.raw) :=
  Transition.Disciplined.reaches_also (by decide +kernel) fun _ run _ =>
    (bindings_follow_objects rfl rfl run).1 ⟨0x1000⟩

def endings : List (PagedAction .minimal) :=
  (replicate Config.minimal.maxPagers [.createPaged 0 4096 (.new 0 0), .release ⟨1⟩]).flatten

/-- The bindings of processes that ended are never given back: no object is left, and no
    further one can be bound. -/
theorem ended_process_leaves_its_bindings :
    ∃ k : Kernel .minimal (BumpFrameAllocator .minimal), Transition.Run PagedStep pagerHost endings k ∧
      k.livePaged.length = 0 ∧ k.memory.pagerOf ⟨0x1000⟩ = none ∧ k.paging.serverOf 0x1000 = some 5 ∧
      (k.paging.bind k.memory.nextId 5).1.isOk = false :=
  Transition.Disciplined.reaches (by decide +kernel)

end Kernel
end Tessera
