import Tessera.Ipc.Channel
import Tessera.Memory.MemoryRecords

/-!
Who holds a memory object. Every call that touches a record's holders is
described by what it does to one relation, that an object is present and a
process is listed as its holder. An attended table lists at least one holder for
each object, and no device reaches any of them.
-/
namespace Tessera.MemoryTable
open List Option Slots
variable {cfg : Config} {σ : Type} [FrameSource σ]

/-- One handle of a message arrives. An object that is not there and a full
    holder set are both passed over. -/
def adopt (t : MemoryTable cfg) (receiver : ObjectId) (h : TransferredHandle) : MemoryTable cfg :=
  if h.shared then (t.addHolder h.object receiver).2 else (t.setSoleHolder h.object receiver).2

def adoptTransferredMemory (t : MemoryTable cfg) (receiver : ObjectId) : List TransferredHandle → MemoryTable cfg
  | [] => t
  | h :: rest => (t.adopt receiver h).adoptTransferredMemory receiver rest

/-- A holder leaves, and the last one takes the object along. -/
def letGo (t : MemoryTable cfg) (object holder : ObjectId) (src : σ) : MemoryTable cfg × σ :=
  match t.removeHolder object holder with
  | (true, t) => (t, src)
  | (false, t) => (t.destroy object src).2

def releaseMemory (t : MemoryTable cfg) (holder : ObjectId) (src : σ) : List ObjectId → MemoryTable cfg × σ
  | [] => (t, src)
  | object :: rest => (t.letGo object holder src).1.releaseMemory holder (t.letGo object holder src).2 rest

def releaseMemoryOf (t : MemoryTable cfg) (owner : ObjectId) (src : σ) : MemoryTable cfg × σ :=
  t.releaseMemory owner src (t.objectsHeldBy owner)

def HeldBy (t : MemoryTable cfg) (object holder : ObjectId) : Prop :=
  ∃ e, t.find object = some e ∧ holder ∈ e.holders.live

structure Attended (t : MemoryTable cfg) : Prop where
  sound : t.Sound
  loose : ∀ o e, t.find o = some e → e.attached = none
  nonempty : ∀ o e, t.find o = some e → ∃ h, h ∈ e.holders.live

variable {t t' : MemoryTable cfg} {o receiver : ObjectId} {e : MemoryObject cfg} {kept : List ObjectId}
  {change : MemoryObject cfg → Slots ObjectId cfg.maxHolders} {m : TransferredHandle}

theorem heldBy_iff : t.isHeldBy o h = true ↔ t.HeldBy o h := by
  unfold isHeldBy HeldBy
  rw [Option.any_eq_true]
  simp only [contains_iff_mem]

instance (t : MemoryTable cfg) (o h : ObjectId) : Decidable (t.HeldBy o h) := decidable_of_iff _ heldBy_iff

theorem attended_new : (new : MemoryTable cfg).Attended := by
  have none : ∀ o, (new : MemoryTable cfg).find o = none := by
    intro _
    rw [find_eq_none]
    intro _ _ here
    simp [new] at here
  refine ⟨sound_new,?_,?_⟩
  · intro _ _ found
    rw [none] at found
    cases found
  · intro _ _ found
    rw [none] at found
    cases found

theorem live_soleHolder (positive : 0 < cfg.maxHolders) (owner : ObjectId) :
    (soleHolder owner : Slots ObjectId cfg.maxHolders).live = [owner] := by
  have one := live_put_perm (s := (Slots.empty : Slots ObjectId cfg.maxHolders)) (a := owner) positive
    (cell_empty 0)
  have bare : (Slots.empty : Slots ObjectId cfg.maxHolders).live = [] := by simp [Slots.live, Slots.empty]
  rw [bare] at one
  exact perm_singleton.mp one

theorem live_length {α : Type} (s : Slots α cap) : s.live.length ≤ cap :=
  (length_filterMap_le _ _).trans_eq s.size

theorem live_compacted (fits : kept.length ≤ cfg.maxHolders) :
    (compacted kept : Slots ObjectId cfg.maxHolders).live = kept := by
  unfold compacted Slots.live
  dsimp only
  rw [take_append, take_of_length_le (by simpa using fits)]
  simp

theorem find_setHolders (t : MemoryTable cfg) (o : ObjectId)
    (change : MemoryObject cfg → Slots ObjectId cfg.maxHolders) (o' : ObjectId) :
    (t.update o fun e => { e with holders := change e }).find o' =
      if o' = o then (t.find o').map fun e => { e with holders := change e } else t.find o' := by
  apply find_update
  intro _
  rfl

theorem heldBy_setHolders (o : ObjectId) (o' h : ObjectId) :
    (t.update o fun e => { e with holders := change e }).HeldBy o' h ↔
      if o' = o then ∃ e, t.find o = some e ∧ h ∈ (change e).live else t.HeldBy o' h := by
  unfold HeldBy
  rw [find_setHolders]
  by_cases same : o' = o
  · subst same
    simp only [if_true, map_eq_some_iff]
    constructor
    · rintro ⟨_,⟨old,before,rfl⟩,mem⟩
      exact ⟨old,before,mem⟩
    · rintro ⟨old,before,mem⟩
      exact ⟨_,⟨old,before,rfl⟩,mem⟩
  · simp [same]

section
variable (attended : t.Attended)
include attended

theorem Attended.setHolders (o : ObjectId) (someone : ∀ e, t.find o = some e → ∃ h, h ∈ (change e).live) :
    (t.update o fun e => { e with holders := change e }).Attended := by
  refine ⟨attended.sound.update o fun _ => ⟨rfl,rfl,rfl⟩,?_,?_⟩
  · intro o' e found
    rw [find_setHolders] at found
    split at found
    · obtain ⟨old,before,rfl⟩ := map_eq_some_iff.mp found
      exact attended.loose o' old before
    · exact attended.loose o' e found
  · intro o' e found
    rw [find_setHolders] at found
    split at found
    · rename_i same
      obtain ⟨old,before,rfl⟩ := map_eq_some_iff.mp found
      exact someone old (same ▸ before)
    · exact attended.nonempty o' e found

theorem setSoleHolder_effect (positive : 0 < cfg.maxHolders) (o owner : ObjectId) :
    (t.setSoleHolder o owner).2.Attended ∧ ∀ o' h, (t.setSoleHolder o owner).2.HeldBy o' h ↔
        if o' = o then (∃ e, t.find o = some e) ∧ h = owner else t.HeldBy o' h := by
  unfold setSoleHolder
  constructor
  · apply attended.setHolders
    intro _ _
    rw [live_soleHolder positive]
    exact ⟨owner,mem_singleton_self _⟩
  · intro _ _
    rw [heldBy_setHolders]
    simp only [live_soleHolder positive, mem_singleton, exists_and_right]

theorem Attended.erase (sound : t'.Sound) (find : ∀ o', t'.find o' = if o' = o then none else t.find o') :
    t'.Attended ∧ ∀ o' h, t'.HeldBy o' h ↔ t.HeldBy o' h ∧ o' ≠ o := by
  have before {o' : ObjectId} {e : MemoryObject cfg} (found : t'.find o' = some e) :
      t.find o' = some e ∧ o' ≠ o := by
    rw [find] at found
    split at found
    · cases found
    · rename_i other
      exact ⟨found,other⟩
  refine ⟨⟨sound,?_,?_⟩,?_⟩
  · intro o' e found
    exact attended.loose o' e (before found).1
  · intro o' e found
    exact attended.nonempty o' e (before found).1
  intro _ _
  constructor
  · rintro ⟨e,found,mem⟩
    exact ⟨⟨e,(before found).1,mem⟩,(before found).2⟩
  · rintro ⟨⟨e,found,mem⟩,other⟩
    exact ⟨e,by rw [find, if_neg other, found],mem⟩

section
variable (found : t.find o = some e)
include found

theorem Attended.present : memoryObjectIdBase ≤ o.raw ∧ o.raw < t.nextId := by
  obtain ⟨named,i,_,here⟩ := cell_of_find found
  rw [← named]
  exact attended.sound.minted i e here

theorem addHolder_effect
    (room : holder ∈ e.holders.live ∨ 0 < e.holders.vacancies) : (t.addHolder o holder).2.Attended ∧
      ∀ o' h, (t.addHolder o holder).2.HeldBy o' h ↔ t.HeldBy o' h ∨ o' = o ∧ h = holder := by
  unfold addHolder
  simp only [found]
  split
  · rename_i listed
    refine ⟨attended,fun o' h => ⟨.inl,?_⟩⟩
    rintro (before | ⟨rfl,rfl⟩)
    · exact before
    · exact ⟨e,found,contains_iff_mem.mp listed⟩
  rename_i unlisted
  split
  · rename_i full
    rcases room with listed | _
    · exact absurd (contains_iff_mem.mpr listed) unlisted
    · rw [free?_eq_none] at full
      omega
  rename_i slot free
  obtain ⟨inside,empty⟩ := free?_eq_some free
  have grown (h : ObjectId) : h ∈ (e.holders.put slot holder).live ↔ h = holder ∨ h ∈ e.holders.live :=
    (live_put_perm inside empty).mem_iff.trans mem_cons
  constructor
  · apply attended.setHolders
    intro e' found'
    rw [found] at found'
    cases found'
    exact ⟨holder,(grown holder).mpr (.inl rfl)⟩
  · intro o' h
    rw [heldBy_setHolders]
    by_cases same : o' = o
    · subst same
      rw [if_pos rfl]
      constructor
      · rintro ⟨e',found',mem⟩
        rw [found] at found'
        cases found'
        rcases (grown h).mp mem with rfl | before
        · exact .inr ⟨rfl,rfl⟩
        · exact .inl ⟨e,found,before⟩
      · rintro (⟨e',found',before⟩ | ⟨_,rfl⟩)
        · rw [found] at found'
          cases found'
          exact ⟨e,found,(grown h).mpr (.inr before)⟩
        · exact ⟨e,found,(grown h).mpr (.inl rfl)⟩
    · rw [if_neg same]
      constructor
      · exact .inl
      · rintro (before | ⟨here,_⟩)
        · exact before
        · exact absurd here same

theorem destroy_effect (src : σ) : (t.destroy o src).2.1.Attended ∧
      ∀ o' h, (t.destroy o src).2.1.HeldBy o' h ↔ t.HeldBy o' h ∧ o' ≠ o :=
  attended.erase (attended.sound.destroy o src) (find_destroy attended.sound found (attended.loose o e found) src)

end

end

def without (t : MemoryTable cfg) (o : ObjectId) (kept : List ObjectId) : MemoryTable cfg :=
  t.update o fun e => { e with holders := compacted kept }

theorem letGo_some (found : t.find o = some e) (holder : ObjectId) (src : σ)
    (left : e.holders.live.filter (· ≠ holder) = kept) :
    t.letGo o holder src = if kept = [] then ((t.without o kept).destroy o src).2 else (t.without o kept, src) := by
  subst left
  unfold letGo removeHolder without
  simp only [found]
  by_cases bare : e.holders.live.filter (· ≠ holder) = []
  · simp only [bare, isEmpty_nil, Bool.not_true, if_true]
  · have busy : (e.holders.live.filter (· ≠ holder)).isEmpty = false := by simpa using bare
    simp only [busy, bare, Bool.not_false, if_false]

section
variable (attended : t.Attended)
include attended

theorem find_destroy_without (found : t.find o = some e) (kept : List ObjectId)
    (src : σ) : ((t.without o kept).destroy o src).2.1.Sound ∧
      ∀ o', ((t.without o kept).destroy o src).2.1.find o' = if o' = o then none else t.find o' := by
  have sound : (t.without o kept).Sound := attended.sound.update o fun _ => ⟨rfl,rfl,rfl⟩
  have found' : (t.without o kept).find o = some { e with holders := compacted kept } := by
    rw [without, find_setHolders, if_pos rfl, found]
    rfl
  refine ⟨sound.destroy o src,fun o' => ?_⟩
  rw [find_destroy sound found' (attended.loose o e found)]
  by_cases same : o' = o
  · simp [same]
  · rw [if_neg same, if_neg same, without, find_setHolders, if_neg same]

theorem letGo_effect (o holder : ObjectId) (src : σ) : (t.letGo o holder src).1.Attended ∧
      ∀ o' h, (t.letGo o holder src).1.HeldBy o' h ↔ t.HeldBy o' h ∧ ¬(o' = o ∧ h = holder) := by
  cases found : t.find o with
  | none =>
    have same : t.letGo o holder src = (t, src) := by
      unfold letGo removeHolder destroy
      simp only [found]
      cases t.objects.index? (named o) <;> rfl
    rw [same]
    refine ⟨attended,fun o' h => ⟨fun held => ⟨held,?_⟩,And.left⟩⟩
    rintro ⟨rfl,_⟩
    obtain ⟨e,there,_⟩ := held
    rw [found] at there
    cases there
  | some e =>
    have fits : (e.holders.live.filter (· ≠ holder)).length ≤ cfg.maxHolders :=
      (length_filter_le _ _).trans (live_length _)
    have fewer (h : ObjectId) : h ∈ e.holders.live.filter (· ≠ holder) ↔ h ∈ e.holders.live ∧ h ≠ holder := by
      simp
    have listed (h : ObjectId) : t.HeldBy o h ↔ h ∈ e.holders.live := by
      simp [HeldBy, found]
    generalize left : e.holders.live.filter (· ≠ holder) = kept at fits fewer
    rw [letGo_some found holder src left]
    by_cases bare : kept = []
    · rw [if_pos bare]
      obtain ⟨sound,others⟩ := find_destroy_without attended found kept src
      obtain ⟨attended',effect⟩ := attended.erase sound others
      refine ⟨attended',fun o' h => ?_⟩
      rw [effect]
      refine and_congr_right fun held => ⟨fun other gone => other gone.1,fun stays same => stays ⟨same,?_⟩⟩
      subst same
      by_contra other
      have last := (fewer h).mpr ⟨(listed h).mp held,other⟩
      rw [bare] at last
      cases last
    · rw [if_neg bare]
      obtain ⟨first,mem⟩ := exists_mem_of_ne_nil kept bare
      constructor
      · apply attended.setHolders
        intro _ _
        rw [live_compacted fits]
        exact ⟨first,mem⟩
      · intro o' _
        rw [without, heldBy_setHolders, live_compacted fits]
        by_cases same : o' = o
        · subst same
          rw [listed]
          simp [found, fewer]
        · simp [same]

theorem releaseMemory_effect (holder : ObjectId) (src : σ) (objects : List ObjectId) :
    (t.releaseMemory holder src objects).1.Attended ∧
      ∀ o h, (t.releaseMemory holder src objects).1.HeldBy o h ↔ t.HeldBy o h ∧ ¬(o ∈ objects ∧ h = holder) := by
  induction objects generalizing t src with
  | nil => exact ⟨attended,fun o h => by simp [releaseMemory]⟩
  | cons obj rest ih =>
    obtain ⟨attended',once⟩ := letGo_effect attended obj holder src
    obtain ⟨attended'',all⟩ := ih attended' (t.letGo obj holder src).2
    refine ⟨attended'',fun o h => ?_⟩
    rw [releaseMemory, all, once, mem_cons]
    tauto

theorem releaseMemoryOf_effect (owner : ObjectId) (src : σ) : (t.releaseMemoryOf owner src).1.Attended ∧
      ∀ o h, (t.releaseMemoryOf owner src).1.HeldBy o h ↔ t.HeldBy o h ∧ h ≠ owner := by
  obtain ⟨attended',effect⟩ := releaseMemory_effect attended owner src (t.objectsHeldBy owner)
  refine ⟨attended',fun o h => ?_⟩
  rw [releaseMemoryOf, effect]
  constructor
  · rintro ⟨⟨e,found,mem⟩,stays⟩
    refine ⟨⟨e,found,mem⟩,?_⟩
    rintro rfl
    apply stays
    obtain ⟨named,i,_,here⟩ := cell_of_find found
    refine ⟨?_,rfl⟩
    unfold objectsHeldBy
    rw [List.mem_map]
    refine ⟨e,?_,named⟩
    rw [mem_filter, mem_live]
    exact ⟨⟨i,here⟩,contains_iff_mem.mpr mem⟩
  · rintro ⟨held,other⟩
    exact ⟨held,fun gone => other gone.2⟩

end

/-- A shared object lists the receiver already or has room for it. -/
def Adoptable (t : MemoryTable cfg) (receiver : ObjectId) (h : TransferredHandle) : Prop :=
  ∀ e ∈ t.find h.object, h.shared = true → receiver ∈ e.holders.live ∨ 0 < e.holders.vacancies

instance (t : MemoryTable cfg) (receiver : ObjectId) (h : TransferredHandle) : Decidable (t.Adoptable receiver h) :=
  inferInstanceAs (Decidable (∀ e ∈ t.find h.object, _))

theorem find_adopt_other (receiver : ObjectId) (other : o ≠ m.object) : (t.adopt receiver m).find o = t.find o := by
  unfold adopt addHolder setSoleHolder
  split
  · split
    · rfl
    split
    · rfl
    · split
      · rfl
      · rw [find_setHolders, if_neg other]
  · rw [find_setHolders, if_neg other]

section
variable (attended : t.Attended)
include attended

theorem Attended.present_iff : (∃ e, t.find o = some e) ↔ ∃ h, t.HeldBy o h := by
  constructor
  · rintro ⟨e,found⟩
    obtain ⟨h,mem⟩ := attended.nonempty o e found
    exact ⟨h,e,found,mem⟩
  · rintro ⟨_,e,found,_⟩
    exact ⟨e,found⟩

section
variable (positive : 0 < cfg.maxHolders)
include positive

theorem adopt_effect (ready : t.Adoptable receiver m) : (t.adopt receiver m).Attended ∧
      ∀ o h, (t.adopt receiver m).HeldBy o h ↔ (t.HeldBy o h ∧ (m.object = o → m.shared = true)) ∨
        (h = receiver ∧ (∃ e, t.find o = some e) ∧ m.object = o) := by
  unfold adopt
  split
  · rename_i shared
    cases found : t.find m.object with
    | none =>
      have same : (t.addHolder m.object receiver).2 = t := by
        unfold addHolder
        simp [found]
      rw [same]
      refine ⟨attended,fun o h => ⟨fun held => .inl ⟨held,fun _ => shared⟩,?_⟩⟩
      rintro (⟨held,_⟩ | ⟨_,⟨e,there⟩,rfl⟩)
      · exact held
      · rw [found] at there
        cases there
    | some e =>
      obtain ⟨attended',effect⟩ := addHolder_effect attended found (ready e found shared)
      refine ⟨attended',fun o h => ?_⟩
      rw [effect]
      constructor
      · rintro (held | ⟨rfl,rfl⟩)
        · exact .inl ⟨held,fun _ => shared⟩
        · exact .inr ⟨rfl,⟨e,found⟩,rfl⟩
      · rintro (⟨held,_⟩ | ⟨rfl,_,rfl⟩)
        · exact .inl held
        · exact .inr ⟨rfl,rfl⟩
  · rename_i moved
    obtain ⟨attended',effect⟩ := setSoleHolder_effect attended positive m.object receiver
    refine ⟨attended',fun o h => ?_⟩
    rw [effect]
    by_cases same : o = m.object
    · subst same
      simp only [moved, Bool.false_eq_true, forall_const, and_false, false_or, and_true]
      exact And.comm
    · simp [same, Ne.symm same]

theorem adoptable_adopt (ready : t.Adoptable receiver m) (ready' : t.Adoptable receiver m') :
    (t.adopt receiver m).Adoptable receiver m' := by
  obtain ⟨attended',effect⟩ := adopt_effect attended positive ready
  intro e found shared
  by_cases same : m'.object = m.object
  · left
    obtain ⟨_,held⟩ := attended'.present_iff.mp ⟨e,found⟩
    have there : ∃ e, t.find m'.object = some e := by
      rcases (effect _ _).mp held with ⟨⟨e,there,_⟩,_⟩ | ⟨_,there,_⟩
      · exact ⟨e,there⟩
      · exact there
    obtain ⟨_,found',mem⟩ := (effect m'.object receiver).mpr (.inr ⟨rfl,there,same.symm⟩)
    rw [found] at found'
    cases found'
    exact mem
  · rw [find_adopt_other receiver same] at found
    exact ready' e found shared

theorem adoptTransferredMemory_effect (ready : ∀ m ∈ hs, t.Adoptable receiver m) :
    (t.adoptTransferredMemory receiver hs).Attended ∧ ∀ o h, (t.adoptTransferredMemory receiver hs).HeldBy o h ↔
        (t.HeldBy o h ∧ ∀ m ∈ hs, m.object = o → m.shared = true) ∨
        (h = receiver ∧ (∃ e, t.find o = some e) ∧ ∃ m ∈ hs, m.object = o) := by
  induction hs generalizing t with
  | nil => exact ⟨attended,fun o h => by simp [adoptTransferredMemory]⟩
  | cons m rest ih =>
    have readyHere := ready m mem_cons_self
    obtain ⟨attended',once⟩ := adopt_effect attended positive readyHere
    obtain ⟨attended'',all⟩ := ih attended' fun m' mem =>
      adoptable_adopt attended positive readyHere (ready m' (mem_cons_of_mem _ mem))
    refine ⟨attended'',fun o h => ?_⟩
    have there : (∃ e, (t.adopt receiver m).find o = some e) ↔ ∃ e, t.find o = some e := by
      rw [attended'.present_iff]
      constructor
      · rintro ⟨h,held⟩
        rcases (once o h).mp held with ⟨⟨e,found,_⟩,_⟩ | ⟨_,found,_⟩
        · exact ⟨e,found⟩
        · exact found
      · rintro ⟨e,found⟩
        by_cases here : m.object = o
        · exact ⟨receiver,(once o receiver).mpr (.inr ⟨rfl,⟨e,found⟩,here⟩)⟩
        · obtain ⟨h,mem⟩ := attended.nonempty o e found
          exact ⟨h,(once o h).mpr (.inl ⟨⟨e,found,mem⟩,fun same => absurd same here⟩)⟩
    rw [adoptTransferredMemory, all, once, there]
    simp only [mem_cons, forall_eq_or_imp, exists_eq_or_imp]
    constructor
    · rintro (⟨⟨held,first⟩ | ⟨same,found,here⟩,later⟩ | ⟨same,found,later⟩)
      · exact .inl ⟨held,first,later⟩
      · exact .inr ⟨same,found,.inl here⟩
      · exact .inr ⟨same,found,.inr later⟩
    · rintro (⟨held,first,later⟩ | ⟨same,found,here | later⟩)
      · exact .inl ⟨.inl ⟨held,first⟩,later⟩
      · by_cases kept : ∀ m ∈ rest, m.object = o → m.shared = true
        · exact .inl ⟨.inr ⟨same,found,here⟩,kept⟩
        · push Not at kept
          obtain ⟨m',mem,obj,_⟩ := kept
          exact .inr ⟨same,found,m',mem,obj⟩
      · exact .inr ⟨same,found,later⟩

end

end

theorem Creates.effect (creates : Creates t t' result owner) (attended : t.Attended) (positive : 0 < cfg.maxHolders) :
    t'.Attended ∧ (∀ err, result = .error err → ∀ o h, t'.HeldBy o h ↔ t.HeldBy o h) ∧
      ∀ obj, result = .ok obj → (∀ h, ¬ t.HeldBy obj h) ∧ memoryObjectIdBase ≤ obj.raw ∧
        ∀ o h, t'.HeldBy o h ↔ t.HeldBy o h ∨ o = obj ∧ h = owner := by
  cases result with
  | error err =>
    have same : t'.objects = t.objects := (creates.refused err rfl).1
    have find (o : ObjectId) : t'.find o = t.find o := by rw [MemoryTable.find, MemoryTable.find, same]
    refine ⟨⟨creates.sound,?_,?_⟩,?_,by simp⟩
    · intro o e found
      exact attended.loose o e (find o ▸ found)
    · intro o e found
      exact attended.nonempty o e (find o ▸ found)
    · intro _ _ o h
      rw [HeldBy, HeldBy, find]
  | ok obj =>
    obtain ⟨rfl,_,_,_,holders,loose,find⟩ := creates.made obj rfl
    have fresh : ∀ h, ¬ t.HeldBy ⟨t.nextId⟩ h := by
      rintro h ⟨_,found,_⟩
      have := (attended.present found).2
      dsimp only at this
      omega
    refine ⟨⟨creates.sound,?_,?_⟩,by simp,?_⟩
    · intro o e' found
      rw [find] at found
      split at found
      · cases found
        exact loose
      · exact attended.loose o e' found
    · intro o e' found
      rw [find] at found
      split at found
      · cases found
        rw [holders, live_soleHolder positive]
        exact ⟨owner,mem_singleton_self _⟩
      · exact attended.nonempty o e' found
    · intro _ same
      cases same
      refine ⟨fresh,attended.sound.started,fun o h => ?_⟩
      by_cases here : o = ⟨t.nextId⟩
      · subst here
        simp only [HeldBy, find, if_true, Option.some.injEq, exists_eq_left', holders, live_soleHolder positive,
          mem_singleton, true_and]
        constructor
        · exact .inr
        · rintro (held | same)
          · exact absurd held (fresh h)
          · exact same
      · simp [HeldBy, find, here]

end Tessera.MemoryTable
