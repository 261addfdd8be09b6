import Tessera.Config
import Tessera.Object
import Tessera.Lib.Slots

/-!
The handle table of one process. A handle packs a slot index and the slot's
generation into 32 bits; emptying a slot moves its generation on, so that an
old handle no longer resolves. The scope field of an entry, which every insert
leaves empty, is not kept here.
-/
namespace Tessera
open List Slots

structure Handle where
  raw : Nat
  deriving DecidableEq

namespace Handle

def new (index generation : Nat) : Handle := ⟨generation % 2 ^ 16 * 2 ^ 16 + index % 2 ^ 16⟩

def index (h : Handle) : Nat := h.raw % 2 ^ 16

def generation (h : Handle) : Nat := h.raw / 2 ^ 16 % 2 ^ 16

/-- The kernel receives a handle in a 64-bit register and keeps its low half. -/
def fromRaw (raw : Nat) : Handle := ⟨raw % 2 ^ 32⟩

end Handle

theorem Handle.fromRaw_ext (index : (Handle.fromRaw a).index = (Handle.fromRaw b).index)
    (generation : (Handle.fromRaw a).generation = (Handle.fromRaw b).generation) :
    Handle.fromRaw a = Handle.fromRaw b := by
  simp only [Handle.fromRaw, Handle.index, Handle.generation, Handle.mk.injEq] at *
  omega

structure HandleEntry where
  object : ObjectId
  rights : Rights
  deriving DecidableEq

structure HandleTable (cfg : Config) where
  slots : Slots HandleEntry cfg.maxHandles
  generations : Nat → Nat

namespace HandleTable
variable {cfg : Config}

section
variable (t : HandleTable cfg) (h : Handle)

def new : HandleTable cfg := ⟨.empty, fun _ => 0⟩

def insert (object : ObjectId) (rights : Rights) : Except KError Handle × HandleTable cfg :=
  match t.slots.free? with
  | none => (.error .outOfMemory, t)
  | some index =>
    (.ok (Handle.new index (t.generations index)), { t with slots := t.slots.put index ⟨object, rights⟩ })

def entry : Except KError HandleEntry :=
  if h.index < cfg.maxHandles ∧ t.generations h.index = h.generation then
    match t.slots.cell h.index with
    | some e => .ok e
    | none => .error .badHandle
  else .error .badHandle

def lookup : Except KError (ObjectId × Rights) :=
  match t.entry h with
  | .ok e => .ok (e.object, e.rights)
  | .error e => .error e

def vacate (index : Nat) : HandleTable cfg where
  slots := t.slots.clear index
  generations := Function.update t.generations index ((t.generations index + 1) % 2 ^ 16)

def replaceRights (newRights : Rights) : Except KError Unit × HandleTable cfg :=
  match t.entry h with
  | .error e => (.error e, t)
  | .ok e =>
    if newRights.isSubsetOf e.rights then
      (.ok (), { t with slots := t.slots.put h.index { e with rights := newRights } })
    else (.error .accessDenied, t)

def shareNarrowed (narrowed : Rights) : Except KError (ObjectId × Rights) :=
  match t.lookup h with
  | .error e => .error e
  | .ok (object, rights) =>
    if rights.contains Rights.transfer && narrowed.isSubsetOf rights then .ok (object, narrowed)
    else .error .accessDenied

def takeNarrowed (narrowed : Rights) : Except KError (ObjectId × Rights) × HandleTable cfg :=
  match t.lookup h with
  | .error e => (.error e, t)
  | .ok (object, rights) =>
    if rights.contains Rights.transfer && narrowed.isSubsetOf rights then (.ok (object, narrowed), t.vacate h.index)
    else (.error .accessDenied, t)

def take : Except KError (ObjectId × Rights) × HandleTable cfg :=
  match t.lookup h with
  | .error e => (.error e, t)
  | .ok (_, rights) => t.takeNarrowed h rights

def install (object : ObjectId) (rights : Rights) : Except KError Handle × HandleTable cfg :=
  t.insert object rights

def dropHandle : Except KError ObjectId × HandleTable cfg :=
  match t.entry h with
  | .error e => (.error e, t)
  | .ok e => (.ok e.object, t.vacate h.index)

def holds (object : ObjectId) : Bool :=
  t.slots.live.any (·.object == object)

def names (wanted : List ObjectId) (index : Nat) : Bool :=
  (t.slots.cell index).any (wanted.contains ·.object)

/-- The slot loop of a reclaim: it stops when the array that takes the handles is full. -/
def reclaimSlots (t : HandleTable cfg) (wanted : List ObjectId) : (room : Nat) → List Nat →
    List HandleEntry × HandleTable cfg
  | 0, _ => ([], t)
  | _ + 1, [] => ([], t)
  | room + 1, index :: rest =>
    match t.slots.cell index with
    | none => t.reclaimSlots wanted (room + 1) rest
    | some e =>
      if wanted.contains e.object then
        (e :: ((t.vacate index).reclaimSlots wanted room rest).1, ((t.vacate index).reclaimSlots wanted room rest).2)
      else t.reclaimSlots wanted (room + 1) rest

def reclaim (wanted : List ObjectId) (room : Nat) : List HandleEntry × HandleTable cfg :=
  t.reclaimSlots wanted room (List.range cfg.maxHandles)

def slotsNaming (wanted : List ObjectId) : List Nat :=
  (List.range cfg.maxHandles).filter (t.names wanted)

def Has (e : HandleEntry) : Prop := ∃ i, t.slots.cell i = some e

end

theorem not_has_new (e : HandleEntry) : ¬(new : HandleTable cfg).Has e := by
  intro has
  obtain ⟨i,hi⟩ := has
  simp [new] at hi

variable {t t' : HandleTable cfg} {h : Handle} {e : HandleEntry} {object o : ObjectId}
  {rights narrowed : Rights} {index j : Nat} {found : ObjectId × Rights}

theorem cell_of_entry (found : t.entry h = .ok e) : t.slots.cell h.index = some e := by
  unfold entry at found
  split at found
  · split at found
    · rename_i there
      cases found
      exact there
    · cases found
  · cases found

theorem has_of_entry (found : t.entry h = .ok e) : t.Has e :=
  ⟨_,cell_of_entry found⟩

theorem cell_of_lookup (looked : t.lookup h = .ok (object, rights)) :
    t.slots.cell h.index = some ⟨object, rights⟩ := by
  unfold lookup at looked
  split at looked
  · rename_i there
    cases looked
    exact cell_of_entry there
  · cases looked

theorem has_of_lookup (found : t.lookup h = .ok (object, rights)) : t.Has ⟨object, rights⟩ :=
  ⟨_,cell_of_lookup found⟩

theorem has_insert (has : (t.insert object rights).2.Has e) : t.Has e ∨ e = ⟨object, rights⟩ := by
  unfold insert at has
  split at has
  · exact .inl has
  obtain ⟨i,hi⟩ := has
  rcases cell_put_cases hi with same | kept
  · exact .inr same.2
  · exact .inl ⟨i,kept.2⟩

theorem has_vacate (has : (t.vacate index).Has e) : t.Has e := by
  obtain ⟨i,hi⟩ := has
  exact ⟨i,(cell_clear_cases hi).2⟩

theorem replaceRights_ok (found : t.entry h = .ok e) (done : t.replaceRights h newRights = (.ok (), t')) :
    newRights.isSubsetOf e.rights = true ∧ t'.Has ⟨e.object, newRights⟩ ∧
      ∀ x, t'.Has x → t.Has x ∨ x = ⟨e.object, newRights⟩ := by
  unfold replaceRights at done
  rw [found] at done
  simp only at done
  split at done
  · rename_i sub
    cases done
    have inside := lt_of_cell (cell_of_entry found)
    refine ⟨sub,⟨h.index,cell_put_self _ inside _⟩,fun _ has => ?_⟩
    obtain ⟨i,hi⟩ := has
    rcases cell_put_cases hi with same | kept
    · exact .inr same.2
    · exact .inl ⟨i,kept.2⟩
  · cases done

theorem shareNarrowed_eq_ok (done : t.shareNarrowed h narrowed = .ok (object, rights)) :
    rights = narrowed ∧ ∃ held, t.Has ⟨object, held⟩ ∧ held.contains Rights.transfer = true ∧
      narrowed.isSubsetOf held = true := by
  unfold shareNarrowed at done
  split at done
  · cases done
  rename_i held found
  split at done
  · rename_i ok
    cases done
    rw [Bool.and_eq_true] at ok
    exact ⟨rfl,held,has_of_lookup found,ok.1,ok.2⟩
  · cases done

theorem takeNarrowed_eq (t : HandleTable cfg) (h : Handle) (narrowed : Rights) : t.takeNarrowed h narrowed =
    (t.shareNarrowed h narrowed, if (t.shareNarrowed h narrowed).isOk then t.vacate h.index else t) := by
  unfold takeNarrowed shareNarrowed
  split
  · rfl
  · split <;> rfl

theorem has_dropHandle (has : (t.dropHandle h).2.Has e) : t.Has e := by
  unfold dropHandle at has
  split at has
  · exact has
  · exact has_vacate has

theorem holds_iff : t.holds o = true ↔ ∃ i e, t.slots.cell i = some e ∧ e.object = o := by
  unfold holds
  simp only [any_eq_true, beq_iff_eq, mem_live]
  constructor
  · rintro ⟨e,⟨i,here⟩,same⟩
    exact ⟨i,e,here,same⟩
  · rintro ⟨i,e,here,same⟩
    exact ⟨e,⟨i,here⟩,same⟩

theorem holds_of_lookup (found : t.lookup h = .ok (o, rights)) : t.holds o = true := by
  obtain ⟨i,here⟩ := has_of_lookup found
  exact holds_iff.mpr ⟨i,_,here,rfl⟩

theorem not_holds_new (o : ObjectId) : (new : HandleTable cfg).holds o = false := by
  rw [← Bool.not_eq_true, holds_iff]
  rintro ⟨i,e,here,_⟩
  simp [new] at here

theorem holds_vacate (here : t.slots.cell index = some e) (other : o ≠ e.object) :
    (t.vacate index).holds o = t.holds o := by
  rw [Bool.eq_iff_iff, holds_iff, holds_iff]
  constructor
  · rintro ⟨i,f,there,same⟩
    exact ⟨i,f,(cell_clear_cases there).2,same⟩
  rintro ⟨i,f,there,same⟩
  refine ⟨i,f,?_,same⟩
  rw [vacate, Slots.clear, cell_assign_ne _ _ _]
  · exact there
  rintro rfl
  rw [here] at there
  cases there
  exact other same.symm

theorem dropHandle_ok (done : t.dropHandle h = (.ok o, t')) :
    t.holds o = true ∧ ∀ o', o' ≠ o → t'.holds o' = t.holds o' := by
  unfold dropHandle at done
  split at done
  · cases done
  rename_i e found
  cases done
  have here := cell_of_entry found
  exact ⟨holds_iff.mpr ⟨_,e,here,rfl⟩,fun _ other => holds_vacate here other⟩

theorem holds_install_ok (done : t.install object rights = (.ok h, t')) (o : ObjectId) :
    t'.holds o = true ↔ t.holds o = true ∨ o = object := by
  unfold install insert at done
  split at done
  · cases done
  rename_i index free
  obtain ⟨inside,empty⟩ := free?_eq_some free
  cases done
  rw [holds_iff, holds_iff]
  constructor
  · rintro ⟨i,e,there,same⟩
    rcases cell_put_cases there with ⟨_,rfl⟩ | ⟨_,before⟩
    · exact .inr same.symm
    · exact .inl ⟨i,e,before,same⟩
  · rintro (⟨i,e,before,same⟩ | rfl)
    · exact ⟨i,e,cell_put_of_empty _ empty before _,same⟩
    · exact ⟨index,_,cell_put_self _ inside _,rfl⟩

theorem holds_replaceRights (t : HandleTable cfg) (h : Handle) (newRights : Rights) (o : ObjectId) :
    (t.replaceRights h newRights).2.holds o = t.holds o := by
  unfold replaceRights
  split
  · rfl
  rename_i e found
  split
  · have here := cell_of_entry found
    have inside := lt_of_cell here
    rw [Bool.eq_iff_iff, holds_iff, holds_iff]
    constructor
    · rintro ⟨i,f,there,same⟩
      rcases cell_put_cases there with ⟨rfl,rfl⟩ | ⟨_,before⟩
      · exact ⟨_,e,here,same⟩
      · exact ⟨i,f,before,same⟩
    · rintro ⟨i,f,there,same⟩
      by_cases spot : h.index = i
      · subst spot
        rw [here] at there
        cases there
        exact ⟨_,_,cell_put_self _ inside _,same⟩
      · exact ⟨i,f,(cell_assign_ne _ spot _).trans there,same⟩
  · rfl

theorem generation_of_lookup (looked : t.lookup h = .ok found) : t.generations h.index = h.generation := by
  unfold lookup at looked
  split at looked
  · rename_i there
    unfold entry at there
    split at there
    · rename_i valid
      exact valid.2
    · cases there
  · cases looked

theorem lookup_vacate (other : h.index ≠ index) : (t.vacate index).lookup h = t.lookup h := by
  unfold lookup entry vacate
  simp [Function.update_of_ne other, Slots.clear, cell_assign_ne _ (Ne.symm other)]

theorem shareNarrowed_vacate (other : h.index ≠ index) (narrowed : Rights) :
    (t.vacate index).shareNarrowed h narrowed = t.shareNarrowed h narrowed := by
  unfold shareNarrowed
  rw [lookup_vacate other]

theorem takeNarrowed_of_share (allowed : t.shareNarrowed h narrowed = .ok found) :
    t.takeNarrowed h narrowed = (.ok found, t.vacate h.index) ∧ ∃ held, t.lookup h = .ok (found.1, held) := by
  refine ⟨by rw [takeNarrowed_eq, allowed]; rfl,?_⟩
  unfold shareNarrowed at allowed
  split at allowed
  · cases allowed
  rename_i held looked
  split at allowed
  · cases allowed
    exact ⟨held,looked⟩
  · cases allowed

section
variable (t : HandleTable cfg)

theorem cell_vacate (index j : Nat) : (t.vacate index).slots.cell j = if j = index then none else t.slots.cell j := by
  rw [vacate, Slots.cell_clear]
  simp only [eq_comm]

theorem generations_vacate (other : j ≠ index) : (t.vacate index).generations j = t.generations j := by
  simp [vacate, other]

theorem cell_vacateAll (indices : List Nat) (j : Nat) :
    (indices.foldl vacate t).slots.cell j = if j ∈ indices then none else t.slots.cell j := by
  simpa using foldl_cleared (g := (·.slots.cell j)) (fun t index => cell_vacate (t := t) index j) indices t

theorem reclaimSlots_eq (wanted : List ObjectId) (room : Nat) (once : indices.Nodup) :
    t.reclaimSlots wanted room indices = (((indices.filter (t.names wanted)).take room).filterMap t.slots.cell,
        ((indices.filter (t.names wanted)).take room).foldl vacate t) := by
  induction indices generalizing t room with
  | nil => cases room <;> rfl
  | cons index rest ih =>
    cases room with
    | zero => rfl
    | succ room =>
      rw [nodup_cons] at once
      unfold reclaimSlots
      split
      · rename_i empty
        rw [ih _ _ once.2, filter_cons_of_neg (by simp [names, empty])]
      rename_i here
      split
      · rename_i matching
        have same : rest.filter ((t.vacate index).names wanted) = rest.filter (t.names wanted) := by
          refine filter_congr fun j later => ?_
          have other : j ≠ index := ne_of_mem_of_not_mem later once.1
          rw [names, cell_vacate, if_neg other, names]
        have taken : ((rest.filter (t.names wanted)).take room).filterMap (t.vacate index).slots.cell =
            ((rest.filter (t.names wanted)).take room).filterMap t.slots.cell := by
          refine filterMap_congr fun _ later => ?_
          have there := mem_of_mem_filter (mem_of_mem_take later)
          rw [cell_vacate, if_neg (ne_of_mem_of_not_mem there once.1)]
        rw [ih _ _ once.2, same, taken, filter_cons_of_pos (by simpa [names, here] using matching)]
        simp [here]
      · rename_i other
        rw [ih _ _ once.2, filter_cons_of_neg (by simpa [names, here] using other)]

theorem reclaim_eq (wanted : List ObjectId) (room : Nat) :
    t.reclaim wanted room = (((t.slotsNaming wanted).take room).filterMap t.slots.cell,
      ((t.slotsNaming wanted).take room).foldl vacate t) :=
  t.reclaimSlots_eq wanted room nodup_range

end

theorem mem_slotsNaming : i ∈ t.slotsNaming wanted ↔ ∃ e, t.slots.cell i = some e ∧ e.object ∈ wanted := by
  unfold slotsNaming names
  rw [mem_filter, mem_range]
  simp only [Option.any_eq_true, contains_eq_mem, decide_eq_true_eq]
  constructor
  · rintro ⟨_,found⟩
    exact found
  · rintro ⟨e,here,mem⟩
    exact ⟨lt_of_cell here,e,here,mem⟩

theorem slotsNaming_nodup (t : HandleTable cfg) (wanted : List ObjectId) : (t.slotsNaming wanted).Nodup :=
  nodup_range.filter _

theorem holds_iff_slotsNaming : t.holds o = true ↔ t.slotsNaming [o] ≠ [] := by
  rw [holds_iff, ← length_pos_iff_ne_nil, length_pos_iff_exists_mem]
  simp only [mem_slotsNaming, mem_singleton]

end HandleTable
end Tessera
