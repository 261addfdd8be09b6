import Mathlib.Data.List.Perm.Basic

/-!
Fixed pools of optional slots. A pool is scanned from its first cell: a new
value goes into the first empty cell and a search finds the first match.
Properties of a pool are stated cell by cell.
-/

structure Slots (α : Type) (cap : Nat) where
  cells : List (Option α)
  size : cells.length = cap
  deriving DecidableEq

namespace Slots
open List Option
variable {α : Type} {cap : Nat}

section
variable (s : Slots α cap) (p : α → Bool)

def empty : Slots α cap := ⟨List.replicate cap none, length_replicate⟩

def cell (i : Nat) : Option α := (s.cells[i]?).join

def free? : Option Nat := s.cells.findIdx? isNone

def index? : Option Nat := s.cells.findIdx? (·.any p)

def find? : Option α := (s.index? p).bind s.cell

def assign (i : Nat) (c : Option α) : Slots α cap :=
  ⟨s.cells.set i c, by simpa using s.size⟩

def put (i : Nat) (a : α) : Slots α cap := s.assign i (some a)

def clear (i : Nat) : Slots α cap := s.assign i none

/-- Changes the first match, as a mutable search does. -/
def modify (f : α → α) : Slots α cap :=
  match s.index? p with
  | some i => s.assign i ((s.cell i).map f)
  | none => s

def alter (i : Nat) (f : α → α) : Slots α cap := s.assign i ((s.cell i).map f)

def discard : Slots α cap :=
  ⟨s.cells.map fun c => c.filter fun a => !p a, by simpa using s.size⟩

def mapLive (f : α → α) : Slots α cap :=
  ⟨s.cells.map (·.map f), by simpa using s.size⟩

def vacancies : Nat := s.cells.countP isNone

def live : List α := s.cells.filterMap id

end

@[simp] theorem cell_empty (i : Nat) : (empty : Slots α cap).cell i = none := by
  by_cases h : i < cap <;> simp [cell, empty, h]

variable {i j : Nat} {s : Slots α cap} {a b : α} {f : α → α}

theorem cell_of_le (s : Slots α cap) (h : cap ≤ i) : s.cell i = none := by
  simp [cell, getElem?_eq_none (s.size ▸ h)]

theorem lt_of_cell (h : s.cell i = some a) : i < cap := by
  by_contra past
  rw [s.cell_of_le (Nat.not_lt.mp past)] at h
  cases h

theorem free?_eq_some (h : s.free? = some i) : i < cap ∧ s.cell i = none := by
  obtain ⟨inside,none,_⟩ := findIdx?_eq_some_iff_getElem.mp h
  refine ⟨s.size ▸ inside,?_⟩
  simpa [cell, getElem?_eq_getElem inside] using none

variable {p : α → Bool}

theorem index?_eq_some (h : s.index? p = some i) : ∃ a, s.cell i = some a ∧ p a = true := by
  obtain ⟨inside,found,_⟩ := findIdx?_eq_some_iff_getElem.mp h
  obtain ⟨a,ha,pa⟩ := (any_eq_true _ _).mp found
  exact ⟨a,by simp [cell, getElem?_eq_getElem inside, ha],pa⟩

theorem index?_eq_none : s.index? p = none ↔ ∀ i a, s.cell i = some a → p a = false := by
  rw [index?, findIdx?_eq_none_iff]
  constructor
  · intro h i a ha
    have mem : some a ∈ s.cells := by
      exact mem_of_getElem? (join_eq_some_iff.mp ha)
    simpa using h _ mem
  · intro h _ mem
    obtain ⟨i,inside,rfl⟩ := mem_iff_getElem.mp mem
    cases hc : s.cells[i] with
    | none => rfl
    | some a => exact h i a (by simp [cell, getElem?_eq_getElem inside, hc])

theorem find?_eq_some (h : s.find? p = some a) : p a = true ∧ ∃ i, s.index? p = some i ∧ s.cell i = some a := by
  obtain ⟨i,hi,ha⟩ := bind_eq_some_iff.mp h
  obtain ⟨_,hb,pb⟩ := index?_eq_some hi
  rw [ha] at hb
  cases hb
  exact ⟨pb,i,hi,ha⟩

theorem find?_eq_none : s.find? p = none ↔ ∀ i a, s.cell i = some a → p a = false := by
  rw [← index?_eq_none]
  cases h : s.index? p with
  | none => simp [find?, h]
  | some =>
    obtain ⟨_,ha,_⟩ := index?_eq_some h
    simp [find?, h, ha]

theorem mem_live : a ∈ s.live ↔ ∃ i, s.cell i = some a := by
  simp only [live, mem_filterMap, id_eq, exists_eq_right]
  constructor
  · intro mem
    obtain ⟨i,inside,same⟩ := mem_iff_getElem.mp mem
    exact ⟨i,by simp [cell, getElem?_eq_getElem inside, same]⟩
  · intro h
    obtain ⟨_,hi⟩ := h
    exact mem_of_getElem? (join_eq_some_iff.mp hi)

theorem live_put (inside : i < cap) (empty : s.cell i = none) (a : α) :
    ∃ before after, s.live = before ++ after ∧ (s.put i a).live = before ++ a :: after := by
  have bound : i < s.cells.length := s.size.symm ▸ inside
  have here : s.cells[i] = none := by
    simpa [cell, getElem?_eq_getElem bound] using empty
  refine ⟨(s.cells.take i).filterMap id,(s.cells.drop (i + 1)).filterMap id,?_,?_⟩
  · have whole := take_append_drop i s.cells
    rw [← getElem_cons_drop bound, here] at whole
    calc s.cells.filterMap id = (s.cells.take i ++ none :: s.cells.drop (i + 1)).filterMap id := by rw [whole]
      _ = _ := by rw [filterMap_append, filterMap_cons_none rfl]
  · rw [live, put, assign]
    dsimp only
    rw [set_eq_take_append_cons_drop, if_pos bound, filterMap_append]
    rfl

theorem live_put_perm (inside : i < cap) (empty : s.cell i = none) : (s.put i a).live.Perm (a :: s.live) := by
  obtain ⟨_,_,old,new⟩ := live_put inside empty a
  rw [old, new]
  exact perm_middle

theorem free?_eq_none : s.free? = none ↔ s.vacancies = 0 := by
  rw [free?, findIdx?_eq_none_iff, vacancies, countP_eq_zero]
  simp only [Bool.not_eq_true]

theorem cell_of_full (full : s.free? = none) (inside : i < cap) : ∃ a, s.cell i = some a := by
  have within : i < s.cells.length := s.size.symm ▸ inside
  have taken := findIdx?_eq_none_iff.mp full _ (getElem_mem within)
  obtain ⟨a,here⟩ := ne_none_iff_exists'.mp (isNone_eq_false_iff.mp taken |> isSome_iff_ne_none.mp)
  exact ⟨a,by rw [cell, getElem?_eq_getElem within, here]; rfl⟩

theorem vacancies_assign (inside : i < cap) (b : Option α) : (s.assign i b).vacancies +
      (if (s.cell i).isNone then 1 else 0) = s.vacancies + if b.isNone then 1 else 0 := by
  have within : i < s.cells.length := s.size.symm ▸ inside
  have here : s.cells[i] = s.cell i := by simp [cell, getElem?_eq_getElem within]
  have after := (set_perm_cons_eraseIdx within b).countP_eq isNone
  have before := (getElem_cons_eraseIdx_perm within).countP_eq isNone
  rw [here] at before
  simp only [countP_cons] at after before
  unfold vacancies assign
  dsimp only
  omega

theorem vacancies_put (inside : i < cap) (empty : s.cell i = none) (a : α) :
    (s.put i a).vacancies + 1 = s.vacancies := by
  simpa [put, empty] using vacancies_assign (s := s) inside (some a)

theorem vacancies_clear (here : s.cell i = some a) : (s.clear i).vacancies = s.vacancies + 1 := by
  simpa [clear, here] using vacancies_assign (s := s) (lt_of_cell here) none

theorem vacancies_replace (here : s.cell i = some a) (b : α) : (s.put i b).vacancies = s.vacancies := by
  simpa [put, here] using vacancies_assign (s := s) (lt_of_cell here) (some b)

theorem find?_eq_some_iff
    (unique : ∀ i j a b, s.cell i = some a → s.cell j = some b → p a = true → p b = true → i = j) :
    s.find? p = some a ↔ p a = true ∧ ∃ i, s.cell i = some a := by
  constructor
  · intro found
    obtain ⟨matching,i,_,here⟩ := find?_eq_some found
    exact ⟨matching,i,here⟩
  rintro ⟨matching,i,here⟩
  cases found : s.find? p with
  | none =>
    rw [find?_eq_none.mp found i a here] at matching
    cases matching
  | some b =>
    obtain ⟨also,j,_,there⟩ := find?_eq_some found
    have spot := unique i j a b here there matching also
    rw [spot, there] at here
    exact here

theorem getElem_of_cell (here : s.cell i = some a) : ∃ inside : i < s.cells.length, s.cells[i] = some a := by
  have inside : i < s.cells.length := s.size.symm ▸ lt_of_cell here
  exact ⟨inside,by simpa [cell, getElem?_eq_getElem inside] using here⟩

section
variable (s : Slots α cap)

theorem cell_assign (i j : Nat) (c : Option α) : (s.assign i c).cell j = if i = j ∧ i < cap then c else s.cell j := by
  by_cases same : i = j
  · subst same
    by_cases inside : i < cap
    · have : i < s.cells.length := s.size.symm ▸ inside
      simp [cell, assign, inside, this]
    · have : s.cells.length ≤ i := s.size.symm ▸ Nat.not_lt.mp inside
      simp [cell, assign, inside, this]
  · simp [cell, assign, same]

theorem cell_alter (i j : Nat) (f : α → α) : (s.alter i f).cell j = if i = j then (s.cell j).map f else s.cell j := by
  rw [alter, cell_assign]
  by_cases same : i = j
  · subst same
    by_cases inside : i < cap
    · simp [inside]
    · simp [s.cell_of_le (Nat.not_lt.mp inside)]
  · simp [same]

theorem cell_put_self (h : i < cap) (a : α) : (s.put i a).cell i = some a := by
  simp [put, cell_assign, h]

theorem cell_assign_ne (h : i ≠ j) (c : Option α) : (s.assign i c).cell j = s.cell j := by
  simp [cell_assign, h]

theorem cell_put_of_empty (empty : s.cell i = none) (there : s.cell j = some b) (a : α) :
    (s.put i a).cell j = some b := by
  rw [put, cell_assign_ne]
  · exact there
  · rintro rfl
    rw [empty] at there
    cases there

theorem cell_modify (p : α → Bool) (f : α → α) (j : Nat) :
    (s.modify p f).cell j = if s.index? p = some j then (s.cell j).map f else s.cell j := by
  unfold modify
  cases index : s.index? p with
  | none => simp
  | some i => simpa [alter] using s.cell_alter i j f

/-- What is read off every cell and not touched by a change is as it was. -/
theorem map_cells_modify {β : Type} {g : Option α → β} (keeps : ∀ a, g (some (f a)) = g (some a)) :
    (s.modify p f).cells.map g = s.cells.map g := by
  unfold modify
  split
  · rename_i i index
    obtain ⟨a,here,_⟩ := index?_eq_some index
    obtain ⟨inside,there⟩ := getElem_of_cell here
    have same : g (Option.map f (some a)) = (s.cells.map g).get ⟨i, by simpa using inside⟩ := by
      simp [there, keeps]
    rw [assign, map_set, here, same]
    exact set_getElem_self _
  · rfl

theorem index?_modify (keeps : ∀ a, q (f a) = q a) : (s.modify p f).index? q = s.index? q := by
  have byFlags (t : Slots α cap) : t.index? q = (t.cells.map (·.any q)).findIdx? id := by
    rw [findIdx?_map]
    rfl
  rw [byFlags, byFlags, map_cells_modify s keeps]

theorem find?_modify (keeps : ∀ a, q (f a) = q a) :
    (s.modify p f).find? q = if s.index? q = s.index? p then (s.find? q).map f else s.find? q := by
  unfold find?
  rw [index?_modify s keeps]
  cases index : s.index? q with
  | none => simp
  | some =>
    simp only [bind_some, cell_modify]
    split
    · rename_i same
      simp [same]
    · rename_i other
      rw [if_neg (fun same => other same.symm)]

/-- A change to the entry under one key, found again under any key. -/
theorem find?_modify_key {κ : Type} [DecidableEq κ] {k : α → κ} (keeps : ∀ a, k (f a) = k a) (x y : κ) :
    (s.modify (k · = x) f).find? (k · = y) =
      if y = x then (s.find? (k · = y)).map f else s.find? (k · = y) := by
  rw [find?_modify s fun a => by rw [keeps]]
  by_cases same : y = x
  · simp [same]
  rw [if_neg same]
  split
  · rename_i index
    -- both searches end at one place, so neither finds anything
    cases found : s.find? (k · = y) with
    | none => rfl
    | some =>
      obtain ⟨matching,_,spot,here⟩ := find?_eq_some found
      rw [spot] at index
      obtain ⟨_,there,also⟩ := index?_eq_some index.symm
      rw [here] at there
      cases there
      exact absurd ((of_decide_eq_true matching).symm.trans (of_decide_eq_true also)) same
  · rfl

theorem find?_eq_live (p : α → Bool) : s.find? p = s.live.find? p := by
  obtain ⟨cells,size⟩ := s
  unfold find? index? cell live
  dsimp only
  clear size
  induction cells with
  | nil => rfl
  | cons c rest ih =>
    cases c with
    | none =>
      rw [findIdx?_cons, any_none, if_neg Bool.false_ne_true, bind_map]
      exact ih
    | some a =>
      rw [findIdx?_cons, any_some]
      by_cases yes : p a = true
      · simp [yes]
      show _ = (a :: rest.filterMap id).find? p
      rw [if_neg yes, bind_map, find?_cons_of_neg yes]
      exact ih

theorem cell_clear (i j : Nat) : (s.clear i).cell j = if i = j then none else s.cell j := by
  rw [clear, cell_assign]
  by_cases same : i = j
  · subst same
    by_cases inside : i < cap
    · simp [inside]
    · simp [s.cell_of_le (Nat.not_lt.mp inside)]
  · simp [same]

theorem cell_discard (p : α → Bool) (i : Nat) : (s.discard p).cell i = (s.cell i).filter fun a => !p a := by
  unfold cell discard
  rw [getElem?_map]
  cases s.cells[i]? <;> rfl

@[simp] theorem cell_mapLive (f : α → α) (i : Nat) : (s.mapLive f).cell i = (s.cell i).map f := by
  unfold cell mapLive
  rw [getElem?_map]
  cases s.cells[i]? <;> rfl

theorem live_mapLive (f : α → α) : (s.mapLive f).live = s.live.map f := by
  unfold live mapLive
  rw [filterMap_map, map_filterMap]
  rfl

end

theorem cell_put_cases (h : (s.put i a).cell j = some b) : (i = j ∧ b = a) ∨ (i ≠ j ∧ s.cell j = some b) := by
  rw [put, cell_assign] at h
  by_cases same : i = j
  · subst same
    by_cases inside : i < cap
    · simp only [inside, and_self, if_true, some.injEq] at h
      exact .inl ⟨rfl,h.symm⟩
    · simp only [inside] at h
      exact absurd (lt_of_cell h) inside
  · simp only [same] at h
    exact .inr ⟨same,h⟩

theorem cell_clear_cases (h : (s.clear i).cell j = some b) : i ≠ j ∧ s.cell j = some b := by
  rw [clear, cell_assign] at h
  by_cases same : i = j
  · subst same
    by_cases inside : i < cap
    · simp [inside] at h
    · simp only [inside] at h
      exact absurd (lt_of_cell h) inside
  · simp only [same] at h
    exact ⟨same,h⟩

theorem cell_modify_cases (h : (s.modify p f).cell j = some b) :
    s.cell j = some b ∨ ∃ a, s.cell j = some a ∧ p a = true ∧ b = f a := by
  rw [cell_modify] at h
  split at h
  · rename_i index
    obtain ⟨a,here,yes⟩ := index?_eq_some index
    rw [here] at h
    exact .inr ⟨a,here,yes,(some.inj h).symm⟩
  · exact .inl h

theorem find?_put_other (inside : i < cap) (empty : s.cell i = none)
    (other : p a = false) : (s.put i a).find? p = s.find? p := by
  obtain ⟨_,_,old,new⟩ := live_put inside empty a
  rw [find?_eq_live, find?_eq_live, old, new]
  simp [other]

theorem find?_put_new (inside : i < cap) (empty : s.cell i = none)
    (yes : p a = true) (none : s.find? p = none) : (s.put i a).find? p = some a := by
  obtain ⟨_,_,old,new⟩ := live_put inside empty a
  rw [find?_eq_live, old, find?_append, or_eq_none_iff] at none
  rw [find?_eq_live, new, find?_append, none.1, none_or, find?_cons_of_pos yes]

theorem live_clear_perm (here : s.cell i = some a) : s.live.Perm (a :: (s.clear i).live) := by
  have inside := lt_of_cell here
  have emptied : (s.clear i).cell i = none := by rw [cell_clear, if_pos rfl]
  have back : (s.clear i).put i a = s := by
    obtain ⟨_,there⟩ := getElem_of_cell here
    obtain ⟨_,_⟩ := s
    simp only [put, clear, assign, set_set, mk.injEq]
    rw [← there, set_getElem_self]
  have perm := live_put_perm (a := a) inside emptied
  rwa [back] at perm

theorem live_modify_map {β : Type} (s : Slots α cap) (p : α → Bool) {g : α → β} (keeps : ∀ a, g (f a) = g a) :
    (s.modify p f).live.map g = s.live.map g := by
  have byCells (t : Slots α cap) : t.live.map g = (t.cells.map (Option.map g)).filterMap id := by
    rw [live, map_filterMap, filterMap_map]
    rfl
  rw [byCells, byCells, map_cells_modify s (g := Option.map g) fun a => congrArg some (keeps a)]

theorem cell_unique {β : Type} {g : α → β} (distinct : (s.live.map g).Nodup) (here : s.cell i = some a)
    (there : s.cell j = some b) (same : g a = g b) : i = j := by
  have apart : s.cells.Pairwise fun c d => ∀ x, c = some x → ∀ y, d = some y → g x ≠ g y := by
    rw [live, List.Nodup, pairwise_map, pairwise_filterMap] at distinct
    exact distinct
  obtain ⟨insideI,atI⟩ := getElem_of_cell here
  obtain ⟨insideJ,atJ⟩ := getElem_of_cell there
  rw [pairwise_iff_getElem] at apart
  rcases Nat.lt_trichotomy i j with before | equal | after
  · exact absurd same (apart i j insideI insideJ before a atI b atJ)
  · exact equal
  · exact absurd same.symm (apart j i insideJ insideI after b atJ a atI)

section
variable {r : α → α → Prop}

theorem rel_refl (refl : ∀ a, r a a) (c : Option α) : Option.Rel r c c := by
  cases c with
  | none => exact .none
  | some a => exact .some (refl a)

theorem rel_trans {x y z : Option α} (trans : ∀ {a b c}, r a b → r b c → r a c) (early : Option.Rel r x y)
    (late : Option.Rel r y z) : Option.Rel r x z := by
  cases early with
  | none => exact late
  | some one =>
    cases late with
    | some two => exact .some (trans one two)

end

/-- Steps that each clear an entry, one after the other. -/
theorem foldl_cleared {β γ ι : Type} {f : β → ι → β} {g : β → Option γ} {P : ι → Prop} [DecidablePred P]
    (step : ∀ t x, g (f t x) = if P x then none else g t) (l : List ι) (t : β) :
    g (l.foldl f t) = if ∃ x ∈ l, P x then none else g t := by
  induction l generalizing t with
  | nil => simp
  | cons x rest ih =>
    rw [foldl_cons, ih, step]
    by_cases here : P x <;> simp [here]

end Slots
