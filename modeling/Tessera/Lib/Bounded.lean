import Mathlib.Data.List.Infix
import Mathlib.Algebra.BigOperators.Group.List.Basic
import Mathlib.Algebra.GroupWithZero.Nat

/-!
Fixed-capacity arrays with a length, as kernels keep them in place of growing
containers. The capacity bound is a field, so an overfull table cannot be
built. Items stand in array order; a push writes behind the last of them.
-/

structure Bounded (α : Type) (cap : Nat) where
  items : List α
  fits : items.length ≤ cap
  deriving DecidableEq

namespace Bounded
open List
variable {α : Type} {cap : Nat}

def empty : Bounded α cap := ⟨[], Nat.zero_le cap⟩

theorem push_fits {b : Bounded α cap} {a : α} (h : b.items.length < cap) : (b.items ++ [a]).length ≤ cap := by
  simp; omega

def push (b : Bounded α cap) (a : α) : Option (Bounded α cap) :=
  if h : b.items.length < cap then some ⟨b.items ++ [a], push_fits h⟩ else none

def pop (b : Bounded α cap) : Option (α × Bounded α cap) :=
  match b.items.getLast? with
  | none => none
  | some a => some (a, ⟨b.items.dropLast, by have := b.fits; simp; omega⟩)

def set (b : Bounded α cap) (i : Nat) (a : α) : Bounded α cap :=
  ⟨b.items.set i a, by simpa using b.fits⟩

/-- Removal by moving the last item into the vacated place. -/
def swapRemove (b : Bounded α cap) (i : Nat) : Bounded α cap :=
  match b.items.getLast? with
  | none => b
  | some last => ⟨(b.items.set i last).dropLast, by have := b.fits; simp; omega⟩

@[simp] theorem set_items (b : Bounded α cap) (i : Nat) (a : α) : (b.set i a).items = b.items.set i a := rfl

variable {b b' : Bounded α cap} {a : α} {i : Nat}

theorem push_eq_some : b.push a = some b' ↔ b.items.length < cap ∧ b'.items = b.items ++ [a] := by
  unfold push
  split
  · rename_i room
    constructor
    · rintro ⟨⟩
      exact ⟨room,rfl⟩
    · cases b'
      simp_all
  · rename_i full
    simp [full]

theorem push_eq_none : b.push a = none ↔ b.items.length = cap := by
  have := b.fits
  unfold push
  split <;> simp <;> omega

theorem pop_eq_some : b.pop = some (a, b') ↔ b.items = b'.items ++ [a] := by
  unfold pop
  split
  · rename_i h
    rw [getLast?_eq_none_iff] at h
    simp [h]
  rename_i h
  obtain ⟨_,hinit⟩ := getLast?_eq_some_iff.mp h
  constructor
  · rintro ⟨⟩
    simp [hinit]
  · cases b'
    simp_all

theorem pop_eq_none : b.pop = none ↔ b.items = [] := by
  unfold pop
  split
  · rename_i h
    simpa using h
  rename_i h
  simp only [reduceCtorEq, false_iff]
  rintro empty
  simp [empty] at h

theorem swapRemove_perm (b : Bounded α cap) (h : i < b.items.length) :
    (b.swapRemove i).items.Perm (b.items.eraseIdx i) := by
  unfold swapRemove
  split
  · simp_all
  rename_i last hlast
  obtain ⟨init,hinit⟩ := getLast?_eq_some_iff.mp hlast
  simp only [hinit] at h ⊢
  by_cases inside : i < init.length
  · rw [set_append_left _ _ inside, dropLast_concat, eraseIdx_append_of_lt_length inside]
    exact (set_perm_cons_eraseIdx inside last).trans (perm_append_singleton _ _).symm
  have at_end : i = init.length := by
    simp at h
    omega
  subst at_end
  simp [eraseIdx_append_of_length_le]

theorem sum_set (weight : α → Nat) (b : Bounded α cap) (h : i < b.items.length) (a : α) :
    ((b.set i a).items.map weight).sum + weight b.items[i] = (b.items.map weight).sum + weight a := by
  have after := ((set_perm_cons_eraseIdx h a).map weight).sum_eq
  have before := ((getElem_cons_eraseIdx_perm h).map weight).sum_eq
  simp only [map_cons, sum_cons, set_items] at after before ⊢
  omega

theorem sum_swapRemove (weight : α → Nat) (b : Bounded α cap) (h : i < b.items.length) :
    ((b.swapRemove i).items.map weight).sum + weight b.items[i] = (b.items.map weight).sum := by
  have after := ((b.swapRemove_perm h).map weight).sum_eq
  have before := ((getElem_cons_eraseIdx_perm h).map weight).sum_eq
  simp only [map_cons, sum_cons] at after before
  omega

end Bounded
