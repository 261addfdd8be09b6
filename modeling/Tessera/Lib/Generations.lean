import Mathlib.Algebra.Group.Nat.Defs
import Tessera.Lib.Slots

/-!
Slots with generations. A name is a slot and the generation the slot had when the name
was made; it is good while the slot is occupied in that generation. Where no counter comes
round, a generation never goes back and emptying a slot begins a new one, so a name that
has gone bad stays bad.
-/
structure Generations where
  generation : Nat → Nat
  occupied : Nat → Prop

namespace Generations
open Function
variable {s t u : Generations} {i g : Nat}

def Good (s : Generations) (i g : Nat) : Prop := s.occupied i ∧ s.generation i = g

def Ages (s t : Generations) : Prop :=
  ∀ i, t.generation i = s.generation i ∧ (s.occupied i → t.occupied i) ∨ s.generation i < t.generation i

theorem Ages.refl (s : Generations) : s.Ages s := fun _ => .inl ⟨rfl,id⟩

theorem Ages.trans (first : s.Ages t) (second : t.Ages u) : s.Ages u := by
  intro i
  rcases first i with ⟨same,stays⟩ | older
  · rcases second i with ⟨same',stays'⟩ | older'
    · exact .inl ⟨same'.trans same,fun occupied => stays' (stays occupied)⟩
    · exact .inr (same ▸ older')
  · rcases second i with ⟨same',_⟩ | older'
    · exact .inr (same' ▸ older)
    · omega

theorem Ages.stays_bad (first : s.Ages t) (second : t.Ages u) (good : s.Good i g) (bad : ¬t.Good i g) :
    ¬u.Good i g := by
  obtain ⟨occupied,rfl⟩ := good
  rcases first i with ⟨same,stays⟩ | _
  · exact absurd ⟨stays occupied,same⟩ bad
  rintro ⟨_,_⟩
  rcases second i with ⟨_,_⟩ | _ <;> omega

section
variable {α : Type} {cap : Nat} (slots : Slots α cap) (generations : Nat → Nat)

def ofSlots : Generations := ⟨generations, fun i => (slots.cell i).isSome = true⟩

theorem ages_put (i : Nat) (a : α) : (ofSlots slots generations).Ages (ofSlots (slots.put i a) generations) := by
  refine fun j => .inl ⟨rfl,fun (occupied : (slots.cell j).isSome = true) => ?_⟩
  show ((slots.put i a).cell j).isSome = true
  rw [Slots.put, Slots.cell_assign]
  split
  · rfl
  · exact occupied

theorem ages_clear {i : Nat} (more : generations i + 1 < 2 ^ 16) : (ofSlots slots generations).Ages
      (ofSlots (slots.clear i) (update generations i ((generations i + 1) % 2 ^ 16))) := by
  intro j
  by_cases same : j = i
  · subst same
    right
    show generations j < update generations j _ j
    rw [update_self, Nat.mod_eq_of_lt more]
    omega
  · refine .inl ⟨update_of_ne same _ _,fun (occupied : (slots.cell j).isSome = true) => ?_⟩
    show ((slots.clear i).cell j).isSome = true
    rw [Slots.clear, Slots.cell_assign_ne _ (Ne.symm same)]
    exact occupied

end
end Generations
