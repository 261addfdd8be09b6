import Mathlib.Data.List.Nodup
import Mathlib.Data.List.Count

/-!
How often a partial assignment of values to keys takes a value, as a bound that
needs no finiteness of the keys: no list of different keys with the value is longer.
Giving a key a value or taking it away moves the bound by one, and the bounds of two
disjoint groups of keys add up.
-/
namespace Tally
open List
variable {κ ι φ : Type}

def AtMost (value : κ → Option φ) (f : φ) (n : Nat) : Prop :=
  ∀ keys : List κ, keys.Nodup → (∀ k ∈ keys, value k = some f) → keys.length ≤ n

variable {value value' : κ → Option φ} {f : φ} {n m : Nat}

theorem AtMost.gain [DecidableEq κ] (most : AtMost value f n) (k : κ)
    (others : ∀ j, j ≠ k → value' j = some f → value j = some f) : AtMost value' f (n + 1) := by
  intro keys distinct all
  have shorter := most (keys.erase k) (distinct.erase k) (by
    intro j mem
    have apart := (List.Nodup.mem_erase_iff distinct).mp mem
    exact others j apart.1 (all j apart.2))
  have := le_length_erase (a := k) (l := keys)
  omega

theorem AtMost.unique [DecidableEq κ] (most : AtMost value f 1) (first : value j = some f)
    (second : value k = some f) : j = k := by
  by_contra apart
  have two := most [j, k] (by simp [apart]) (by
    intro _ mem
    rcases mem_cons.mp mem with rfl | later
    · exact first
    · rw [mem_singleton.mp later]
      exact second)
  simp at two

section
variable (most : AtMost value f n)
include most

theorem AtMost.mono (le : n ≤ m) : AtMost value f m :=
  fun keys distinct all => Nat.le_trans (most keys distinct all) le

theorem AtMost.fewer (fewer : ∀ k, value' k = some f → value k = some f) : AtMost value' f n :=
  fun keys distinct all => most keys distinct fun k mem => fewer k (all k mem)

theorem AtMost.pos (here : value k = some f) : 0 < n := by
  exact most [k] (nodup_singleton k) (by simpa using here)

theorem AtMost.lose (had : value k = some f) (lost : value' k ≠ some f)
    (fewer : ∀ j, value' j = some f → value j = some f) : AtMost value' f (n - 1) := by
  intro keys distinct all
  have fresh : k ∉ keys := fun mem => lost (all k mem)
  have longer := most (k :: keys) (nodup_cons.mpr ⟨fresh,distinct⟩) (by
    intro j mem
    rcases mem_cons.mp mem with rfl | later
    · exact had
    · exact fewer j (all j later))
  rw [length_cons] at longer
  omega

theorem exists_tight : ∃ keys : List κ, keys.Nodup ∧ (∀ k ∈ keys, value k = some f) ∧ AtMost value f keys.length := by
  induction n with
  | zero =>
    refine ⟨[],nodup_nil,by simp,most⟩
  | succ n ih =>
    by_cases smaller : AtMost value f n
    · exact ih smaller
    simp only [AtMost, not_forall] at smaller
    obtain ⟨keys,distinct,all,_⟩ := smaller
    refine ⟨keys,distinct,all,most.mono ?_⟩
    omega

theorem AtMost.split (side : κ → Prop) [DecidablePred side] :
    ∃ a b, AtMost (fun k => if side k then value k else none) f a ∧
      AtMost (fun k => if side k then none else value k) f b ∧ a + b ≤ n := by
  have left : AtMost (fun k => if side k then value k else none) f n := by
    refine most.fewer fun k h => ?_
    split at h
    · exact h
    · cases h
  have right : AtMost (fun k => if side k then none else value k) f n := by
    refine most.fewer fun k h => ?_
    split at h
    · cases h
    · exact h
  obtain ⟨ls,ld,la,lt⟩ := exists_tight left
  obtain ⟨rs,rd,ra,rt⟩ := exists_tight right
  have inside : ∀ k ∈ ls, side k ∧ value k = some f := by
    intro k mem
    have h := la k mem
    split at h
    · rename_i own
      exact ⟨own,h⟩
    · cases h
  have outside : ∀ k ∈ rs, ¬side k ∧ value k = some f := by
    intro k mem
    have h := ra k mem
    split at h
    · cases h
    · rename_i other
      exact ⟨other,h⟩
  refine ⟨ls.length,rs.length,lt,rt,?_⟩
  have both := most (ls ++ rs) (nodup_append'.mpr ⟨ld,rd,fun k first second =>
    (outside k second).1 (inside k first).1⟩) (by
      intro k mem
      rcases mem_append.mp mem with first | second
      · exact (inside k first).2
      · exact (outside k second).2)
  rw [length_append] at both
  exact both

end

theorem AtMost.join (side : κ → Prop) [DecidablePred side]
    (left : AtMost (fun k => if side k then value k else none) f n)
    (right : AtMost (fun k => if side k then none else value k) f m) : AtMost value f (n + m) := by
  intro keys distinct all
  have first := left (keys.filter side) (distinct.filter _) (by
    intro k mem
    obtain ⟨inside,own⟩ := mem_filter.mp mem
    dsimp only
    rw [if_pos (of_decide_eq_true own)]
    exact all k inside)
  have second := right (keys.filter fun k => ¬side k) (distinct.filter _) (by
    intro k mem
    obtain ⟨inside,other⟩ := mem_filter.mp mem
    dsimp only
    rw [if_neg (of_decide_eq_true other)]
    exact all k inside)
  have whole : keys.length = (keys.filter side).length + (keys.filter fun k => ¬side k).length := by
    rw [length_eq_length_filter_add (l := keys) (fun k => decide (side k))]
    congr 2
    exact filter_congr fun k _ => by simp
  omega

theorem AtMost.rename {value : ι → Option φ} (most : AtMost value' f n) (e : ι → κ)
    (injective : ∀ i j, value i = some f → value j = some f → e i = e j → i = j)
    (same : ∀ i, value i = some f → value' (e i) = some f) : AtMost value f n := by
  intro keys distinct all
  have distinct' := distinct.map_on fun i first j second => injective i j (all i first) (all j second)
  have renamed := most (keys.map e) distinct' (by
    intro _ mem
    obtain ⟨i,inside,rfl⟩ := mem_map.mp mem
    exact same i (all i inside))
  rwa [length_map] at renamed

section
variable [DecidableEq φ]

def places (l : List φ) (f : φ) : List Nat := (List.range l.length).filter fun i => l[i]? = some f

theorem places_length (l : List φ) (f : φ) : (places l f).length = l.count f := by
  unfold places
  induction l with
  | nil => rfl
  | cons x rest ih =>
    rw [length_cons, range_succ_eq_map, filter_cons]
    have later : ((List.range rest.length).map Nat.succ).filter (fun i => decide ((x :: rest)[i]? = some f)) =
        ((List.range rest.length).filter fun i => rest[i]? = some f).map Nat.succ := by
      rw [filter_map]
      rfl
    rw [later]
    by_cases same : x = f
    · simp [same, ih]
    · simp [same, ih]

theorem mem_places : i ∈ places l f ↔ l[i]? = some f := by
  unfold places
  rw [mem_filter, mem_range, decide_eq_true_iff]
  refine ⟨And.right,fun here => ⟨?_,here⟩⟩
  exact (List.getElem?_eq_some_iff.mp here).1

theorem places_nodup (l : List φ) (f : φ) : (places l f).Nodup := nodup_range.filter _

theorem atMost_getElem (l : List φ) (f : φ) : AtMost (fun i : Nat => l[i]?) f (l.count f) := by
  intro _ distinct all
  rw [← places_length]
  exact distinct.length_le_of_subset fun i mem => mem_places.mpr (all i mem)

theorem count_le {l : List φ} (most : AtMost (fun i : Nat => l[i]?) f n) : l.count f ≤ n := by
  rw [← places_length]
  exact most (places l f) (places_nodup l f) fun i mem => mem_places.mp mem

end
def Exactly (value : κ → Option φ) (f : φ) (n : Nat) : Prop :=
  ∃ keys : List κ, keys.Nodup ∧ keys.length = n ∧ ∀ k, k ∈ keys ↔ value k = some f

theorem exactly_zero (none : ∀ k, value k ≠ some f) : Exactly value f 0 :=
  ⟨[],nodup_nil,rfl,fun k => ⟨nofun,fun here => absurd here (none k)⟩⟩

section
variable (exactly : Exactly value f n)
include exactly

theorem Exactly.eq_zero (none : ∀ k, value k ≠ some f) : n = 0 := by
  obtain ⟨_,_,rfl,all⟩ := exactly
  refine length_eq_zero_iff.mpr (eq_nil_iff_forall_not_mem.mpr fun k mem => ?_)
  exact none k ((all k).mp mem)

theorem Exactly.congr (same : ∀ k, value' k = some f ↔ value k = some f) : Exactly value' f n := by
  obtain ⟨keys,distinct,length,all⟩ := exactly
  exact ⟨keys,distinct,length,fun k => (all k).trans (same k).symm⟩

theorem Exactly.gain (before : value k ≠ some f) (after : value' k = some f)
    (others : ∀ j, j ≠ k → value' j = value j) : Exactly value' f (n + 1) := by
  obtain ⟨keys,distinct,rfl,all⟩ := exactly
  refine ⟨k :: keys,nodup_cons.mpr ⟨fun mem => before ((all k).mp mem),distinct⟩,rfl,fun j => ?_⟩
  rw [mem_cons]
  by_cases same : j = k
  · subst same
    simp [after]
  · rw [others j same, ← all j]
    exact or_iff_right same

end

theorem Exactly.lose [DecidableEq κ] (exactly : Exactly value f n) (before : value k = some f)
    (after : value' k ≠ some f) (others : ∀ j, j ≠ k → value' j = value j) : ∃ m, n = m + 1 ∧ Exactly value' f m := by
  obtain ⟨keys,distinct,rfl,all⟩ := exactly
  have mem := (all k).mpr before
  refine ⟨keys.length - 1,?_,keys.erase k,distinct.erase k,length_erase_of_mem mem,fun j => ?_⟩
  · have := length_pos_of_mem mem
    omega
  rw [distinct.mem_erase_iff]
  by_cases same : j = k
  · subst same
    simp [after]
  · rw [others j same, ← all j]
    exact and_iff_right same

end Tally
