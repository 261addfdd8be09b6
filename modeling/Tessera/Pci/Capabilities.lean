import Mathlib.Data.List.Nodup

/-!
The walk over a PCI function's capability list (`drivers/pci`), and the loop of its callers
that hands each offset found back to it. `read` is what the function's registers answer, the
same at every call.
-/
namespace Tessera.Pci
open List

inductive Error where
  | outsideEcam | malformedCapabilityList
deriving DecidableEq

def maxCapabilities : Nat := 48

section
variable (read : Nat → Except Error Nat) (id : Nat)

/-- The loop over the links, of which so many may still be met. -/
def walk (previous : Option Nat) : (left : Nat) → (skipping : Bool) → (offset : Nat) → Except Error (Option Nat)
  | left, skipping, offset =>
    if offset = 0 then .ok none
    else if ¬(0x40 ≤ offset ∧ offset < 0x100) then .error .malformedCapabilityList
    else
      match left with
      | 0 => .error .malformedCapabilityList
      | left + 1 =>
        match read offset with
        | .error e => .error e
        | .ok header =>
          if skipping then walk previous left (some offset ≠ previous) (header >>> 8 &&& 0xfc)
          else if header % 256 = id then .ok (some offset)
          else walk previous left false (header >>> 8 &&& 0xfc)

/-- Where the list begins: at 0, where the loop ends, when the function has none. -/
def listHead : Except Error Nat := do
  let status ← read 0x04
  if status >>> 16 &&& 16 = 0 then return 0
  let pointer ← read 0x34
  return pointer &&& 0xfc

def findCapabilityFrom (previous : Option Nat) : Except Error (Option Nat) := do
  walk read id previous maxCapabilities previous.isSome (← listHead read)

/-- The callers' loop: the offsets found in so many calls, and how it ended, if it did. -/
def collect : (calls : Nat) → (previous : Option Nat) → List Nat × Option (Except Error Unit)
  | 0, _ => ([], none)
  | calls + 1, previous =>
    match findCapabilityFrom read id previous with
    | .ok (some offset) => (collect calls (some offset)).map (offset :: ·) fun ended => ended
    | .ok none => ([], some (.ok ()))
    | .error e => ([], some (.error e))

/-- The links there are to meet, and how the list ends. -/
def links : (left : Nat) → (start : Except Error Nat) → List Nat × Except Error Unit
  | _, .error e => ([], .error e)
  | left, .ok offset =>
    if offset = 0 then ([], .ok ())
    else if ¬(0x40 ≤ offset ∧ offset < 0x100) then ([], .error .malformedCapabilityList)
    else
      match left with
      | 0 => ([], .error .malformedCapabilityList)
      | left + 1 => (links left ((read offset).map (· >>> 8 &&& 0xfc))).map (offset :: ·) fun ended => ended

def marked (offsets : List Nat) : List Nat :=
  offsets.filter fun offset => (read offset).toOption.any (· % 256 = id)

/-- The first link with the id, or else how the list ends. -/
def answer (ended : Except Error Unit) (offsets : List Nat) : Except Error (Option Nat) :=
  match (marked read id offsets).head? with
  | some offset => .ok (some offset)
  | none => ended.map fun _ => none
end

variable {read : Nat → Except Error Nat} {id left p : Nat} {start : Except Error Nat} {rest front : List Nat}

theorem links_length (left : Nat) (start : Except Error Nat) : (links read left start).1.length ≤ left := by
  fun_induction links <;> simp_all

theorem links_endless (endless : (links read (left + 1) start).1.length = left + 1) :
    (links read left start).2 = .error .malformedCapabilityList := by
  fun_induction links <;> rw [links] at endless <;> simp_all

theorem walk_unskipped (previous : Option Nat) (start : Except Error Nat) :
    start >>= walk read id previous left false = answer read id (links read left start).2 (links read left start).1 := by
  fun_induction links with
  | case5 offset =>
    cases answered : read offset with
    | error e => simp_all [walk, answer, marked, links, bind, Except.bind, Except.map, Except.toOption]
    | ok header =>
      by_cases carries : header % 256 = id <;>
        simp_all [walk, answer, marked, bind, Except.bind, Except.map, Except.toOption]
  | _ => simp_all [walk.eq_def, answer, marked, bind, Except.bind, Except.map]

theorem walk_behind (met : (links read left start).1 = front ++ p :: rest) (fresh : p ∉ front) :
    start >>= walk read id (some p) left true = answer read id (links read left start).2 rest := by
  fun_induction links generalizing front with
  | case5 offset zero inside left ih =>
    show walk read id (some p) (left + 1) true offset = _
    rw [walk, if_neg zero, if_neg inside]
    cases front with
    | nil =>
      obtain ⟨rfl, rfl⟩ := cons.inj met
      rw [Prod.map_snd, ← walk_unskipped (some offset)]
      cases read offset <;> simp <;> rfl
    | cons l front =>
      obtain ⟨rfl, later⟩ := cons.inj met
      rw [mem_cons, not_or] at fresh
      rw [Prod.map_snd, ← ih later fresh.2]
      cases read offset <;> simp [Ne.symm fresh.1] <;> rfl
  | _ => simp at met

/-- Each call goes on behind the link the last one found, so the loop finds the links with the id in their order. -/
theorem collect_eq {calls : Nat} {previous : Option Nat} {all : List Nat} {ended : Except Error Unit}
    (caps : links read maxCapabilities (listHead read) = (all, ended)) (distinct : (marked read id all).Nodup)
    (whole : all = front ++ rest) (behind : findCapabilityFrom read id previous = answer read id ended rest)
    (enough : (marked read id rest).length < calls) :
    collect read id calls previous = (marked read id rest, some ended) := by
  induction calls generalizing front rest previous with
  | zero => simp at enough
  | succ calls ih =>
    rw [collect, behind, answer]
    cases found : marked read id rest with
    | nil => cases ended <;> rfl
    | cons offset later =>
      obtain ⟨before, after, rfl, -, carries, rfl⟩ := filter_eq_cons_iff.mp found
      rw [← append_assoc] at whole
      have fresh : offset ∉ front ++ before := by
        intro earlier
        rw [whole, marked, filter_append] at distinct
        exact disjoint_of_nodup_append distinct (mem_filter.mpr ⟨earlier, carries⟩)
          (mem_filter.mpr ⟨mem_cons_self, carries⟩)
      have next : findCapabilityFrom read id (some offset) = _ := walk_behind ((congrArg _ caps).trans whole) fresh
      rw [caps] at next
      rw [found] at enough
      simp only [head?_cons, ih (whole.trans (append_cons ..)) next (Nat.lt_of_succ_lt_succ enough)]
      rfl

/-- As long as nothing is found again, what is found is the links with the id, as far as the loop gets. -/
theorem collect_marked {calls : Nat} {previous : Option Nat} {all found : List Nat} {ended : Except Error Unit}
    (caps : links read maxCapabilities (listHead read) = (all, ended)) (whole : all = front ++ rest)
    (behind : findCapabilityFrom read id previous = answer read id ended rest)
    (done : collect read id calls previous = (found, some e)) (once : (marked read id front ++ found).Nodup) :
    found = marked read id rest := by
  induction calls generalizing front rest previous found with
  | zero => cases done
  | succ calls ih =>
    rw [collect, behind, answer] at done
    cases first : marked read id rest with
    | nil =>
      rw [first] at done
      cases ended <;> cases done <;> rfl
    | cons offset later =>
      obtain ⟨before, after, rfl, none, carries, rfl⟩ := filter_eq_cons_iff.mp first
      rw [first] at done
      obtain ⟨rfl, last⟩ := Prod.mk.inj done
      rw [← append_assoc] at whole
      have fresh : offset ∉ front ++ before := by
        intro earlier
        rcases mem_append.mp earlier with old | passed
        · exact disjoint_of_nodup_append once (mem_filter.mpr ⟨old, carries⟩) mem_cons_self
        · exact none offset passed carries
      have next : findCapabilityFrom read id (some offset) = _ := walk_behind ((congrArg _ caps).trans whole) fresh
      rw [caps] at next
      have skipped : marked read id (front ++ before ++ [offset]) = marked read id front ++ [offset] := by
        simp [marked, filter_eq_nil_iff.mpr none, carries]
      exact congrArg (offset :: ·) (ih (whole.trans (append_cons ..)) next (Prod.ext rfl last)
        (by rwa [skipped, append_assoc]))

/-- Callers that loop until nothing is found come to an end, and meet each link with the id once, exactly if
a walk meets no such link twice; and a list that can be followed for ever then ends the loop in the error. -/
theorem capability_loop_ends_iff (read : Nat → Except Error Nat) (id : Nat) :
    (∃ found ended, collect read id (maxCapabilities + 1) none = (found, some ended) ∧ found.Nodup ∧
      found.length ≤ maxCapabilities ∧ ((∀ left, (links read left (listHead read)).1.length = left) →
        ended = .error .malformedCapabilityList)) ↔
      (marked read id (links read maxCapabilities (listHead read)).1).Nodup := by
  constructor
  · rintro ⟨found, _, finds, once, _⟩
    rwa [← collect_marked rfl (nil_append _).symm (walk_unskipped ..) finds once]
  · intro distinct
    have few : (marked read id (links read maxCapabilities (listHead read)).1).length ≤ maxCapabilities :=
      Nat.le_trans (length_filter_le ..) (links_length ..)
    exact ⟨_, _, collect_eq rfl distinct (nil_append _).symm (walk_unskipped ..) (Nat.lt_succ_of_le few), distinct, few,
      fun endless => links_endless (endless _)⟩

def registers (contents : List (Nat × Nat)) (offset : Nat) : Except Error Nat :=
  .ok ((contents.lookup offset).getD 0)

def selfLinked : Nat → Except Error Nat := registers [(0x04, 0x100000), (0x34, 0x40), (0x40, 0x4009)]

/-- A capability that links to itself is found again by every call. -/
theorem self_linked_found_forever : listHead selfLinked = .ok 0x40 ∧
    ∀ calls, collect selfLinked 9 calls none = (replicate calls 0x40, none) := by
  have loop (calls : Nat) : ∀ previous ∈ [none, some 0x40],
      collect selfLinked 9 calls previous = (replicate calls 0x40, none) := by
    induction calls with
    | zero => exact fun _ _ => rfl
    | succ calls ih =>
      intro previous asked
      have found : ∀ p ∈ [none, some 0x40], findCapabilityFrom selfLinked 9 p = .ok (some 0x40) := by decide
      simp [collect, found previous asked, ih, replicate_succ]
  exact ⟨by decide, fun calls => loop calls none (by simp)⟩

end Tessera.Pci
