import Tessera.Exec.Preemption
import Tessera.Exec.RunQueue

/-!
The ready queue of a scheduler as the array the kernel keeps it in: entries from the head
on, around the end of the array. The entry to run is taken from the middle, and those
behind it then move up one by one. The list model of the scheduler gives the same answers.
-/
namespace Tessera
open Function List
variable {C : Type} {cfg : Config}

structure RunQueue (cfg : Config) where
  slots : Nat → Nat
  head : Nat
  len : Nat
  fits : len ≤ cfg.maxThreads

namespace RunQueue

def new : RunQueue cfg := ⟨fun _ => 0, 0, 0, Nat.zero_le _⟩

section
variable (q : RunQueue cfg)

def place (i : Nat) : Nat := (q.head + i) % cfg.maxThreads

/-- What the array holds from the head on. -/
def entries : List Nat := (range q.len).map (q.slots ∘ q.place)

def push (idx : Nat) : Bool × RunQueue cfg :=
  if room : q.len < cfg.maxThreads then
    (true, { q with slots := update q.slots (q.place q.len) idx, len := q.len + 1, fits := room })
  else (false, q)

theorem kept_fits (idx : Nat) : (q.entries.filter (· ≠ idx)).length ≤ cfg.maxThreads :=
  (length_filter_le ..).trans (by simpa [entries] using q.fits)

/-- The entries kept are gathered and written back from the start of the array. -/
def remove (idx : Nat) : Bool × RunQueue cfg :=
  (q.entries.contains idx, ⟨fun i => (q.entries.filter (· ≠ idx)).getD i (q.slots i), 0, _, q.kept_fits idx⟩)

def at_ (pos : Nat) : Option Nat := if pos < q.len then some (q.slots (q.place pos)) else none

/-- The entry behind each place moves into it, for so many places. -/
def shift (slots : Nat → Nat) (i : Nat) : Nat → Nat → Nat
  | 0 => slots
  | n + 1 => shift (update slots (q.place i) (slots (q.place (i + 1)))) (i + 1) n

def shorter (slots : Nat → Nat) (head : Nat) : RunQueue cfg :=
  ⟨slots, head, q.len - 1, (Nat.sub_le ..).trans q.fits⟩

def takeAt (pos : Nat) : Option Nat × RunQueue cfg :=
  match q.at_ pos with
  | none => (none, q)
  | some taken =>
    (some taken, if pos = 0 then q.shorter q.slots ((q.head + 1) % cfg.maxThreads)
      else q.shorter (q.shift q.slots pos (q.len - 1 - pos)) q.head)

end

/-- The loop over the entries from a position on: each turn drops an entry or goes one further. -/
def scan (s : Scheduler C cfg) (q : RunQueue cfg) (pos : Nat) (best : Option (Nat × Nat)) :
    (turns : Nat) → RunQueue cfg × Option (Nat × Nat)
  | 0 => (q, best)
  | turns + 1 =>
    match q.at_ pos with
    | none => (q, best)
    | some idx =>
      if s.threadState idx ≠ some .ready then scan s (q.takeAt pos).2 pos best turns
      else if best.all (·.2 < (s.threadPriority idx).getD 0) then
        scan s q (pos + 1) (some (pos, (s.threadPriority idx).getD 0)) turns
      else scan s q (pos + 1) best turns

def popReady (q : RunQueue cfg) (s : Scheduler C cfg) : Option Nat × RunQueue cfg :=
  match scan s q 0 none q.len with
  | (q, none) => (none, q)
  | (q, some (at_, _)) => q.takeAt at_

variable {q : RunQueue cfg} {i j n pos : Nat} {slots : Nat → Nat}

@[simp] theorem entries_length (q : RunQueue cfg) : q.entries.length = q.len := by simp [entries]

theorem entries_getElem? (q : RunQueue cfg) (i : Nat) : q.entries[i]? = q.at_ i := by
  by_cases inside : i < q.len <;> simp [entries, at_, inside]

theorem place_ne (q : RunQueue cfg) (inside : i < cfg.maxThreads) (within : j < cfg.maxThreads) (apart : i ≠ j) :
    q.place i ≠ q.place j := by
  intro same
  have below : i % cfg.maxThreads = j % cfg.maxThreads := Nat.ModEq.add_left_cancel' q.head same
  rw [Nat.mod_eq_of_lt inside, Nat.mod_eq_of_lt within] at below
  exact apart below

theorem push_entries (idx : Nat) (room : q.len < cfg.maxThreads) : (q.push idx).2.entries = q.entries ++ [idx] := by
  refine ext_getElem? fun i => ?_
  rw [entries_getElem?, getElem?_append, entries_getElem?, push, dif_pos room, at_, at_, entries_length]
  dsimp only
  by_cases old : i < q.len
  · rw [if_pos (by omega), if_pos old, if_pos old]
    exact congrArg some (update_of_ne (q.place_ne (by omega) room (by omega)) _ _)
  · by_cases last : i = q.len
    · rw [last, if_pos (Nat.lt_succ_self _), if_neg (Nat.lt_irrefl _), Nat.sub_self]
      exact congrArg some (update_self ..)
    · rw [if_neg (by omega), if_neg old]
      exact (getElem?_eq_none (by simp; omega)).symm

theorem remove_entries (q : RunQueue cfg) (idx : Nat) : (q.remove idx).2.entries = q.entries.filter (· ≠ idx) := by
  refine ext_getElem? fun i => ?_
  have fits := q.kept_fits idx
  rw [entries_getElem?, at_]
  by_cases inside : i < (q.entries.filter (· ≠ idx)).length
  · have place : (q.remove idx).2.place i = i := by
      rw [place, show (q.remove idx).2.head = 0 from rfl, Nat.zero_add, Nat.mod_eq_of_lt (by omega)]
    rw [place]
    refine (if_pos inside).trans ?_
    dsimp only [remove]
    rw [getD_eq_getElem?_getD, getElem?_eq_getElem inside]
    rfl
  · rw [getElem?_eq_none (Nat.le_of_not_lt inside)]
    exact if_neg inside

theorem shift_eq (q : RunQueue cfg) (inside : i + n < cfg.maxThreads) (within : j < cfg.maxThreads) :
    q.shift slots i n (q.place j) = if i ≤ j ∧ j < i + n then slots (q.place (j + 1)) else slots (q.place j) := by
  induction n generalizing slots i with
  | zero => rw [shift, if_neg (by omega)]
  | succ n ih =>
    have here : i < cfg.maxThreads := by omega
    rw [shift, ih (by omega)]
    by_cases first : j = i
    · subst first
      rw [if_neg (by omega), if_pos (by omega), update_self]
    by_cases moved : i + 1 ≤ j ∧ j < i + 1 + n
    · rw [if_pos moved, if_pos (by omega), update_of_ne (q.place_ne (by omega) here (by omega))]
    · rw [if_neg moved, if_neg (by omega), update_of_ne (q.place_ne within here first)]

theorem erased_getElem? (q : RunQueue cfg) (pos i : Nat) :
    (q.entries.eraseIdx pos)[i]? = if i < pos then q.at_ i else q.at_ (i + 1) := by
  rw [getElem?_eraseIdx, entries_getElem?, entries_getElem?]

theorem front_entries (q : RunQueue cfg) :
    (q.shorter q.slots ((q.head + 1) % cfg.maxThreads)).entries = q.entries.eraseIdx 0 := by
  refine ext_getElem? fun i => ?_
  rw [entries_getElem?, erased_getElem?, if_neg (Nat.not_lt_zero i), at_, at_]
  simp only [shorter, place, Nat.mod_add_mod, Nat.add_assoc, Nat.add_comm 1]
  exact if_congr (by omega) rfl rfl

theorem middle_entries (inside : pos < q.len) :
    (q.shorter (q.shift q.slots pos (q.len - 1 - pos)) q.head).entries = q.entries.eraseIdx pos := by
  have fits := q.fits
  refine ext_getElem? fun i => ?_
  rw [entries_getElem?, erased_getElem?]
  by_cases left : i < q.len - 1
  · have moved : q.shift q.slots pos (q.len - 1 - pos) (q.place i) = _ := q.shift_eq (by omega) (by omega)
    refine (if_pos left).trans ((congrArg some moved).trans ?_)
    by_cases early : i < pos
    · rw [if_pos early, if_neg (by omega), at_, if_pos (by omega)]
    · rw [if_neg early, if_pos (by omega), at_, if_pos (by omega)]
  · rw [if_neg (by omega)]
    exact (if_neg left).trans (if_neg (by omega)).symm

theorem takeAt_eq (q : RunQueue cfg) (pos : Nat) :
    (q.takeAt pos).1 = q.entries[pos]? ∧ (q.takeAt pos).2.entries = q.entries.eraseIdx pos := by
  rw [entries_getElem?, takeAt]
  by_cases inside : pos < q.len
  · rw [show q.at_ pos = some (q.slots (q.place pos)) from if_pos inside]
    refine ⟨rfl,?_⟩
    dsimp only
    split
    · rename_i first
      rw [first]
      exact q.front_entries
    · exact middle_entries inside
  · rw [show q.at_ pos = none from if_neg inside]
    exact ⟨rfl,(eraseIdx_of_length_le (q.entries_length.trans_le (Nat.le_of_not_lt inside))).symm⟩

theorem scan_eq (s : Scheduler C cfg) {kept rest : List Nat} {best : Option (Nat × Nat)}
    (whole : q.entries = kept ++ rest) :
    (scan s q kept.length best rest.length).1.entries = (s.scanReady rest kept best).1 ∧
      (scan s q kept.length best rest.length).2 = (s.scanReady rest kept best).2 := by
  induction rest generalizing q kept best with
  | nil => exact ⟨whole.trans (append_nil _),rfl⟩
  | cons slot rest ih =>
    have here : q.at_ kept.length = some slot := by
      rw [← entries_getElem?, whole, getElem?_append_right (Nat.le_refl _), Nat.sub_self, getElem?_cons_zero]
    have further (best : Option (Nat × Nat)) :
        (scan s q (kept.length + 1) best rest.length).1.entries = (s.scanReady rest (kept ++ [slot]) best).1 ∧
          (scan s q (kept.length + 1) best rest.length).2 = (s.scanReady rest (kept ++ [slot]) best).2 := by
      rw [← length_singleton, ← length_append]
      exact ih (by rw [whole, append_assoc, singleton_append])
    rw [length_cons, scan, here, Scheduler.scanReady]
    dsimp only
    split
    · refine ih ((q.takeAt_eq kept.length).2.trans ?_)
      rw [whole, eraseIdx_append_of_length_le (Nat.le_refl _), Nat.sub_self, eraseIdx_cons_zero]
    split
    · exact further _
    · exact further _

/-- The walk looks at the threads alone. -/
theorem scan_setReady (s : Scheduler C cfg) {items : List Nat} (fits : items.length ≤ cfg.maxThreads)
    (best : Option (Nat × Nat)) (turns : Nat) :
    scan (s.setReady items fits) q pos best turns = scan s q pos best turns := by
  induction turns generalizing q pos best with
  | zero => rfl
  | succ turns ih =>
    simp only [scan, ih]
    rfl

theorem popReady_eq (s : Scheduler C cfg) (holds : q.entries = s.ready.items) :
    (q.popReady s).1 = s.popReady.1 ∧ (q.popReady s).2.entries = s.popReady.2.ready.items := by
  have scanned : (scan s q 0 none q.len).1.entries = (s.scanReady s.ready.items [] none).1 ∧
      (scan s q 0 none q.len).2 = (s.scanReady s.ready.items [] none).2 := by
    rw [← q.entries_length, holds]
    exact scan_eq s (holds.trans (nil_append _).symm)
  unfold popReady Scheduler.popReady
  split
  · rename_i done
    rw [done] at scanned
    rw [← scanned.2]
    exact ⟨rfl,scanned.1⟩
  · rename_i q' at_ _ done
    rw [done] at scanned
    have taken := q'.takeAt_eq at_
    rw [scanned.1] at taken
    rw [← scanned.2]
    exact taken

/-- What the scheduler does to its list, the ring does to its entries, with the same answers. -/
theorem ring_refines_list (s : Scheduler C cfg) (holds : q.entries = s.ready.items) (idx : Nat) :
    ((q.push idx).1 = (s.ready.push idx).isSome ∧
      (q.push idx).2.entries = ((s.ready.push idx).getD s.ready).items) ∧
    (q.remove idx).2.entries = (s.withoutEntry idx).ready.items ∧
    (q.popReady s).1 = s.popReady.1 ∧ (q.popReady s).2.entries = s.popReady.2.ready.items := by
  refine ⟨?_,?_,popReady_eq s holds⟩
  · have size : q.len = s.ready.items.length := by rw [← holds, entries_length]
    by_cases room : q.len < cfg.maxThreads
    · rw [push_entries idx room, push, dif_pos room, Bounded.push, dif_pos (size ▸ room), holds]
      exact ⟨rfl,rfl⟩
    · rw [push, dif_neg room, Bounded.push, dif_neg (size ▸ room)]
      exact ⟨rfl,holds⟩
  · rw [remove_entries, holds]
    rfl

example : (new : RunQueue cfg).entries = [] := rfl

/-- In every state of the threads and of the ring the entry picked is the first of the most urgent ready
    ones. Only entries of threads that are not ready are dropped, the others keep their order, and nothing
    is picked only if no queued thread is ready. -/
theorem first_of_most_urgent_is_popped (s : Scheduler C cfg) (q : RunQueue cfg) :
    (q.popReady s).1 = none ∧ (q.popReady s).2.entries = [] ∧
      (∀ slot ∈ q.entries, s.threadState slot ≠ some .ready) ∨
    ∃ slot before after, (q.popReady s).1 = some slot ∧
      q.entries.filter (fun other => s.threadState other = some .ready) = before ++ slot :: after ∧
      (q.popReady s).2.entries = before ++ after ∧
      (∀ other ∈ before, (s.threadPriority other).getD 0 < (s.threadPriority slot).getD 0) ∧
      ∀ other ∈ after, (s.threadPriority other).getD 0 ≤ (s.threadPriority slot).getD 0 := by
  let t := s.setReady q.entries (q.entries_length.trans_le q.fits)
  obtain ⟨answer,left⟩ : _ = t.popReady.1 ∧ _ = t.popReady.2.ready.items := popReady_eq t rfl
  rw [popReady, scan_setReady s, ← popReady] at answer left
  rcases t.popReady_cases with ⟨none,empty,gone⟩ | ⟨slot,before,after,found,ready,rest,order⟩
  · refine .inl ⟨answer.trans none,left.trans gone,fun slot mem ready => ?_⟩
    cases (empty ▸ Scheduler.mem_readyEntries.mpr ⟨mem,ready⟩ : slot ∈ [])
  · exact .inr ⟨slot,before,after,answer.trans found,ready,left.trans rest,order⟩

end RunQueue
end Tessera
