import Tessera.Ipc.Channel

/-!
The queue of an endpoint as the array the kernel keeps it in. A message is taken out
of its place, and a reply may be taken from the middle; the messages behind it then
move up one by one. The list model of the endpoint gives the same answers.
-/
namespace Tessera
open Function List

structure EndpointRing (M : Type) (cfg : Config) where
  queue : Nat → Option M
  head : Nat
  len : Nat
  wraps : head % cfg.queueCap = head

inductive QueueCall (M : Type) where
  | enqueue (message : M)
  | dequeue
  | takeReply (txn : Nat)

variable {M : Type} {cfg : Config}

namespace EndpointRing

def new : EndpointRing M cfg := ⟨fun _ => none, 0, 0, Nat.zero_mod _⟩

section
variable (r : EndpointRing M cfg)

def place (i : Nat) : Nat := (r.head + i) % cfg.queueCap

/-- The places in use, in the order in which they were filled. -/
def places : List (Option M) := (range r.len).map (r.queue ∘ r.place)

def enqueue (m : M) : Except KError Unit × EndpointRing M cfg :=
  if cfg.queueCap ≤ r.len then (.error .wouldBlock, r)
  else (.ok (), { r with queue := update r.queue (r.place r.len) (some m), len := r.len + 1 })

def dequeue : Option M × EndpointRing M cfg :=
  if r.len = 0 then (none, r)
  else (r.queue r.head, ⟨update r.queue r.head none, (r.head + 1) % cfg.queueCap, r.len - 1, Nat.mod_mod ..⟩)

/-- The message behind each place moves into it, for so many places. -/
def closeGap (queue : Nat → Option M) (i : Nat) : Nat → Nat → Option M
  | 0 => queue
  | n + 1 => closeGap (update (update queue (r.place i) (queue (r.place (i + 1)))) (r.place (i + 1)) none) (i + 1) n

end

section
variable [Stamped M] (r : EndpointRing M cfg)

def takeReply (txn : Nat) : Option M × EndpointRing M cfg :=
  match r.places.findIdx? (·.any (Stamped.txn · == txn)) with
  | none => (none, r)
  | some i => (r.queue (r.place i),
      { r with queue := r.closeGap (update r.queue (r.place i) none) i (r.len - 1 - i), len := r.len - 1 })

def answer : QueueCall M → Except KError (Option M) × EndpointRing M cfg
  | .enqueue m => (r.enqueue m).map (·.map fun _ => none) id
  | .dequeue => r.dequeue.map .ok id
  | .takeReply txn => (r.takeReply txn).map .ok id

end

end EndpointRing

/-- What the list model answers; a refused call leaves it as it was. -/
def Endpoint.answer [Stamped M] (e : Endpoint M cfg) : QueueCall M → Except KError (Option M) × Endpoint M cfg
  | .enqueue m =>
    match e.enqueue m with
    | .error refused => (.error refused, e)
    | .ok filled => (.ok none, filled)
  | .dequeue => (.ok (e.dequeue.map (·.1)), (e.dequeue.map (·.2)).getD e)
  | .takeReply txn => (.ok ((e.takeReply txn).map (·.1)), ((e.takeReply txn).map (·.2)).getD e)

namespace EndpointRing

/-- The ring holds the messages of the list in their order, from the head on. -/
structure Holds (r : EndpointRing M cfg) (e : Endpoint M cfg) : Prop where
  len : r.len = e.queue.items.length
  slot : ∀ i, i < r.len → r.queue (r.place i) = e.queue.items[i]?

variable {r : EndpointRing M cfg} {e : Endpoint M cfg} {i j n : Nat} {queue : Nat → Option M}

theorem Holds.len_le (holds : r.Holds e) : r.len ≤ cfg.queueCap := holds.len ▸ e.queue.fits

theorem place_ne (r : EndpointRing M cfg) (inside : i < cfg.queueCap) (within : j < cfg.queueCap) (apart : i ≠ j) :
    r.place i ≠ r.place j := by
  intro same
  have below : i % cfg.queueCap = j % cfg.queueCap := Nat.ModEq.add_left_cancel' r.head same
  rw [Nat.mod_eq_of_lt inside, Nat.mod_eq_of_lt within] at below
  exact apart below

theorem closeGap_eq (r : EndpointRing M cfg) (inside : i + n < cfg.queueCap) (within : j < cfg.queueCap)
    (apart : j ≠ i + n) : r.closeGap queue i n (r.place j) =
      if i ≤ j ∧ j < i + n then queue (r.place (j + 1)) else queue (r.place j) := by
  induction n generalizing queue i with
  | zero => simp [closeGap, show ¬(i ≤ j ∧ j < i) by omega]
  | succ n ih =>
    have here : i < cfg.queueCap := by omega
    have next : i + 1 < cfg.queueCap := by omega
    rw [closeGap, ih (by omega) (by omega)]
    by_cases first : j = i
    · subst first
      simp [r.place_ne within next (by omega)]
    by_cases moved : i + 1 ≤ j ∧ j < i + 1 + n
    · have behind : j + 1 < cfg.queueCap := by omega
      rw [if_pos moved, if_pos (by omega)]
      simp [r.place_ne behind next (by omega), r.place_ne behind here (by omega)]
    · rw [if_neg moved, if_neg (by omega)]
      simp [r.place_ne within next (by omega), r.place_ne within here first]

variable [Stamped M]

def Agrees (r : EndpointRing M cfg) (e : Endpoint M cfg) (call : QueueCall M) : Prop :=
  (r.answer call).1 = (e.answer call).1 ∧ (r.answer call).2.Holds (e.answer call).2

section
variable (holds : r.Holds e)
include holds

theorem Holds.enqueue (m : M) : Agrees r e (.enqueue m) := by
  simp only [Agrees, answer, EndpointRing.enqueue, Endpoint.answer, Endpoint.enqueue]
  cases queued : e.queue.push m with
  | none =>
    rw [if_pos (holds.len.trans (Bounded.push_eq_none.mp queued)).ge]
    exact ⟨rfl,holds⟩
  | some queue =>
    obtain ⟨room,items⟩ := Bounded.push_eq_some.mp queued
    have last : r.len < cfg.queueCap := holds.len ▸ room
    rw [if_neg last.not_ge]
    refine ⟨rfl,by simp [items, holds.len],fun i inside => ?_⟩
    show update r.queue (r.place r.len) (some m) (r.place i) = queue.items[i]?
    rw [items]
    rcases Nat.lt_succ_iff_lt_or_eq.mp inside with before | rfl
    · rw [update_of_ne (r.place_ne (by omega) last (by omega)), holds.slot i before,
        getElem?_append_left (holds.len ▸ before)]
    · rw [update_self, holds.len, getElem?_concat_length]

theorem Holds.dequeue : Agrees r e .dequeue := by
  have fits := holds.len_le
  have first : r.place 0 = r.head := r.wraps
  simp only [Agrees, answer, EndpointRing.dequeue, Endpoint.answer]
  cases done : e.dequeue with
  | none =>
    rw [if_pos (by rw [holds.len, Endpoint.dequeue_eq_none.mp done, length_nil])]
    exact ⟨rfl,holds⟩
  | some taken =>
    obtain ⟨_,rest,items⟩ := Endpoint.dequeue_eq_some done
    have filled : r.len = taken.2.queue.items.length + 1 := by rw [holds.len, items, rest, length_cons]
    have front := holds.slot 0 (by omega)
    rw [items, getElem?_cons_zero, first] at front
    rw [if_neg (by omega), front]
    refine ⟨rfl,by simp [filled],fun i inside => ?_⟩
    have later : i + 1 < r.len := Nat.add_lt_of_lt_sub inside
    show update r.queue r.head none (((r.head + 1) % cfg.queueCap + i) % cfg.queueCap) = taken.2.queue.items[i]?
    rw [Nat.mod_add_mod, Nat.add_assoc, Nat.add_comm 1, ← place, ← first,
      update_of_ne (r.place_ne (by omega) (by omega) (by omega)), holds.slot _ later, items, rest, getElem?_cons_succ]

theorem Holds.find (txn : Nat) : r.places.findIdx? (·.any (Stamped.txn · == txn)) =
      e.queue.items.findIdx? (Stamped.txn · == txn) := by
  have all : r.places = e.queue.items.map some := by
    refine ext_getElem (by simp [places, holds.len]) fun i inside _ => ?_
    have used : i < r.len := by simpa [places] using inside
    simp [places, holds.slot i used]
  rw [all, findIdx?_map]
  rfl

theorem Holds.takeReply (txn : Nat) : Agrees r e (.takeReply txn) := by
  have fits := holds.len_le
  simp only [Agrees, answer, EndpointRing.takeReply, Endpoint.answer, Endpoint.takeReply, holds.find txn,
    find?_eq_bind_findIdx?_getElem?]
  cases found : e.queue.items.findIdx? (Stamped.txn · == txn) with
  | none => exact ⟨rfl,holds⟩
  | some pos =>
    obtain ⟨inside,_⟩ := findIdx?_eq_some_iff_getElem.mp found
    have within : pos < r.len := holds.len ▸ inside
    simp only [Option.bind_some, holds.slot pos within, getElem?_eq_getElem inside]
    refine ⟨rfl,?_,fun i lower => ?_⟩
    · show r.len - 1 = (e.queue.items.eraseP _).length
      rw [eraseP_eq_eraseIdx, found, length_eraseIdx_of_lt inside, holds.len]
    have less : i < r.len - 1 := lower
    show r.closeGap (update r.queue (r.place pos) none) pos (r.len - 1 - pos) (r.place i) =
      (e.queue.items.eraseP _)[i]?
    rw [eraseP_eq_eraseIdx, found, closeGap_eq r (by omega) (by omega) (by omega), getElem?_eraseIdx]
    by_cases early : i < pos
    · rw [if_neg (by omega), if_pos early, update_of_ne (r.place_ne (by omega) (by omega) (by omega)),
        holds.slot i (by omega)]
    · rw [if_pos (by omega), if_neg early, update_of_ne (r.place_ne (by omega) (by omega) (by omega)),
        holds.slot (i + 1) (by omega)]

theorem Holds.agrees (call : QueueCall M) : Agrees r e call := by
  cases call with
  | enqueue m => exact holds.enqueue m
  | dequeue => exact holds.dequeue
  | takeReply txn => exact holds.takeReply txn

end

/-- After every sequence of calls on a new endpoint the ring holds the messages of the bounded list in
    their order, and it answers the next call as the list does. -/
theorem endpoint_ring_refines_list (calls : List (QueueCall M)) :
    let ring := calls.foldl (fun r call => (r.answer call).2) (new : EndpointRing M cfg)
    let list := calls.foldl (fun e call => (e.answer call).2) (.new : Endpoint M cfg)
    ring.Holds list ∧ ∀ call, (ring.answer call).1 = (list.answer call).1 := by
  have start : Holds (new : EndpointRing M cfg) (.new : Endpoint M cfg) := ⟨rfl,nofun⟩
  generalize (new : EndpointRing M cfg) = r, (Endpoint.new : Endpoint M cfg) = e at start ⊢
  induction calls generalizing r e with
  | nil => exact ⟨start,fun call => (start.agrees call).1⟩
  | cons call rest ih => exact ih _ _ (start.agrees call).2

end EndpointRing
end Tessera
