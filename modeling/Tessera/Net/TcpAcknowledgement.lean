import Tessera.Lib.Transition
import Tessera.Net.Tcp

/-!
What acknowledgements may do to a connection. The code takes the number on a segment
that starts where it expects as the oldest one not acknowledged, wherever that number
lies. As long as such numbers lie between the oldest one not acknowledged and the next
one to be sent, and no number beyond is heard, nothing is retired that was not sent.
-/
namespace Tessera.Tcp
open SerialNumber List

namespace Core
variable {k k' : Core} {u : Sent} {ack : BitVec 32} {segment : Segment} {call : Call}

def InWindow (k : Core) (ack : BitVec 32) : Prop := ahead k.sndUna ack ≤ ahead k.sndUna k.sndNxt

/-- Fewer than `2 ^ 31` bytes are outstanding, by the send sequence and by what is held. -/
def Modest (k : Core) : Prop :=
  ahead k.sndUna k.sndNxt < 2 ^ 31 ∧ ∀ u ∈ k.held, ahead u.seq k.sndNxt < 2 ^ 31

/-- An acknowledgement lies in the window where the connection moves up to it, and not
    beyond the next number to be sent where it only releases what is held. -/
def Sound (k : Core) : Call → Prop
  | .onSegment segment _ _ => k.listens segment = true → segment.has Flag.ack = true →
      (k.state = .synSent → segment.has Flag.syn = true → k.InWindow segment.ack) ∧
        (k.isOpen = true →
          if segment.seq = k.rcvNxt then k.InWindow segment.ack else seqLeq segment.ack k.sndNxt = true)
  | _ => True

instance (k : Core) (ack : BitVec 32) : Decidable (k.InWindow ack) := inferInstanceAs (Decidable (_ ≤ _))
instance (k : Core) : Decidable k.Modest := inferInstanceAs (Decidable (_ ∧ _))
instance (k : Core) (call : Call) : Decidable (k.Sound call) := by
  rcases call <;> dsimp only [Sound] <;> infer_instance

/-- Where the held segments end: none after the next number to be sent, but for a SYN sent
    once more, and the oldest of them not before the oldest number not acknowledged. -/
structure Ranged (k : Core) : Prop where
  front : ∀ u, k.held.head? = some u → ahead k.sndUna u.stop ≤ ahead k.sndUna k.sndNxt + 1
  spans : ∀ u ∈ k.held, u.span ≤ ahead u.seq k.sndNxt + 1

theorem ahead_stop (a : BitVec 32) (u : Sent) : ahead a u.stop = (ahead a u.seq + u.span) % 2 ^ 32 :=
  ahead_add a u.seq u.span

theorem stop_after (span : u.span ≤ ahead u.seq k.sndNxt + 1) (near : ahead u.seq k.sndNxt < 2 ^ 31)
    (behind : ahead ack k.sndNxt < 2 ^ 31) (uncovered : seqLeq u.stop ack = false) :
    ahead ack u.stop ≤ ahead ack k.sndNxt + 1 := by
  have past : ¬ahead u.stop ack < 2 ^ 31 := by
    rw [← seqLeq_iff, uncovered]
    exact Bool.false_ne_true
  rw [ahead_via ack u.stop, ahead_self] at past
  rw [ahead_via ack u.seq] at near span
  rw [ahead_stop] at past ⊢
  have := ahead_lt ack u.seq
  omega

theorem mem_of_release (mem : u ∈ (k.release ack).held) : u ∈ k.held :=
  (dropWhile_sublist _).subset mem

theorem uncovered_of_release (first : (k.release ack).held.head? = some u) : seqLeq u.stop ack = false := by
  have head := head?_dropWhile_not (fun held : Sent => seqLeq held.stop ack) k.held
  rw [show List.head? (List.dropWhile _ _) = _ from first] at head
  simpa using head

theorem InWindow.behind (inside : k.InWindow ack) (modest : k.Modest) : ahead ack k.sndNxt < 2 ^ 31 := by
  have small := modest.1
  unfold InWindow at inside
  rw [ahead_via k.sndUna]
  omega

section
variable (ranged : Ranged k)
include ranged

section
variable (modest : k.Modest)
include modest

theorem old_releases_nothing (old : seqLeq ack k.sndNxt = true) (outside : ¬k.InWindow ack) : k.release ack = k := by
  have kept : k.held.dropWhile (fun held => seqLeq held.stop ack) = k.held := by
    cases held : k.held with
    | nil => rfl
    | cons u =>
      have front := ranged.front u (by rw [held]; rfl)
      unfold InWindow at outside
      rw [seqLeq_iff, ahead_via k.sndUna] at old
      have uncovered : ¬ahead u.stop ack < 2 ^ 31 := by
        rw [ahead_via k.sndUna]
        have := ahead_lt k.sndUna ack
        have := ahead_lt k.sndUna u.stop
        omega
      rw [← seqLeq_iff] at uncovered
      simp [uncovered]
  unfold release
  rw [kept]

theorem Ranged.release_front (behind : ahead ack k.sndNxt < 2 ^ 31)
    (first : (k.release ack).held.head? = some u) : ahead ack u.stop ≤ ahead ack k.sndNxt + 1 := by
  have mem := mem_of_release (mem_of_mem_head? first)
  exact stop_after (ranged.spans u mem) (modest.2 u mem) behind (uncovered_of_release first)

theorem Ranged.acknowledged (inside : k.InWindow ack)
    (una : k'.sndUna = ack) (nxt : k'.sndNxt = k.sndNxt) (held : k'.held = (k.release ack).held) : Ranged k' := by
  refine ⟨fun u first => ?_,fun u mem => ?_⟩
  · rw [una, nxt]
    exact ranged.release_front modest (inside.behind modest) (held ▸ first)
  · rw [nxt]
    exact ranged.spans u (mem_of_release (held ▸ mem))

theorem Ranged.released (old : seqLeq ack k.sndNxt = true) : Ranged (k.release ack) := by
  by_cases inside : k.InWindow ack
  · refine ⟨fun u first => ?_,fun u mem => ranged.spans u (mem_of_release mem)⟩
    have after := ranged.release_front modest (inside.behind modest) first
    unfold InWindow at inside
    rw [ahead_via k.sndUna, ahead_via k.sndUna ack] at after
    have := ahead_lt k.sndUna u.stop
    have := ahead_lt k.sndUna k.sndNxt
    show ahead k.sndUna u.stop ≤ ahead k.sndUna k.sndNxt + 1
    omega
  · rw [old_releases_nothing ranged modest old inside]
    exact ranged

theorem Ranged.sent (small : n ≤ maxSegmentPayload)
    (una : k'.sndUna = k.sndUna) (nxt : k'.sndNxt = k.sndNxt + BitVec.ofNat 32 n)
    (held : k'.held = k.held ++ [u]) (start : u.seq = k.sndNxt) (span : u.span = n) : Ranged k' := by
  have outstanding := modest.1
  have room : maxSegmentPayload = 256 := rfl
  have forward : ∀ a, ahead a k.sndNxt < 2 ^ 31 → ahead a k'.sndNxt = ahead a k.sndNxt + n := by
    intro _ _
    rw [nxt, ahead_add, Nat.mod_eq_of_lt (by omega)]
  refine ⟨fun v first => ?_,fun v mem => ?_⟩
  · rw [una, forward _ outstanding]
    rw [held] at first
    cases there : k.held with
    | nil =>
      rw [there] at first
      cases first
      rw [ahead_stop, start]
      omega
    | cons =>
      rw [there] at first
      cases first
      have := ranged.front v (by rw [there]; rfl)
      omega
  · rw [held, mem_append, mem_singleton] at mem
    rcases mem with old | rfl
    · rw [forward _ (modest.2 v old)]
      have := ranged.spans v old
      omega
    · rw [nxt, start, ahead_add, ahead_self]
      omega

theorem Ranged.moves (sound : k.Sound call) (moves : Moves k call k') : Ranged k' := by
  cases moves with
  | idle => exact ranged
  | opening =>
    refine ⟨fun v first => ?_,fun v mem => ?_⟩
    · cases there : k.held with
      | nil =>
        rw [push, there] at first
        cases first
        rw [ahead_stop]
        simp [push]
      | cons =>
        rw [push, there] at first
        cases first
        exact ranged.front v (by rw [there]; rfl)
    · rw [push, mem_append, mem_singleton] at mem
      rcases mem with old | rfl
      · exact ranged.spans v old
      · exact Nat.le_add_left 1 _
  | sending _ small => exact ranged.sent modest small rfl rfl rfl rfl rfl
  | closing => exact ranged.sent (n := 1) modest (by decide) rfl rfl rfl rfl rfl
  | aborting => exact ⟨by simp,by simp⟩
  | resetting => exact ⟨ranged.front,ranged.spans⟩
  | @opened segment _ _ addressed waiting syn ack =>
    have inside := (sound addressed ack).1 waiting syn
    exact ranged.acknowledged modest inside rfl rfl rfl
  | @heard segment _ _ addressed open_ elsewhere =>
    unfold heard
    split
    · rename_i acks
      have old := (sound addressed acks).2 open_
      rw [if_neg elsewhere] at old
      exact ranged.released modest old
    · exact ranged
  | @taken segment _ _ addressed open_ here =>
    have kept : Ranged (k.acked segment) := by
      unfold acked
      split
      · rename_i acks
        have inside := (sound addressed acks).2 open_
        rw [if_pos here] at inside
        exact ranged.acknowledged modest inside rfl rfl rfl
      · exact ranged
    exact ⟨kept.front,kept.spans⟩

theorem outside_moves (sound : k.Sound (.onSegment segment room now)) (outside : ¬k.InWindow segment.ack)
    (moves : Moves k (.onSegment segment room now) k') :
    k'.held = k.held ∧ (k'.state = .established → k.state = .established) := by
  cases moves with
  | idle => exact ⟨rfl,id⟩
  | resetting => exact ⟨rfl,nofun⟩
  | opened addressed waiting syn ack => exact absurd ((sound addressed ack).1 waiting syn) outside
  | heard addressed open_ elsewhere =>
    unfold heard
    split
    · rename_i acks
      have old := (sound addressed acks).2 open_
      rw [if_neg elsewhere] at old
      rw [old_releases_nothing ranged modest old outside]
      exact ⟨rfl,id⟩
    · exact ⟨rfl,id⟩
  | taken addressed open_ here =>
    have plain : segment.has Flag.ack = false := by
      by_contra acks
      have inside := (sound addressed (Bool.eq_true_of_not_eq_false acks)).2 open_
      rw [if_pos here] at inside
      exact outside inside
    refine ⟨by simp [advanced, acked, plain],fun established => ?_⟩
    simp only [advanced, acked, plain, Bool.false_eq_true, if_false] at established
    split at established
    · cases established
    · exact established

end

end

theorem una_moves (sound : k.Sound call) (moves : Moves k call k') :
    ahead k.sndUna k'.sndUna ≤ ahead k.sndUna k'.sndNxt := by
  have stays : ∀ k' : Core, k'.sndUna = k.sndUna → ahead k.sndUna k'.sndUna ≤ ahead k.sndUna k'.sndNxt := by
    intro _ same
    rw [same, ahead_self]
    omega
  cases moves with
  | idle => exact stays k rfl
  | opening | sending | closing | aborting | resetting => exact stays _ rfl
  | opened addressed waiting syn ack => exact (sound addressed ack).1 waiting syn
  | @heard segment _ _ addressed open_ elsewhere =>
    refine stays _ ?_
    unfold heard
    split <;> rfl
  | @taken segment _ _ addressed open_ here =>
    by_cases acks : segment.has Flag.ack = true
    · have inside := (sound addressed acks).2 open_
      rw [if_pos here] at inside
      simpa [advanced, acked, acks, release, InWindow] using inside
    · exact stays _ (by simp [advanced, acked, acks])

end Core

namespace Connection
open Transition
variable {c c' : Connection} {call : Call} {history : List Call}

def Step (c : Connection) (call : Call) (c' : Connection) : Prop := c.after call = c'

def Regular (c : Connection) (call : Call) : Prop := c.core.Modest ∧ c.core.Sound call

instance (c : Connection) (call : Call) : Decidable (c.Regular call) := inferInstanceAs (Decidable (_ ∧ _))

theorem ranged_run {localPort remotePort : BitVec 16}
    (run : Disciplined (fun _ => Regular) Step (connect localPort remotePort isn) history c) : c.core.Ranged := by
  refine Disciplined.invariant (fun _ c => c.core.Ranged) ?_ ⟨nofun,nofun⟩ run
  intro _ c call c' ranged regular step
  rw [← show c.after call = c' from step]
  exact ranged.moves regular.1 regular.2 (c.after_moves call)

/-- In every run with fewer than `2 ^ 31` bytes outstanding whose segments acknowledge soundly,
    the oldest number not acknowledged moves forward only, and never past the next to be sent;
    and a number outside that range neither releases a held segment nor opens the connection. -/
theorem acknowledgements_retire_what_was_sent {localPort remotePort : BitVec 16} {isn : BitVec 32}
    (run : Disciplined (fun _ => Regular) Step (connect localPort remotePort isn) history c)
    (regular : c.Regular call) (step : Step c call c') : ahead c.sndUna c'.sndUna ≤ ahead c.sndUna c'.sndNxt ∧
      ∀ segment room now, call = .onSegment segment room now → ¬ahead c.sndUna segment.ack ≤ ahead c.sndUna c.sndNxt →
          c'.unacked.map Unacked.toSent = c.unacked.map Unacked.toSent ∧
            (c'.state = .established → c.state = .established) := by
  have moves := c.after_moves call
  rw [show c.after call = c' from step] at moves
  refine ⟨Core.una_moves regular.2 moves,fun segment room now same outside => ?_⟩
  subst same
  exact Core.outside_moves (ranged_run run) regular.1 regular.2 outside moves

def fromPeer (seq ack : BitVec 32) (flags : BitVec 8) : Segment := ⟨80, 40000, seq, ack, flags, 4096, []⟩

def writing : Connection :=
  (((connect 40000 80 1000).after (.syn 64 0)).after
    (.onSegment (fromPeer 7000 1001 (Flag.syn ||| Flag.ack)) 64 1)).after (.send 64 [1, 2, 3] 2)

/-- A repeated segment that acknowledges less than has been acknowledged changes nothing. -/
theorem stale_number_releases_nothing :
    (writing.after (.onSegment (fromPeer 6000 1000 Flag.ack) 64 3)).unacked.map Unacked.toSent =
      [⟨1001, Flag.ack ||| Flag.psh, [1, 2, 3], 3⟩] := by
  have run : Disciplined (fun _ => Regular) Step (connect 40000 80 1000)
      ([.syn 64 0, .onSegment (fromPeer 7000 1001 (Flag.syn ||| Flag.ack)) 64 1] ++ [.send 64 [1, 2, 3] 2]) writing :=
    .more (.more (.more .start (by decide) rfl) (by decide) rfl) (by decide) rfl
  have kept := (acknowledgements_retire_what_was_sent run (by decide) rfl).2 (fromPeer 6000 1000 Flag.ack) 64 3 rfl
    (by decide)
  rw [kept.1]
  decide

/-- A handshake answered with a number that was never sent opens the connection and retires
    its SYN; and a stale number on a segment that comes in sequence moves the oldest number
    not acknowledged back. -/
theorem unsent_number_is_acknowledged : (∃ c c', Run Step (connect 40000 80 1000) [.syn 64 0] c ∧
      Step c (.onSegment (fromPeer 7000 5000 (Flag.syn ||| Flag.ack)) 64 1) c' ∧
      ¬ahead c.sndUna 5000 ≤ ahead c.sndUna c.sndNxt ∧
      c.unacked ≠ [] ∧ c'.unacked = [] ∧ c.state = .synSent ∧ c'.state = .established) ∧
    ∃ c c', Run Step (connect 40000 80 1000)
        [.syn 64 0, .onSegment (fromPeer 7000 1001 (Flag.syn ||| Flag.ack)) 64 1, .send 64 [1, 2, 3] 2,
          .onSegment (fromPeer 7001 1004 Flag.ack) 64 3] c ∧
      Step c (.onSegment (fromPeer 7001 1001 Flag.ack) 64 4) c' ∧
      ¬ahead c.sndUna c'.sndUna ≤ ahead c.sndUna c'.sndNxt := by
  constructor
  · exact ⟨_,_,(Run.start _).more rfl,rfl,by decide,by decide,by decide,by decide,by decide⟩
  · exact ⟨_,_,((((Run.start _).more rfl).more rfl).more rfl).more rfl,rfl,by decide⟩

end Connection
end Tessera.Tcp
