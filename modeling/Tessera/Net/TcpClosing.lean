import Tessera.Net.TcpAcknowledgement

/-!
How a connection ends. Both ends have closed once the peer's FIN has been taken and this
end's FIN has been acknowledged; the code looks whether that is so only when it takes a
FIN, and by the number that came with it. So the connection is `Done` if the peer's FIN
is the later of the two and acknowledges everything, and never otherwise.
-/
namespace Tessera.Tcp
open SerialNumber List
variable {k k' : Core} {segment : Segment} {call : Call} {history : List Call}

namespace Core
variable {u : Sent} {held : List Sent} {nxt : BitVec 32}

/-- The call brings an acknowledgement of this end's FIN. Nothing is sent after a FIN, so the
    number that covers it is the next to be sent. -/
def coversFin (k : Core) : Call → Bool
  | .onSegment segment _ _ =>
    k.listens segment && decide (k.state = .finWait) && segment.has Flag.ack && decide (segment.ack = k.sndNxt)
  | _ => false

def takesFin (k : Core) : Call → Bool
  | .onSegment segment _ _ =>
    k.listens segment && decide (k.state = .finWait) && decide (segment.seq = k.rcvNxt) && segment.has Flag.fin
  | _ => false

/-- Each held segment ends no further before the next number to be sent than the segments
    behind it can reach. -/
def Near (nxt : BitVec 32) : List Sent → Prop
  | [] => True
  | u :: rest => ahead u.stop nxt ≤ maxSegmentPayload * rest.length ∧ Near nxt rest

theorem Near.push {n : Nat} (near : Near nxt held) (short : held.length < maxUnacked) (small : n ≤ maxSegmentPayload)
    (stop : u.stop = nxt + BitVec.ofNat 32 n) : Near (nxt + BitVec.ofNat 32 n) (held ++ [u]) := by
  induction held with
  | nil => exact ⟨by simp [stop],trivial⟩
  | cons v rest ih =>
    have close := near.1
    have further : ahead v.stop (nxt + BitVec.ofNat 32 n) ≤ maxSegmentPayload * (rest ++ [u]).length := by
      rw [ahead_add, length_append, length_singleton]
      simp only [maxSegmentPayload] at *
      omega
    exact ⟨further,ih near.2 (Nat.lt_of_succ_lt short)⟩

theorem Near.dropWhile (near : Near nxt held) (p : Sent → Bool) : Near nxt (held.dropWhile p) := by
  induction held with
  | nil => exact near
  | cons v rest ih =>
    rw [dropWhile_cons]
    split
    · exact ih near.2
    · exact near

theorem Near.all_covered (near : Near nxt held) (short : held.length ≤ maxUnacked) :
    (held.dropWhile fun u => seqLeq u.stop nxt) = [] := by
  induction held with
  | nil => rfl
  | cons v rest ih =>
    have covered : seqLeq v.stop nxt = true := by
      have close := near.1
      rw [seqLeq_iff]
      simp only [maxSegmentPayload, maxUnacked, length_cons] at *
      omega
    rw [dropWhile_cons, if_pos covered]
    exact ih near.2 (Nat.le_of_succ_le short)

structure Buffered (k : Core) : Prop where
  near : Near k.sndNxt k.held
  short : k.held.length ≤ maxUnacked
  opening : k.state = .synSent → k.sndUna + 1 = k.sndNxt

theorem Buffered.released (buffered : Buffered k) {ack : BitVec 32} (nxt : k'.sndNxt = k.sndNxt)
    (held : k'.held = (k.release ack).held) (open_ : k'.state ≠ .synSent) : Buffered k' where
  near := by
    rw [nxt, held]
    exact buffered.near.dropWhile _
  short := by
    rw [held]
    exact Nat.le_trans (dropWhile_sublist _).length_le buffered.short
  opening waiting := absurd waiting open_

theorem Buffered.pushed (buffered : Buffered k) {n : Nat} (free : k.held.length < maxUnacked)
    (small : n ≤ maxSegmentPayload) (nxt : k'.sndNxt = k.sndNxt + BitVec.ofNat 32 n) (stop : u.stop = k'.sndNxt)
    (held : k'.held = k.held ++ [u]) (opening : k'.state = .synSent → k'.sndUna + 1 = k'.sndNxt) : Buffered k' where
  near := by
    rw [nxt, held]
    exact buffered.near.push free small (stop.trans nxt)
  short := by
    rw [held, length_append]
    exact free
  opening := opening

theorem isOpen_not_opening (open_ : k.isOpen = true) : k.state ≠ .synSent := by
  intro waiting
  simp [isOpen, waiting] at open_

theorem advanced_not_opening (open_ : k.isOpen = true) : (k.advanced segment).state ≠ .synSent := by
  unfold advanced
  split
  · nofun
  · exact isOpen_not_opening open_

theorem Buffered.moves (buffered : Buffered k) (opens : ∀ room now, call = .syn room now → k.state = .synSent)
    (moves : Moves k call k') : Buffered k' := by
  cases moves with
  | idle => exact buffered
  | opening free =>
    have stop := buffered.opening (opens _ _ rfl)
    exact buffered.pushed (n := 0) (u := ⟨k.sndUna, Flag.syn, [], 1⟩) free (by decide) (by simp [push]) stop rfl
      buffered.opening
  | sending opened small free => exact buffered.pushed free small rfl rfl rfl (by simp [push, opened])
  | closing opened free => exact buffered.pushed (n := 1) free (by decide) rfl rfl rfl (by simp [push])
  | aborting => exact ⟨trivial,Nat.zero_le _,by simp⟩
  | resetting => exact ⟨buffered.near,buffered.short,by simp⟩
  | opened => exact buffered.released rfl rfl (by simp [release])
  | @heard segment _ _ _ open_ _ =>
    unfold heard
    split
    · exact buffered.released rfl rfl (isOpen_not_opening open_)
    · exact buffered
  | @taken segment _ _ _ open_ _ =>
    have stays : (k.acked segment).isOpen = true := by
      unfold acked
      split <;> exact open_
    have kept : Buffered (k.acked segment) := by
      unfold acked
      split
      · exact buffered.released rfl rfl (isOpen_not_opening open_)
      · exact buffered
    exact ⟨kept.near,kept.short,fun waiting => absurd waiting (advanced_not_opening stays)⟩

end Core

/-- A connection, and whether an acknowledgement that covers its FIN has been processed. -/
structure Closing where
  conn : Connection
  acknowledged : Bool
  deriving DecidableEq

namespace Closing
open Transition Core
variable {w w' : Closing}

def Step (w : Closing) (call : Call) (w' : Closing) : Prop :=
  w' = ⟨w.conn.after call, w.acknowledged || w.conn.core.coversFin call⟩

/-- The SYN goes out to open the connection only and no reset comes; the acknowledgement of
    this end's FIN does not come after the peer's FIN; and the peer's FIN, if it comes later,
    acknowledges all that was sent. -/
def FinLast (w : Closing) : Call → Prop
  | .syn _ _ => w.conn.state = .synSent
  | .onSegment segment room now =>
    segment.has Flag.rst = false ∧
      (w.conn.core.coversFin (.onSegment segment room now) = true → w.conn.peerFinished = false) ∧
      (w.acknowledged = true → w.conn.core.takesFin (.onSegment segment room now) = true →
        (if segment.has Flag.ack then segment.ack else w.conn.sndUna) = w.conn.sndNxt)
  | _ => True

instance (w : Closing) (call : Call) : Decidable (w.FinLast call) := by
  rcases call <;> dsimp only [FinLast] <;> infer_instance

end Closing

namespace Core
variable {room now : Nat} {acknowledged : Bool}

/-- What holds in every run: the connection whose FIN is acknowledged holds nothing and is
    past sending, and it does not go on waiting once the peer has finished. -/
structure Settled (k : Core) (acknowledged : Bool) : Prop where
  buffered : Buffered k
  drained : acknowledged = true → k.held = []
  closed : acknowledged = true → k.state = .finWait ∨ k.state = .done
  ended : acknowledged = true → k.peerFinished = true → k.state = .done

theorem Buffered.settled (buffered : Buffered k) : Settled k false := ⟨buffered,nofun,nofun,nofun⟩

theorem coversFin_iff : k.coversFin (.onSegment segment room now) = true ↔
    k.listens segment = true ∧ k.state = .finWait ∧ segment.has Flag.ack = true ∧ segment.ack = k.sndNxt := by
  simp [coversFin, and_assoc]

theorem coversFin_waits (covers : k.coversFin call = true) : k.state = .finWait := by
  cases call with
  | onSegment => exact (coversFin_iff.mp covers).2.1
  | _ => cases covers

theorem acked_held : (k.acked segment).held = (k.heard segment).held := by
  unfold acked heard
  split <;> rfl

section
variable (settled : Settled k acknowledged)
include settled

theorem Settled.unacknowledged (sends : k.state = .synSent ∨ k.state = .established) : acknowledged = false := by
  by_contra acked
  have closed := settled.closed (Bool.eq_true_of_not_eq_false acked)
  rcases sends with state | state <;> simp [state] at closed

theorem Settled.heard_held
    (acked : (acknowledged || k.coversFin (.onSegment segment room now)) = true) : (k.heard segment).held = [] := by
  rcases Bool.or_eq_true_iff.mp acked with before | covers
  · unfold heard
    split
    · simp [release, settled.drained before]
    · exact settled.drained before
  · obtain ⟨_,_,acks,all⟩ := coversFin_iff.mp covers
    rw [heard, if_pos acks, all]
    exact settled.buffered.near.all_covered settled.buffered.short

section
variable (addressed : k.listens segment = true) (waits : k.state = .finWait) (here : segment.seq = k.rcvNxt)
  (first : k.coversFin (.onSegment segment room now) = true → k.peerFinished = false)
  (all : acknowledged = true → k.takesFin (.onSegment segment room now) = true →
    (if segment.has Flag.ack then segment.ack else k.sndUna) = k.sndNxt)
include addressed waits here first all

theorem Settled.fin_acknowledges
    (acked : (acknowledged || k.coversFin (.onSegment segment room now)) = true)
    (finished : (k.peerFinished || segment.has Flag.fin) = true) :
    segment.has Flag.fin = true ∧ (if segment.has Flag.ack then segment.ack else k.sndUna) = k.sndNxt := by
  rcases Bool.or_eq_true_iff.mp acked with before | covers
  · have fin : segment.has Flag.fin = true := by
      rcases Bool.or_eq_true_iff.mp finished with earlier | fin
      · have ended := settled.ended before earlier
        simp [waits] at ended
      · exact fin
    exact ⟨fin,all before (by simp [takesFin, addressed, waits, here, fin])⟩
  · obtain ⟨_,_,acks,number⟩ := coversFin_iff.mp covers
    rw [first covers] at finished
    exact ⟨finished,by rw [if_pos acks, number]⟩

theorem Settled.taken (buffered : Buffered ((k.acked segment).advanced segment)) :
    Settled ((k.acked segment).advanced segment) (acknowledged || k.coversFin (.onSegment segment room now)) := by
  obtain ⟨una,nxt,state,peer⟩ : (k.acked segment).sndUna = (if segment.has Flag.ack then segment.ack else k.sndUna) ∧
      (k.acked segment).sndNxt = k.sndNxt ∧ (k.acked segment).state = .finWait ∧
      (k.acked segment).peerFinished = k.peerFinished := by
    unfold acked
    split <;> exact ⟨rfl,rfl,waits,rfl⟩
  refine ⟨buffered,fun acked => ?_,fun _ => ?_,fun acked finished => ?_⟩
  · exact acked_held.trans (settled.heard_held acked)
  · simp only [advanced, state]
    split
    · exact .inr rfl
    · exact .inl rfl
  · simp only [advanced, peer] at finished
    obtain ⟨fin,number⟩ := settled.fin_acknowledges addressed waits here first all acked finished
    simp [advanced, fin, state, una, nxt, number]

end
end

theorem Settled.moves {c : Connection} (settled : Settled c.core acknowledged) (buffered : Buffered k')
    (last : Closing.FinLast ⟨c, acknowledged⟩ call) (moves : Moves c.core call k') :
    Settled k' (acknowledged || c.core.coversFin call) := by
  -- Before the FIN is out there is nothing to acknowledge it.
  have early : c.state = .synSent ∨ c.state = .established → Settled k' (acknowledged || c.core.coversFin call) := by
    intro state
    have none : c.core.coversFin call = false := by
      by_contra covers
      have waits : c.state = .finWait := coversFin_waits (Bool.eq_true_of_not_eq_false covers)
      simp [waits] at state
    rw [settled.unacknowledged state, none]
    exact buffered.settled
  cases moves with
  | idle deaf =>
    have none : c.core.coversFin call = false := by
      by_contra covers
      have waits := coversFin_waits (Bool.eq_true_of_not_eq_false covers)
      cases call with
      | onSegment segment room now =>
        have listens := (coversFin_iff.mp (Bool.eq_true_of_not_eq_false covers)).1
        have silent := deaf segment room now rfl
        simp [listens, isOpen, waits] at silent
      | _ => exact covers rfl
    rw [none, Bool.or_false]
    exact settled
  | opening => exact early (.inl last)
  | sending opened | closing opened => exact early (.inr opened)
  | aborting waiting =>
    have before : acknowledged = false := by
      by_contra acked
      exact waiting (settled.drained (Bool.eq_true_of_not_eq_false acked))
    rw [before]
    exact buffered.settled
  | resetting resets =>
    rw [last.1] at resets
    cases resets
  | opened _ waiting => exact early (.inl waiting)
  | @heard segment room now addressed open_ elsewhere =>
    rcases of_decide_eq_true open_ with state | waits
    · exact early (.inr state)
    have same : (c.core.heard segment).state = c.core.state ∧
        (c.core.heard segment).peerFinished = c.core.peerFinished := by
      unfold Core.heard
      split <;> exact ⟨rfl,rfl⟩
    refine ⟨buffered,settled.heard_held,fun _ => .inl (same.1.trans waits),fun acked finished => ?_⟩
    rw [same.2] at finished
    rw [same.1]
    rcases Bool.or_eq_true_iff.mp acked with before | covers
    · exact settled.ended before finished
    · rw [show c.core.peerFinished = false from last.2.1 covers] at finished
      cases finished
  | taken addressed open_ here =>
    rcases of_decide_eq_true open_ with state | waits
    · exact early (.inr state)
    · exact settled.taken addressed waits here last.2.1 last.2.2 buffered

end Core

namespace Closing
open Transition Core
variable {w : Closing} {localPort remotePort : BitVec 16} {isn : BitVec 32}

def start (localPort remotePort : BitVec 16) (isn : BitVec 32) : Closing :=
  ⟨.connect localPort remotePort isn, false⟩

theorem settled_run (run : Disciplined (fun _ => FinLast) Step (start localPort remotePort isn) history w) :
    Settled w.conn.core w.acknowledged := by
  have fresh : Buffered (start localPort remotePort isn).conn.core := ⟨trivial,Nat.zero_le _,fun _ => rfl⟩
  refine Disciplined.invariant (fun _ w => Settled w.conn.core w.acknowledged) ?_ fresh.settled run
  intro _ w call _ settled last step
  have sends : ∀ room now, call = .syn room now → w.conn.core.state = .synSent := by
    intro _ _ same
    subst same
    exact last
  have moves := w.conn.after_moves call
  subst step
  exact settled.moves (settled.buffered.moves sends moves) last moves

/-- In every run without a reset in which the peer's FIN is the later of the two and
    acknowledges all that was sent, a connection that both ends have closed is done. -/
theorem closed_by_both_is_done (run : Disciplined (fun _ => FinLast) Step (start localPort remotePort isn) history w)
    (finished : w.conn.peerFinished = true) (acknowledged : w.acknowledged = true) : w.conn.state = .done :=
  (settled_run run).ended acknowledged finished

open Connection in
/-- This end closes first and the peer's FIN acknowledges it. -/
theorem active_close_is_done : (((((connect 40000 80 1000).after (.syn 64 0)).after
      (.onSegment (fromPeer 7000 1001 (Flag.syn ||| Flag.ack)) 64 1)).after (.close 64 2)).after
      (.onSegment (fromPeer 7001 1002 (Flag.fin ||| Flag.ack)) 64 3)).state = .done := by
  have run : Disciplined (fun _ => FinLast) Step (start 40000 80 1000)
      ([.syn 64 0, .onSegment (fromPeer 7000 1001 (Flag.syn ||| Flag.ack)) 64 1, .close 64 2] ++
        [.onSegment (fromPeer 7001 1002 (Flag.fin ||| Flag.ack)) 64 3]) _ :=
    .more (.more (.more (.more .start (by decide) rfl) (by decide) rfl) (by decide) rfl) (by decide) rfl
  exact closed_by_both_is_done run (by decide) (by decide)

open Connection in
/-- The peer closes first, and this end's FIN is acknowledged: the connection goes on waiting.
    So it does if both close at once, and the peer's FIN comes before its acknowledgement. -/
theorem passive_close_goes_on_waiting : (∃ w, Run Step (start 40000 80 1000)
        [.syn 64 0, .onSegment (fromPeer 7000 1001 (Flag.syn ||| Flag.ack)) 64 1,
          .onSegment (fromPeer 7001 1001 (Flag.fin ||| Flag.ack)) 64 2, .close 64 3,
          .onSegment (fromPeer 7002 1002 Flag.ack) 64 4] w ∧
      w.conn.peerFinished = true ∧ w.acknowledged = true ∧ w.conn.state = .finWait) ∧
    ∃ w, Run Step (start 40000 80 1000)
        [.syn 64 0, .onSegment (fromPeer 7000 1001 (Flag.syn ||| Flag.ack)) 64 1, .close 64 2,
          .onSegment (fromPeer 7001 1001 (Flag.fin ||| Flag.ack)) 64 3,
          .onSegment (fromPeer 7002 1002 Flag.ack) 64 4] w ∧
      w.conn.peerFinished = true ∧ w.acknowledged = true ∧ w.conn.state = .finWait := by
  constructor
  · exact ⟨_,(((((Run.start _).more rfl).more rfl).more rfl).more rfl).more rfl,by decide,by decide,by decide⟩
  · exact ⟨_,(((((Run.start _).more rfl).more rfl).more rfl).more rfl).more rfl,by decide,by decide,by decide⟩

end Closing
end Tessera.Tcp
