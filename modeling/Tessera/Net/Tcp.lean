import Tessera.Lib.SerialNumber

/-!
The transport of `api/net`: a connection's sequence state, its send buffer and its
retransmission timer, as `tcp.rs` has them. A segment is what is written and parsed;
its bytes on the wire and its checksum are not modelled. The send buffer, an array
whose used places come first, is a list. Times are nanoseconds, which the caller gives.
-/
namespace Tessera.Tcp
open SerialNumber

abbrev Byte := BitVec 8

namespace Flag
def fin : BitVec 8 := 0x01
def syn : BitVec 8 := 0x02
def rst : BitVec 8 := 0x04
def psh : BitVec 8 := 0x08
def ack : BitVec 8 := 0x10
end Flag

def headerLen : Nat := 20
def window : BitVec 16 := 4096
def initialRtoNanos : Nat := 1000000000
def minRtoNanos : Nat := 200000000
def maxRtoNanos : Nat := 60000000000
def clockGranularityNanos : Nat := 1000000
def maxRetransmissions : Nat := 3
def giveUpNanos : Nat := 8000000000
def maxSegmentPayload : Nat := 256
def maxUnacked : Nat := 4

def satAdd (a b : Nat) : Nat := min (a + b) (2 ^ 64 - 1)

structure Segment where
  srcPort : BitVec 16
  dstPort : BitVec 16
  seq : BitVec 32
  ack : BitVec 32
  flags : BitVec 8
  window : BitVec 16
  payload : List Byte
  deriving DecidableEq

def Segment.has (s : Segment) (f : BitVec 8) : Bool := s.flags &&& f != 0

def Segment.sequenceLen (s : Segment) : Nat :=
  s.payload.length + (if s.has Flag.syn then 1 else 0) + (if s.has Flag.fin then 1 else 0)

/-- The segment written into a buffer with that much room, if it fits there and into the
    length field of the pseudo-header. -/
def write (room : Nat) (srcPort dstPort : BitVec 16) (seq ack : BitVec 32) (flags : BitVec 8)
    (payload : List Byte) : Option Segment :=
  if headerLen + payload.length ≤ room ∧ headerLen + payload.length < 2 ^ 16 then
    some ⟨srcPort, dstPort, seq, ack, flags, window, payload⟩
  else none

structure Sent where
  seq : BitVec 32
  flags : BitVec 8
  payload : List Byte
  span : Nat
  deriving DecidableEq

def Sent.stop (s : Sent) : BitVec 32 := s.seq + BitVec.ofNat 32 s.span

structure Unacked extends Sent where
  sentAt : Nat
  deadline : Nat
  retransmits : Nat
  deriving DecidableEq

def seqLeq (a b : BitVec 32) : Bool := decide (0 ≤ (b - a).toInt)

inductive State where
  | closed
  | synSent
  | established
  | finWait
  | done
  | reset
  | aborted
  deriving DecidableEq

structure Connection where
  state : State
  localPort : BitVec 16
  remotePort : BitVec 16
  sndNxt : BitVec 32
  sndUna : BitVec 32
  rcvNxt : BitVec 32
  peerFinished : Bool
  srtt : Option Nat
  rttvar : Nat
  rto : Nat
  retransmissions : Nat
  unacked : List Unacked
  sndWnd : BitVec 16
  deriving DecidableEq

namespace Connection

section
variable (c : Connection) (segment : Segment)

def connect (localPort remotePort : BitVec 16) (isn : BitVec 32) : Connection :=
  ⟨.synSent, localPort, remotePort, isn + 1, isn, 0, false, none, 0, initialRtoNanos, 0, [],
    BitVec.ofNat 16 maxSegmentPayload⟩

def queue (seq : BitVec 32) (flags : BitVec 8) (payload : List Byte) (span now : Nat) : Connection :=
  if c.unacked.length < maxUnacked then
    { c with unacked := c.unacked ++
        [⟨⟨seq, flags, payload.take maxSegmentPayload, span⟩, now, satAdd now c.rto, 0⟩] }
  else c

def inFlight : Nat := (c.unacked.map (·.span)).sum

def hasRoomFor (bytes : Nat) : Bool :=
  decide (c.unacked.length < maxUnacked) && decide (c.inFlight + bytes ≤ c.sndWnd.toNat)

def syn (c : Connection) (room now : Nat) : Option Segment × Connection :=
  match write room c.localPort c.remotePort c.sndUna 0 Flag.syn [] with
  | none => (none, c)
  | some s => (some s, c.queue c.sndUna Flag.syn [] 1 now)

def ack (c : Connection) (room : Nat) : Option Segment :=
  write room c.localPort c.remotePort c.sndNxt c.rcvNxt Flag.ack []

def send (room : Nat) (payload : List Byte) (now : Nat) : Option Segment × Connection :=
  if c.state ≠ .established then (none, c)
  else if payload.length > maxSegmentPayload ∨ c.hasRoomFor payload.length = false then (none, c)
  else
    match write room c.localPort c.remotePort c.sndNxt c.rcvNxt (Flag.ack ||| Flag.psh) payload with
    | none => (none, c)
    | some s =>
      (some s, { c with sndNxt := c.sndNxt + BitVec.ofNat 32 payload.length }.queue c.sndNxt (Flag.ack ||| Flag.psh)
        payload payload.length now)

def close (room now : Nat) : Option Segment × Connection :=
  if c.state ≠ .established ∨ c.hasRoomFor 1 = false then (none, c)
  else
    match write room c.localPort c.remotePort c.sndNxt c.rcvNxt (Flag.ack ||| Flag.fin) [] with
    | none => (none, c)
    | some s =>
      (some s, { c with sndNxt := c.sndNxt + 1, state := .finWait }.queue c.sndNxt (Flag.ack ||| Flag.fin) [] 1 now)

def backedOff : Nat := min (min (c.rto * 2) (2 ^ 64 - 1)) maxRtoNanos

def onTimeout (room now : Nat) : Option Segment × Connection :=
  match c.unacked with
  | [] => (none, c)
  | held :: rest =>
    if now < held.deadline then (none, c)
    else if held.retransmits ≥ maxRetransmissions ∨ now - held.sentAt ≥ giveUpNanos then
      (none, { c with unacked := [], state := .aborted })
    else
      match write room c.localPort c.remotePort held.seq c.rcvNxt held.flags held.payload with
      | none => (none, { c with rto := c.backedOff, retransmissions := c.retransmissions + 1 })
      | some s =>
        (some s, { c with
          rto := c.backedOff
          retransmissions := c.retransmissions + 1
          unacked :=
            { held with
              retransmits := held.retransmits + 1
              deadline := min (satAdd now c.backedOff) (satAdd held.sentAt giveUpNanos) } :: rest })

def sampleRtt (measured : Nat) : Connection :=
  match c.srtt with
  | none => { c with
      srtt := some measured
      rttvar := measured / 2
      rto := max minRtoNanos (min maxRtoNanos (satAdd measured (max (4 * (measured / 2)) clockGranularityNanos))) }
  | some srtt => { c with
      srtt := some ((srtt * 7 + measured) / 8)
      rttvar := (c.rttvar * 3 + (max srtt measured - min srtt measured)) / 4
      rto := max minRtoNanos (min maxRtoNanos (satAdd ((srtt * 7 + measured) / 8)
        (max (4 * ((c.rttvar * 3 + (max srtt measured - min srtt measured)) / 4)) clockGranularityNanos))) }

def releasedBy (ack : BitVec 32) : List Unacked :=
  c.unacked.takeWhile fun held => seqLeq held.stop ack

/-- The newest released segment that was sent only once gives the round trip. -/
def measure (released : List Unacked) (now : Nat) : Connection :=
  match (released.filter (·.retransmits == 0)).getLast? with
  | none => c
  | some held => c.sampleRtt (now - held.sentAt)

def restart (now : Nat) : Connection :=
  match c.unacked with
  | [] => c
  | front :: rest => { c with unacked := { front with deadline := satAdd now c.rto } :: rest }

def acknowledge (ack : BitVec 32) (now : Nat) : Connection :=
  if c.releasedBy ack = [] then c
  else
    ({ c with unacked := c.unacked.drop (c.releasedBy ack).length }.measure (c.releasedBy ack) now).restart now

def opened (now : Nat) : Connection :=
  { c with
    rcvNxt := segment.seq + 1
    sndUna := segment.ack
    state := .established
    sndWnd := segment.window }.acknowledge segment.ack now

/-- A gap or a repeat in the peer's direction still acknowledges. -/
def heard (now : Nat) : Connection :=
  if segment.has Flag.ack then { c with sndWnd := segment.window }.acknowledge segment.ack now else c

def acked (now : Nat) : Connection :=
  if segment.has Flag.ack then
    { c with sndUna := segment.ack, sndWnd := segment.window }.acknowledge segment.ack now
  else c

def advanced : Connection :=
  { c with
    rcvNxt := c.rcvNxt + BitVec.ofNat 32 segment.sequenceLen
    peerFinished := c.peerFinished || segment.has Flag.fin
    state := if segment.has Flag.fin ∧ c.state = .finWait ∧ c.sndUna = c.sndNxt then .done else c.state }

def taken (now : Nat) : Connection := (c.acked segment now).advanced segment

def isFor : Bool :=
  segment.dstPort == c.localPort && segment.srcPort == c.remotePort

/-- How many bytes of the payload are new, the acknowledgement owed, and the connection after. -/
def onSegment (room now : Nat) : Nat × Option Segment × Connection :=
  if c.isFor segment = false then (0, none, c)
  else if segment.has Flag.rst then (0, none, { c with state := .reset })
  else
    match c.state with
    | .synSent =>
      if segment.has Flag.syn ∧ segment.has Flag.ack then
        (0, (c.opened segment now).ack room, c.opened segment now)
      else (0, none, c)
    | .established | .finWait =>
      if segment.seq ≠ c.rcvNxt then (0, (c.heard segment now).ack room, c.heard segment now)
      else
        (segment.payload.length,
          if segment.payload.length > 0 ∨ segment.has Flag.fin then (c.taken segment now).ack room else none,
          c.taken segment now)
    | .closed | .done | .reset | .aborted => (0, none, c)

end

end Connection

inductive Call where
  | syn (room now : Nat)
  | send (room : Nat) (payload : List Byte) (now : Nat)
  | close (room now : Nat)
  | onTimeout (room now : Nat)
  | onSegment (segment : Segment) (room now : Nat)
  deriving DecidableEq

def Connection.after (c : Connection) : Call → Connection
  | .syn room now => (c.syn room now).2
  | .send room payload now => (c.send room payload now).2
  | .close room now => (c.close room now).2
  | .onTimeout room now => (c.onTimeout room now).2
  | .onSegment segment room now => (c.onSegment segment room now).2.2

/-- A connection without its timers and the peer's window: where both directions are, and
    what the held segments were first sent with. -/
structure Core where
  state : State
  localPort : BitVec 16
  remotePort : BitVec 16
  sndNxt : BitVec 32
  sndUna : BitVec 32
  rcvNxt : BitVec 32
  peerFinished : Bool
  held : List Sent
  deriving DecidableEq

def Connection.core (c : Connection) : Core :=
  ⟨c.state, c.localPort, c.remotePort, c.sndNxt, c.sndUna, c.rcvNxt, c.peerFinished, c.unacked.map Unacked.toSent⟩

namespace Core

section
variable (k : Core) (segment : Segment)

/-- The segment is for this connection and resets nothing, so that an open connection acts on it. -/
def listens : Bool :=
  segment.dstPort == k.localPort && segment.srcPort == k.remotePort && !segment.has Flag.rst

def isOpen : Bool := decide (k.state = .established ∨ k.state = .finWait)

def release (ack : BitVec 32) : Core :=
  { k with held := k.held.dropWhile fun held => seqLeq held.stop ack }

def heard : Core := if segment.has Flag.ack then k.release segment.ack else k

def acked : Core :=
  if segment.has Flag.ack then { k with sndUna := segment.ack }.release segment.ack else k

def advanced : Core :=
  { k with
    rcvNxt := k.rcvNxt + BitVec.ofNat 32 segment.sequenceLen
    peerFinished := k.peerFinished || segment.has Flag.fin
    state := if segment.has Flag.fin ∧ k.state = .finWait ∧ k.sndUna = k.sndNxt then .done else k.state }

def push (sent : Sent) : Core := { k with held := k.held ++ [sent] }

/-- What a call can do to a connection, its timers apart. -/
inductive Moves (k : Core) : Call → Core → Prop where
  | idle {call : Call} (deaf : ∀ segment room now, call = .onSegment segment room now →
      (k.listens segment && k.isOpen) = false) : Moves k call k
  | opening {room now : Nat} (free : k.held.length < maxUnacked) :
    Moves k (.syn room now) (k.push ⟨k.sndUna, Flag.syn, [], 1⟩)
  | sending {room now : Nat} {payload : List Byte} (opened : k.state = .established)
      (small : payload.length ≤ maxSegmentPayload) (free : k.held.length < maxUnacked) :
    Moves k (.send room payload now) ({ k with sndNxt := k.sndNxt + BitVec.ofNat 32 payload.length }.push
      ⟨k.sndNxt, Flag.ack ||| Flag.psh, payload, payload.length⟩)
  | closing {room now : Nat} (opened : k.state = .established) (free : k.held.length < maxUnacked) :
    Moves k (.close room now) ({ k with sndNxt := k.sndNxt + 1, state := .finWait }.push
      ⟨k.sndNxt, Flag.ack ||| Flag.fin, [], 1⟩)
  | aborting {room now : Nat} (waiting : k.held ≠ []) :
    Moves k (.onTimeout room now) { k with held := [], state := .aborted }
  | resetting {segment : Segment} {room now : Nat} (resets : segment.has Flag.rst = true) :
    Moves k (.onSegment segment room now) { k with state := .reset }
  | opened {segment : Segment} {room now : Nat} (addressed : k.listens segment = true) (waiting : k.state = .synSent)
      (syn : segment.has Flag.syn = true) (ack : segment.has Flag.ack = true) :
    Moves k (.onSegment segment room now)
      ({ k with rcvNxt := segment.seq + 1, sndUna := segment.ack, state := .established }.release segment.ack)
  | heard {segment : Segment} {room now : Nat} (addressed : k.listens segment = true) (open_ : k.isOpen = true)
      (elsewhere : segment.seq ≠ k.rcvNxt) : Moves k (.onSegment segment room now) (k.heard segment)
  | taken {segment : Segment} {room now : Nat} (addressed : k.listens segment = true) (open_ : k.isOpen = true)
      (here : segment.seq = k.rcvNxt) : Moves k (.onSegment segment room now) ((k.acked segment).advanced segment)

end

end Core

theorem seqLeq_iff (a b : BitVec 32) : seqLeq a b = true ↔ ahead a b < 2 ^ 31 := by
  rw [seqLeq, decide_eq_true_iff, BitVec.toInt_eq_toNat_cond, ahead]
  split <;> omega

variable {payload : List Byte}

theorem write_eq_some {seq ack : BitVec 32} (done : write room a b seq ack flags payload = some s) :
    s = ⟨a, b, seq, ack, flags, window, payload⟩ := by
  unfold write at done
  split at done
  · exact (Option.some.inj done).symm
  · cases done

namespace Connection
variable {c : Connection} {segment : Segment} {ackNumber : BitVec 32} {room now : Nat}

@[simp] theorem measure_core (released : List Unacked) : (c.measure released now).core = c.core := by
  unfold measure
  split
  · rfl
  · unfold sampleRtt
    split <;> rfl

@[simp] theorem restart_core : (c.restart now).core = c.core := by
  unfold restart
  split
  · rfl
  · rename_i there
    simp [core, there]

theorem drop_releasedBy (ackNumber : BitVec 32) (held : List Unacked) :
    (held.drop (held.takeWhile fun h => seqLeq h.stop ackNumber).length).map Unacked.toSent =
      (held.map Unacked.toSent).dropWhile fun h => seqLeq h.stop ackNumber := by
  induction held with
  | nil => rfl
  | cons h rest ih =>
    by_cases covered : seqLeq h.stop ackNumber = true
    · simp [covered, ih]
    · simp [covered]

@[simp] theorem acknowledge_core : (c.acknowledge ackNumber now).core = c.core.release ackNumber := by
  have left := drop_releasedBy ackNumber c.unacked
  unfold acknowledge releasedBy
  split
  · rename_i none
    rw [none, List.length_nil, List.drop_zero] at left
    simp [Core.release, core, ← left]
  · rw [restart_core, measure_core]
    simp [Core.release, core, left]

theorem queue_core {span : Nat} (free : c.unacked.length < maxUnacked) (small : payload.length ≤ maxSegmentPayload) :
    (c.queue seq flags payload span now).core = c.core.push ⟨seq, flags, payload, span⟩ := by
  simp [queue, free, core, Core.push, List.take_of_length_le small]

theorem syn_moves : Core.Moves c.core (.syn room now) (c.syn room now).2.core := by
  unfold syn
  split
  · exact .idle nofun
  by_cases free : c.unacked.length < maxUnacked
  · rw [queue_core free (Nat.zero_le _)]
    exact .opening (by simpa [core] using free)
  · rw [queue, if_neg free]
    exact .idle nofun

theorem hasRoomFor_free (room : c.hasRoomFor bytes = true) : c.core.held.length < maxUnacked := by
  simp only [hasRoomFor, Bool.and_eq_true] at room
  simpa [core] using room.1

theorem send_moves : Core.Moves c.core (.send room payload now) (c.send room payload now).2.core := by
  unfold send
  split
  · exact .idle nofun
  rename_i opened
  split
  · exact .idle nofun
  rename_i fits
  split
  · exact .idle nofun
  simp only [not_or, Bool.not_eq_false, Nat.not_lt] at fits
  have free := hasRoomFor_free fits.2
  rw [queue_core (by simpa [core] using free) fits.1]
  exact .sending (not_not.mp opened) fits.1 free

theorem close_moves : Core.Moves c.core (.close room now) (c.close room now).2.core := by
  unfold close
  split
  · exact .idle nofun
  rename_i fits
  split
  · exact .idle nofun
  simp only [not_or, not_not, Bool.not_eq_false] at fits
  have free := hasRoomFor_free fits.2
  rw [queue_core (by simpa [core] using free) (Nat.zero_le _)]
  exact .closing fits.1 free

theorem onTimeout_moves : Core.Moves c.core (.onTimeout room now) (c.onTimeout room now).2.core := by
  unfold onTimeout
  split
  · exact .idle nofun
  rename_i there
  split
  · exact .idle nofun
  split
  · exact .aborting (by simp [core, there])
  split
  · exact .idle nofun
  have idle : Core.Moves c.core (.onTimeout room now) c.core := .idle nofun
  simpa [core, there] using idle

theorem opened_core : (c.opened segment now).core =
    { c.core with rcvNxt := segment.seq + 1, sndUna := segment.ack, state := .established }.release segment.ack := by
  rw [opened, acknowledge_core]
  rfl

theorem heard_core : (c.heard segment now).core = c.core.heard segment := by
  unfold heard Core.heard
  split
  · rw [acknowledge_core]
    rfl
  · rfl

theorem taken_core : (c.taken segment now).core = (c.core.acked segment).advanced segment := by
  have same : (c.acked segment now).core = c.core.acked segment := by
    unfold acked Core.acked
    split
    · rw [acknowledge_core]
      rfl
    · rfl
  rw [← same]
  rfl

theorem onSegment_moves : Core.Moves c.core (.onSegment segment room now) (c.onSegment segment room now).2.2.core := by
  have quiet : (c.core.listens segment && c.core.isOpen) = false → Core.Moves c.core (.onSegment segment room now) c.core := by
    intro deaf
    refine .idle fun _ _ _ same => ?_
    cases same
    exact deaf
  unfold onSegment
  split
  · rename_i stranger
    refine quiet ?_
    simp only [isFor] at stranger
    simp only [Core.listens, core, stranger, Bool.false_and]
  rename_i ours
  split
  · rename_i resets
    exact .resetting resets
  rename_i goesOn
  have addressed : c.core.listens segment = true := by
    simp only [isFor] at ours
    simp only [Core.listens, core, ours, Bool.not_eq_true']
    simpa using goesOn
  have acts : c.core.isOpen = true → Core.Moves c.core (.onSegment segment room now)
      (if segment.seq ≠ c.rcvNxt then c.heard segment now else c.taken segment now).core := by
    intro open_
    split
    · rename_i elsewhere
      rw [heard_core]
      exact .heard addressed open_ elsewhere
    · rename_i here
      rw [taken_core]
      exact .taken addressed open_ (not_not.mp here)
  cases state : c.state with
  | synSent =>
    dsimp only
    split
    · rename_i flags
      rw [opened_core]
      exact .opened addressed state flags.1 flags.2
    · exact quiet (by simp [Core.isOpen, core, state])
  | established | finWait =>
    have moves := acts (by simp [Core.isOpen, core, state])
    dsimp only
    split
    · rwa [if_pos ‹_›] at moves
    · rwa [if_neg ‹_›] at moves
  | closed | done | reset | aborted => exact quiet (by simp [Core.isOpen, core, state])

/-- The one account of what a call does that everything below rests on. -/
theorem after_moves (c : Connection) (call : Call) : Core.Moves c.core call (c.after call).core := by
  cases call with
  | syn => exact syn_moves
  | send => exact send_moves
  | close => exact close_moves
  | onTimeout => exact onTimeout_moves
  | onSegment => exact onSegment_moves

end Connection
end Tessera.Tcp
