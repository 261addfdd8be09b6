import Tessera.Net.TcpClosing

/-!
What a connection delivers and what it sends again. The peer has one stream of bytes; its
SYN, the bytes and its FIN take up consecutive sequence numbers from the one it starts with.
The network may bring any of its segments, at any time and any number of times. As long as
those numbers are all different, the bytes that are reported new are a prefix of the stream.
The segments held are contiguous, and one that is sent again is as it was first sent.
-/
namespace Tessera.Tcp
open SerialNumber List
variable {segment : Segment} {room now : Nat}

/-- A segment of a peer that sends the stream: a SYN in front, or some of the bytes at their
    place, with the FIN only behind the last of them. -/
def FromPeer (irs : BitVec 32) (stream : List Byte) (segment : Segment) : Prop :=
  ∃ place, place ≤ stream.length + 2 ∧ segment.seq = irs + BitVec.ofNat 32 place ∧
    if segment.has Flag.syn then place = 0
    else 1 ≤ place ∧ segment.payload <+: stream.drop (place - 1) ∧
      (segment.has Flag.fin = true → place - 1 + segment.payload.length = stream.length)

namespace Core
variable {k k' : Core} {u : Sent} {held : List Sent} {nxt irs : BitVec 32} {call : Call}
  {stream received : List Byte}

/-- The segments follow one another without a gap, and the last ends at the number given. -/
def Contiguous (nxt : BitVec 32) : List Sent → Prop
  | [] => True
  | u :: rest => u.stop = (rest.head?.map Sent.seq).getD nxt ∧ Contiguous nxt rest

theorem Contiguous.push (contiguous : Contiguous nxt held) (start : u.seq = nxt) : Contiguous u.stop (held ++ [u]) := by
  induction held with
  | nil => exact ⟨rfl,trivial⟩
  | cons v rest ih =>
    refine ⟨?_,ih contiguous.2⟩
    cases rest with
    | nil => exact contiguous.1.trans start.symm
    | cons => exact contiguous.1

theorem Contiguous.dropWhile (contiguous : Contiguous nxt held) (p : Sent → Bool) :
    Contiguous nxt (held.dropWhile p) := by
  induction held with
  | nil => exact contiguous
  | cons v rest ih =>
    rw [dropWhile_cons]
    split
    · exact ih contiguous.2
    · exact contiguous

/-- The SYN goes out only into an empty buffer. -/
theorem Contiguous.moves (contiguous : Contiguous k.sndNxt k.held) (buffered : Buffered k)
    (first : ∀ room now, call = .syn room now → k.state = .synSent ∧ k.held = []) (moves : Moves k call k') :
    Contiguous k'.sndNxt k'.held := by
  cases moves with
  | idle => exact contiguous
  | opening =>
    obtain ⟨waiting,none⟩ := first _ _ rfl
    rw [Core.push, none]
    exact ⟨buffered.opening waiting,trivial⟩
  | @sending _ _ payload =>
    exact contiguous.push (u := ⟨k.sndNxt, Flag.ack ||| Flag.psh, payload, payload.length⟩) rfl
  | closing => exact contiguous.push (u := ⟨k.sndNxt, Flag.ack ||| Flag.fin, [], 1⟩) rfl
  | aborting => exact trivial
  | resetting => exact contiguous
  | opened => exact contiguous.dropWhile _
  | heard =>
    unfold heard
    split
    · exact contiguous.dropWhile _
    · exact contiguous
  | @taken segment =>
    have kept : Contiguous (k.acked segment).sndNxt (k.acked segment).held := by
      unfold acked
      split
      · exact contiguous.dropWhile _
      · exact contiguous
    exact kept

/-- The bytes that are new to this end: those of a segment that starts where it is expecting. -/
def newBytes (k : Core) : Call → List Byte
  | .onSegment segment _ _ =>
    if k.listens segment ∧ k.isOpen ∧ segment.seq = k.rcvNxt then segment.payload else []
  | _ => []

theorem Moves.taken_eq (moves : Moves k (.onSegment segment room now) k') (addressed : k.listens segment = true)
    (open_ : k.isOpen = true) (here : segment.seq = k.rcvNxt) : k' = (k.acked segment).advanced segment := by
  cases moves with
  | idle deaf =>
    have silent := deaf segment room now rfl
    simp [addressed, open_] at silent
  | resetting resets => simp [listens, resets] at addressed
  | opened _ waiting => exact absurd waiting (isOpen_not_opening open_)
  | heard _ _ elsewhere => exact absurd here elsewhere
  | taken => rfl

/-- How far the receiving side is: past the SYN, the bytes received, and the FIN. -/
structure Delivered (irs : BitVec 32) (stream : List Byte) (k : Core) (received : List Byte) : Prop where
  inOrder : received <+: stream
  place : k.isOpen = true → k.rcvNxt = irs + BitVec.ofNat 32 (1 + received.length + if k.peerFinished then 1 else 0)
  finished : k.peerFinished = true → received = stream
  waiting : k.state = .synSent → received = [] ∧ k.peerFinished = false

section
variable (delivered : Delivered irs stream k received)
include delivered

theorem Delivered.same (rcv : k'.rcvNxt = k.rcvNxt)
    (fin : k'.peerFinished = k.peerFinished) (open_ : k'.isOpen = true → k.isOpen = true)
    (waiting : k'.state = .synSent → k.state = .synSent) : Delivered irs stream k' received where
  inOrder := delivered.inOrder
  place isOpen := by
    rw [rcv, fin]
    exact delivered.place (open_ isOpen)
  finished done := delivered.finished (fin ▸ done)
  waiting early := by
    rw [fin]
    exact delivered.waiting (waiting early)

section
variable (distinct : stream.length + 2 < 2 ^ 32)
include distinct

theorem Delivered.next
    (open_ : k.isOpen = true) (here : segment.seq = k.rcvNxt) (peer : FromPeer irs stream segment) :
    segment.has Flag.syn = false ∧ received ++ segment.payload <+: stream ∧
      (k.peerFinished = true → segment.payload = [] ∧ segment.has Flag.fin = false) ∧
      (segment.has Flag.fin = true → received ++ segment.payload = stream) := by
  obtain ⟨place,_,seq,body⟩ := peer
  have short := delivered.inOrder.length_le
  have known := delivered.place open_
  have position : place = 1 + received.length + if k.peerFinished then 1 else 0 := by
    rw [← here, seq, add_right_inj] at known
    have values := congrArg BitVec.toNat known
    simp only [BitVec.toNat_ofNat] at values
    split <;> simp_all <;> omega
  have plain : segment.has Flag.syn = false := by
    by_contra syn
    rw [if_pos (Bool.eq_true_of_not_eq_false syn)] at body
    omega
  rw [plain] at body
  obtain ⟨_,bytes,last⟩ := body
  by_cases fin : k.peerFinished = true
  · have all := delivered.finished fin
    rw [if_pos fin, all] at position
    have none : segment.payload = [] := by
      rw [drop_eq_nil_of_le (by omega)] at bytes
      exact prefix_nil.mp bytes
    have again : segment.has Flag.fin = false := by
      by_contra fin
      have ended := last (Bool.eq_true_of_not_eq_false fin)
      omega
    rw [none, append_nil, again]
    exact ⟨plain,delivered.inOrder,fun _ => ⟨rfl,rfl⟩,nofun⟩
  · rw [if_neg fin] at position
    have here : place - 1 = received.length := by omega
    rw [here] at bytes last
    have grown : received ++ segment.payload <+: stream := by
      have joined := (prefix_append_right_inj received).mpr bytes
      rwa [prefix_iff_eq_append.mp delivered.inOrder] at joined
    refine ⟨plain,grown,fun done => absurd done fin,fun ends => grown.eq_of_length ?_⟩
    rw [length_append]
    exact last ends

theorem Delivered.taken
    (open_ : k.isOpen = true) (here : segment.seq = k.rcvNxt) (peer : FromPeer irs stream segment) :
    Delivered irs stream ((k.acked segment).advanced segment) (received ++ segment.payload) := by
  obtain ⟨plain,grown,ended,ends⟩ := delivered.next distinct open_ here peer
  obtain ⟨rcv,fin,same⟩ : (k.acked segment).rcvNxt = k.rcvNxt ∧ (k.acked segment).peerFinished = k.peerFinished ∧
      (k.acked segment).isOpen = k.isOpen := by
    unfold acked
    split <;> exact ⟨rfl,rfl,rfl⟩
  refine ⟨grown,fun _ => ?_,fun finished => ?_,fun waiting => absurd waiting (advanced_not_opening (same.trans open_))⟩
  · simp only [advanced, rcv, fin, delivered.place open_, Segment.sequenceLen, plain]
    rw [add_assoc, ← BitVec.ofNat_add]
    congr 2
    rw [length_append]
    by_cases finished : k.peerFinished = true
    · simp [ended finished]
    · simp only [finished, Bool.false_or, Bool.false_eq_true, if_false]
      omega
  · simp only [advanced, fin, Bool.or_eq_true] at finished
    rcases finished with before | now
    · rw [(ended before).1, append_nil]
      exact delivered.finished before
    · exact ends now

theorem Delivered.moves (peer : ∀ segment room now, call = .onSegment segment room now → k.listens segment = true →
      FromPeer irs stream segment) (moves : Moves k call k') :
    Delivered irs stream k' (received ++ k.newBytes call) := by
  have quiet : k.newBytes call = [] → Delivered irs stream k' received →
      Delivered irs stream k' (received ++ k.newBytes call) := by
    intro none _
    rwa [none, append_nil]
  cases moves with
  | idle deaf =>
    refine quiet ?_ delivered
    cases call with
    | onSegment segment room now =>
      have silent := deaf segment room now rfl
      refine if_neg fun new => ?_
      simp [new.1, new.2.1] at silent
    | _ => rfl
  | opening | sending => exact quiet rfl (delivered.same rfl rfl id id)
  | closing opened => exact quiet rfl (delivered.same rfl rfl (fun _ => by simp [isOpen, opened]) (by simp [push]))
  | aborting => exact quiet rfl (delivered.same rfl rfl (by simp [isOpen]) (by simp))
  | resetting resets => exact quiet (if_neg (by simp [listens, resets])) (delivered.same rfl rfl (by simp [isOpen]) (by simp))
  | opened addressed waiting syn =>
    obtain ⟨_,_,seq,body⟩ := peer _ _ _ rfl addressed
    obtain ⟨none,unfinished⟩ := delivered.waiting waiting
    rw [if_pos syn] at body
    refine quiet (if_neg (by simp [isOpen, waiting])) ⟨delivered.inOrder,fun _ => ?_,delivered.finished,by simp [release]⟩
    simp [release, seq, body, none, unfinished]
  | @heard segment _ _ _ _ elsewhere =>
    refine quiet (if_neg fun new => elsewhere new.2.2) ?_
    unfold heard
    split
    · exact delivered.same rfl rfl id id
    · exact delivered
  | taken addressed open_ here =>
    rw [newBytes, if_pos ⟨addressed,open_,here⟩]
    exact delivered.taken distinct open_ here (peer _ _ _ rfl addressed)

end

end

end Core

namespace Connection
variable {c : Connection}

/-- The bytes a call reports as new. -/
def delivered (c : Connection) : Call → List Byte
  | .onSegment segment room now => segment.payload.take (c.onSegment segment room now).1
  | _ => []

/-- The segments a call sends for the first time. -/
def sends (c : Connection) : Call → List Segment
  | .syn room now => (c.syn room now).1.toList
  | .send room payload now => (c.send room payload now).1.toList
  | .close room now => (c.close room now).1.toList
  | _ => []

theorem delivered_core (call : Call) : c.delivered call = c.core.newBytes call := by
  cases call with
  | onSegment segment room now =>
    have new : c.core.newBytes (.onSegment segment room now) =
        if (c.isFor segment && !segment.has Flag.rst) = true ∧ c.core.isOpen = true ∧ segment.seq = c.rcvNxt then
          segment.payload else [] := rfl
    rw [new]
    change segment.payload.take (c.onSegment segment room now).1 = _
    unfold onSegment
    split
    · rename_i stranger
      simp [stranger]
    split
    · rename_i resets
      simp [resets]
    have open_ : c.core.isOpen = true ↔ c.state = .established ∨ c.state = .finWait := decide_eq_true_iff
    cases state : c.state with
    | synSent =>
      dsimp only
      split <;> simp [open_, state]
    | established | finWait =>
      dsimp only
      split <;> simp_all
    | _ => simp [open_, state]
  | _ => rfl

/-- The segment carries what the held one was first sent with. -/
def AsSent (s : Segment) (u : Sent) : Prop := s.seq = u.seq ∧ s.flags = u.flags ∧ s.payload = u.payload

theorem queue_sent {d : Connection} {flags : BitVec 8}
    {payload : List Byte} {span : Nat} {s : Segment} {u : Sent} (same : d.core.held = c.core.held)
    (small : payload.length ≤ maxSegmentPayload) (written : write room a b seq ackNumber flags payload = some s)
    (there : u ∈ (d.queue seq flags payload span now).core.held) :
    u ∈ c.core.held ∨ ∃ s' ∈ (some s).toList, AsSent s' u := by
  by_cases free : d.unacked.length < maxUnacked
  · rw [queue_core free small, Core.push, mem_append, mem_singleton, same] at there
    refine there.imp id fun new => ⟨s,by simp,?_⟩
    rw [new, write_eq_some written]
    exact ⟨rfl,rfl,rfl⟩
  · rw [queue, if_neg free, same] at there
    exact .inl there

theorem held_sent {u : Sent} (call : Call) (there : u ∈ (c.after call).core.held) :
    u ∈ c.core.held ∨ ∃ s ∈ c.sends call, AsSent s u := by
  have moves := c.after_moves call
  cases call with
  | syn =>
    simp only [after, sends, syn] at there ⊢
    split at there
    · exact .inl there
    · rename_i written
      exact queue_sent rfl (Nat.zero_le _) written there
  | send =>
    simp only [after, sends, send] at there ⊢
    split at there
    · exact .inl there
    rename_i opened
    split at there
    · exact .inl there
    rename_i fits
    rw [if_neg opened, if_neg fits]
    simp only [not_or, Nat.not_lt] at fits
    split at there
    · exact .inl there
    · rename_i written
      exact queue_sent (by rfl) fits.1 written there
  | close =>
    simp only [after, sends, close] at there ⊢
    split at there
    · exact .inl there
    rename_i fits
    rw [if_neg fits]
    split at there
    · exact .inl there
    · rename_i written
      exact queue_sent (by rfl) (Nat.zero_le _) written there
  | onTimeout room now =>
    refine .inl ?_
    generalize (c.after (.onTimeout room now)).core = k' at moves there
    cases moves with
    | idle => exact there
    | aborting => cases there
  | onSegment segment room now =>
    refine .inl ?_
    generalize (c.after (.onSegment segment room now)).core = k' at moves there
    cases moves with
    | idle => exact there
    | resetting => exact there
    | opened => exact (dropWhile_sublist _).mem there
    | heard =>
      unfold Core.heard at there
      split at there
      · exact (dropWhile_sublist _).mem there
      · exact there
    | taken =>
      simp only [Core.acked] at there
      split at there
      · exact (dropWhile_sublist _).mem there
      · exact there

theorem onTimeout_sent (out : (c.onTimeout room now).1 = some s) : ∃ u ∈ c.core.held, AsSent s u := by
  unfold onTimeout at out
  split at out
  · cases out
  rename_i front _ there
  split at out
  · cases out
  split at out
  · cases out
  split at out
  · cases out
  rename_i written
  cases out
  have shape := write_eq_some written
  refine ⟨front.toSent,by simp [core, there],?_⟩
  rw [shape]
  exact ⟨rfl,rfl,rfl⟩

end Connection

/-- A connection, the segments it has sent for the first time, and the bytes it has reported
    new, oldest first. -/
structure Exchange where
  conn : Connection
  sent : List Segment
  received : List Byte
  deriving DecidableEq

namespace Exchange
open Transition Core
variable {irs isn : BitVec 32} {stream : List Byte} {w : Exchange} {history : List Call}
  {localPort remotePort : BitVec 16}

def start (localPort remotePort : BitVec 16) (isn : BitVec 32) : Exchange := ⟨.connect localPort remotePort isn, [], []⟩

def after (w : Exchange) (call : Call) : Exchange :=
  ⟨w.conn.after call, w.sent ++ w.conn.sends call, w.received ++ w.conn.delivered call⟩

def Step (w : Exchange) (call : Call) (w' : Exchange) : Prop := w.after call = w'

/-- The SYN goes out first and once, and the segments that come in are the peer's. -/
def Proper (irs : BitVec 32) (stream : List Byte) (w : Exchange) : Call → Prop
  | .syn _ _ => w.conn.state = .synSent ∧ w.sent = []
  | .onSegment segment _ _ => w.conn.core.listens segment = true → FromPeer irs stream segment
  | _ => True

/-- What holds of a connection after every proper run. -/
structure Faithful (irs : BitVec 32) (stream : List Byte) (w : Exchange) : Prop where
  delivered : Delivered irs stream w.conn.core w.received
  buffered : Buffered w.conn.core
  contiguous : Contiguous w.conn.core.sndNxt w.conn.core.held
  kept : ∀ u ∈ w.conn.core.held, ∃ s ∈ w.sent, Connection.AsSent s u

theorem Faithful.held_nil (faithful : Faithful irs stream w) (unsent : w.sent = []) : w.conn.core.held = [] := by
  refine eq_nil_iff_forall_not_mem.mpr fun u there => ?_
  obtain ⟨_,sent,_⟩ := faithful.kept u there
  rw [unsent] at sent
  cases sent

theorem faithful_run (distinct : stream.length + 2 < 2 ^ 32)
    (run : Disciplined (fun _ => Proper irs stream) Step (start localPort remotePort isn) history w) :
    Faithful irs stream w := by
  refine Disciplined.invariant (fun _ w => Faithful irs stream w) ?_ ?_ run
  · intro _ w call _ faithful proper step
    have moves := w.conn.after_moves call
    have first : ∀ room now, call = .syn room now → w.conn.core.state = .synSent ∧ w.conn.core.held = [] := by
      intro room now same
      subst same
      exact ⟨proper.1,faithful.held_nil proper.2⟩
    have peer : ∀ segment room now, call = .onSegment segment room now → w.conn.core.listens segment = true →
        FromPeer irs stream segment := by
      intro _ room now same
      subst same
      exact proper
    subst step
    refine ⟨?_,faithful.buffered.moves (fun room now same => (first room now same).1) moves,
      faithful.contiguous.moves faithful.buffered first moves,fun u there => ?_⟩
    · rw [after, Connection.delivered_core]
      exact faithful.delivered.moves distinct peer moves
    rcases Connection.held_sent call there with old | ⟨s,new,asSent⟩
    · obtain ⟨s,sent,asSent⟩ := faithful.kept u old
      exact ⟨s,mem_append_left _ sent,asSent⟩
    · exact ⟨s,mem_append_right _ new,asSent⟩
  · exact ⟨⟨ nil_prefix,nofun,nofun,fun _ => ⟨rfl,rfl⟩⟩,⟨trivial,Nat.zero_le _,fun _ => rfl⟩,trivial,nofun⟩

/-- In every run against a peer whose SYN, bytes and FIN have different sequence numbers, over
    a network that loses, repeats and reorders: the bytes reported new are a prefix of the
    peer's; the segments held are contiguous up to the next number to be sent; and what a
    timeout sends again is as it was first sent. -/
theorem stream_is_delivered_in_order (distinct : stream.length + 2 < 2 ^ 32)
    (run : Disciplined (fun _ => Proper irs stream) Step (start localPort remotePort isn) history w) :
    w.received <+: stream ∧ Contiguous w.conn.sndNxt (w.conn.unacked.map Unacked.toSent) ∧
      ∀ room now s, (w.conn.onTimeout room now).1 = some s →
        ∃ first ∈ w.sent, s.seq = first.seq ∧ s.flags = first.flags ∧ s.payload = first.payload := by
  have faithful := faithful_run distinct run
  refine ⟨faithful.delivered.inOrder,faithful.contiguous,fun room now s out => ?_⟩
  obtain ⟨u,held,seq,flags,payload⟩ := Connection.onTimeout_sent out
  obtain ⟨first,sent,asSent⟩ := faithful.kept u held
  exact ⟨first,sent,seq.trans asSent.1.symm,flags.trans asSent.2.1.symm,payload.trans asSent.2.2.symm⟩

/-- A segment of the peer that starts with the given byte of its stream. -/
def piece (n : Nat) (flags : BitVec 8) (payload : List Byte) : Segment :=
  ⟨80, 40000, 7001 + BitVec.ofNat 32 n, 1001, flags, 4096, payload⟩

def greeting : Segment := ⟨80, 40000, 7000, 1001, Flag.syn ||| Flag.ack, 4096, []⟩

theorem greeting_fromPeer : FromPeer 7000 stream greeting := ⟨0,Nat.zero_le _,rfl,rfl⟩

theorem piece_fromPeer (plain : flags &&& Flag.syn = 0)
    (inside : n ≤ stream.length) (bytes : payload <+: stream.drop n)
    (last : flags &&& Flag.fin ≠ 0 → n + payload.length = stream.length) :
    FromPeer 7000 stream (piece n flags payload) := by
  refine ⟨n + 1,by omega,?_,?_⟩
  · rw [Nat.add_comm n 1, BitVec.ofNat_add, ← add_assoc]
    rfl
  · rw [if_neg (by simp [piece, Segment.has, plain])]
    exact ⟨Nat.le_add_left 1 n,bytes,fun fin => last (by simpa [piece, Segment.has] using fin)⟩

theorem hear {segment : Segment}
    (run : Disciplined (fun _ => Proper irs stream) Step (start localPort remotePort isn) history w)
    (peer : FromPeer irs stream segment) :
    Disciplined (fun _ => Proper irs stream) Step (start localPort remotePort isn)
      (history ++ [.onSegment segment 64 0]) (w.after (.onSegment segment 64 0)) :=
  .more run (fun _ => peer) rfl

theorem opened_run (localPort remotePort : BitVec 16) (isn : BitVec 32) :
    Disciplined (fun _ => Proper irs stream) Step (start localPort remotePort isn) [.syn 64 0]
      ((start localPort remotePort isn).after (.syn 64 0)) :=
  .more .start ⟨rfl,rfl⟩ rfl

/-- The second of two bytes is late, and comes when the first has come twice. -/
theorem repeated_byte_is_delivered_once :
    ([.syn 64 0, .onSegment greeting 64 0, .onSegment (piece 0 Flag.ack [1]) 64 0,
      .onSegment (piece 0 Flag.ack [1]) 64 0, .onSegment (piece 1 Flag.ack [2]) 64 0].foldl after
      (start 40000 80 1000)).received <+: [1, 2] := by
  have first : FromPeer 7000 [1, 2] (piece 0 Flag.ack [1]) := piece_fromPeer rfl (by decide) (by decide) (by decide)
  have second : FromPeer 7000 [1, 2] (piece 1 Flag.ack [2]) := piece_fromPeer rfl (by decide) (by decide) (by decide)
  have run := hear (hear (hear (hear (opened_run 40000 80 1000) greeting_fromPeer) first) first) second
  exact (stream_is_delivered_in_order (by decide) run).1

/-- An open connection acknowledges what it has handed up, and takes the FIN behind the last byte only. -/
theorem acknowledges_what_it_took (distinct : stream.length + 2 < 2 ^ 32)
    (run : Disciplined (fun _ => Proper irs stream) Step (start localPort remotePort isn) history w) :
    (w.conn.peerFinished → w.received = stream) ∧ (w.conn.core.isOpen →
      w.conn.rcvNxt = irs + .ofNat 32 (1 + w.received.length + if w.conn.peerFinished then 1 else 0)) := by
  have delivered := (faithful_run distinct run).delivered
  exact ⟨delivered.finished,delivered.place⟩

theorem fin_ends_the_stream :
    ([.syn 64 0, .onSegment greeting 64 0, .onSegment (piece 0 (Flag.fin ||| Flag.ack) [1]) 64 0].foldl after
      (start 40000 80 1000)).received = [1] := by
  have last : FromPeer 7000 [1] (piece 0 (Flag.fin ||| Flag.ack) [1]) :=
    piece_fromPeer rfl (by decide) (by decide) (by decide)
  have run := hear (hear (opened_run 40000 80 1000) greeting_fromPeer) last
  exact (acknowledges_what_it_took (by decide) run).1 (by decide)

/-- How far the peer's stream has been read. -/
structure Reading (n : Nat) (received : List Byte) (w : Exchange) : Prop where
  state : w.conn.state = .established
  ports : w.conn.localPort = 40000 ∧ w.conn.remotePort = 80
  place : w.conn.rcvNxt = 7001 + BitVec.ofNat 32 n
  received : w.received = received

theorem Reading.more {received : List Byte} (reading : Reading n received w) (flags : BitVec 8)
    (payload : List Byte) (unreset : flags &&& Flag.rst = 0) :
    Reading (n + (piece n flags payload).sequenceLen) (received ++ payload)
      (w.after (.onSegment (piece n flags payload) 64 0)) := by
  have addressed : w.conn.core.listens (piece n flags payload) = true := by
    simp [listens, piece, Connection.core, reading.ports, Segment.has, unreset]
  have open_ : w.conn.core.isOpen = true := by simp [isOpen, Connection.core, reading.state]
  have here : (piece n flags payload).seq = w.conn.core.rcvNxt := reading.place.symm
  have core : (w.conn.after (.onSegment (piece n flags payload) 64 0)).core =
      (w.conn.core.acked (piece n flags payload)).advanced (piece n flags payload) :=
    (w.conn.after_moves _).taken_eq addressed open_ here
  have kept : (w.conn.core.acked (piece n flags payload)).state = .established ∧
      (w.conn.core.acked (piece n flags payload)).localPort = 40000 ∧
      (w.conn.core.acked (piece n flags payload)).remotePort = 80 ∧
      (w.conn.core.acked (piece n flags payload)).rcvNxt = 7001 + BitVec.ofNat 32 n := by
    unfold acked
    split <;> exact ⟨reading.state,reading.ports.1,reading.ports.2,reading.place⟩
  refine ⟨?_,⟨?_,?_⟩,?_,?_⟩
  · refine (congrArg Core.state core).trans ?_
    simp [advanced, kept.1]
  · exact (congrArg Core.localPort core).trans kept.2.1
  · exact (congrArg Core.remotePort core).trans kept.2.2.1
  · refine (congrArg Core.rcvNxt core).trans ?_
    rw [advanced, kept.2.2.2, BitVec.ofNat_add, add_assoc]
  have new : w.conn.delivered (.onSegment (piece n flags payload) 64 0) = payload := by
    rw [Connection.delivered_core]
    exact if_pos ⟨addressed,open_,here⟩
  rw [after, new, reading.received]

theorem zero_fromPeer (inside : n < total) : FromPeer 7000 (replicate total 0) (piece n Flag.ack [0]) := by
  refine piece_fromPeer rfl ?_ ?_ (fun fin => absurd rfl fin)
  · rw [length_replicate]
    omega
  · rw [drop_replicate, show total - n = total - n - 1 + 1 by omega]
    exact prefix_append [0] _

theorem reads_zeros {total n : Nat} (inside : n ≤ total) :
    ∃ history w, Disciplined (fun _ => Proper 7000 (replicate total 0)) Step (start 40000 80 1000) history w ∧
      Reading n (replicate n 0) w := by
  induction n with
  | zero => exact ⟨_,_,hear (opened_run 40000 80 1000) greeting_fromPeer,⟨by decide,by decide,by decide,by decide⟩⟩
  | succ n ih =>
    obtain ⟨_,_,run,reading⟩ := ih (Nat.le_of_succ_le inside)
    refine ⟨_,_,hear run (zero_fromPeer inside),?_⟩
    have more := reading.more Flag.ack [0] rfl
    rwa [show (piece n Flag.ack [0]).sequenceLen = 1 by simp [Segment.sequenceLen, Segment.has, piece, Flag.ack,
      Flag.syn, Flag.fin], ← replicate_succ'] at more

/-- A stream of `2 ^ 32 - 1` bytes takes up all sequence numbers but that of the SYN, which is
    then the FIN's: behind the FIN the first byte is expected, and taken, again. And a second
    SYN is held behind the first under the same number. -/
theorem whole_sequence_space_is_read_twice :
    (∃ (stream : List Byte) (history : List Call) (w : Exchange), stream.length < 2 ^ 32 ∧
      Disciplined (fun _ => Proper 7000 stream) Step (start 40000 80 1000) history w ∧ ¬w.received <+: stream) ∧
    ∃ w, Run Step (start 40000 80 1000) [.syn 64 0, .syn 64 0] w ∧
      ¬Contiguous w.conn.sndNxt (w.conn.unacked.map Unacked.toSent) := by
  have crowded : ¬Contiguous (((start 40000 80 1000).after (.syn 64 0)).after (.syn 64 0)).conn.sndNxt
      ((((start 40000 80 1000).after (.syn 64 0)).after (.syn 64 0)).conn.unacked.map Unacked.toSent) :=
    fun held => absurd (And.left held) (by decide)
  refine ⟨?_,_,((Run.start _).more rfl).more rfl,crowded⟩
  obtain ⟨total,all⟩ : ∃ total, total = 2 ^ 32 - 1 := ⟨_,rfl⟩
  obtain ⟨_,w,run,reading⟩ := reads_zeros (Nat.le_refl total)
  have fin : FromPeer 7000 (replicate total 0) (piece total (Flag.fin ||| Flag.ack) []) :=
    piece_fromPeer rfl (by simp) (by simp) (by simp)
  have finished := reading.more (Flag.fin ||| Flag.ack) [] rfl
  have around : Reading 0 (replicate total 0)
      (w.after (.onSegment (piece total (Flag.fin ||| Flag.ack) []) 64 0)) := by
    refine ⟨finished.state,finished.ports,finished.place.trans ?_,finished.received.trans (append_nil _)⟩
    rw [show (piece total (Flag.fin ||| Flag.ack) []).sequenceLen = 1 by simp [Segment.sequenceLen, Segment.has,
      piece, Flag.ack, Flag.syn, Flag.fin], all]
    rfl
  have again := around.more Flag.ack [0] rfl
  refine ⟨replicate total 0,_,_,?_,hear (hear run fin) (zero_fromPeer (n := 0) ?_),fun kept => ?_⟩
  · rw [length_replicate]
    omega
  · omega
  · have longer := kept.length_le
    rw [again.received, length_append, length_singleton] at longer
    omega

end Exchange
end Tessera.Tcp
