import Tessera.Exec.Thread
import Tessera.Object
import Tessera.Lib.Bounded
import Tessera.Lib.Slots

/-!
Channels: two endpoints, each with a bounded queue of messages, one slot for a
sleeping receiver and one for a pending caller. The queue is the list the ring
buffer holds, oldest first. The endpoint looks at a message only through its
transaction and correlation numbers, so it is generic in the rest.
-/
namespace Tessera
open Slots List
variable {M : Type} {cfg : Config}

structure MessageHeader where
  interfaceId : Nat
  methodId : Nat
  flags : Nat
  txnId : Nat
  correlation : Nat
  deriving DecidableEq

structure TransferredHandle where
  object : ObjectId
  rights : Rights
  shared : Bool
  deriving DecidableEq

structure Message (cfg : Config) where
  header : MessageHeader
  inlineBytes : Bounded UInt8 cfg.maxInlineBytes
  handles : Bounded TransferredHandle cfg.maxMsgHandles
  deriving DecidableEq

/-- What the kernel reads and stamps on a message in flight. -/
class Stamped (M : Type) where
  txn : M → Nat
  correlation : M → Nat
  setTxn : M → Nat → M
  setCorrelation : M → Nat → M
  txn_setTxn : ∀ m t, txn (setTxn m t) = t
  txn_setCorrelation : ∀ m c, txn (setCorrelation m c) = txn m

instance {cfg : Config} : Stamped (Message cfg) where
  txn m := m.header.txnId
  correlation m := m.header.correlation
  setTxn m t := { m with header := { m.header with txnId := t } }
  setCorrelation m c := { m with header := { m.header with correlation := c } }
  txn_setTxn _ _ := rfl
  txn_setCorrelation _ _ := rfl

structure Endpoint (M : Type) (cfg : Config) where
  queue : Bounded M cfg.queueCap
  peerClosed : Bool
  blockedReceiver : Option ThreadId
  pendingCaller : Option (ThreadId × Nat)
  abandoned : Nat
  deriving DecidableEq

namespace Endpoint

section
variable (e : Endpoint M cfg)

def new : Endpoint M cfg := ⟨.empty, false, none, none, 0⟩

def enqueue (m : M) : Except KError (Endpoint M cfg) :=
  match e.queue.push m with
  | some queue => .ok { e with queue }
  | none => .error .wouldBlock

theorem tail_fits : e.queue.items.tail.length ≤ cfg.queueCap := by
  have := e.queue.fits
  simp; omega

def dequeue : Option (M × Endpoint M cfg) :=
  match e.queue.items.head? with
  | none => none
  | some m => some (m, { e with queue := ⟨e.queue.items.tail, e.tail_fits⟩ })

/-- The oldest queued message that carries this transaction; the others keep
    their order. -/
def takeReply [Stamped M] (e : Endpoint M cfg) (txn : Nat) : Option (M × Endpoint M cfg) :=
  match e.queue.items.find? (Stamped.txn · == txn) with
  | none => none
  | some m => some (m, { e with queue :=
      ⟨e.queue.items.eraseP (Stamped.txn · == txn), (length_eraseP_le).trans e.queue.fits⟩ })

def markPeerClosed : Endpoint M cfg := { e with peerClosed := true }

def setBlockedReceiver (t : Option ThreadId) : Endpoint M cfg :=
  { e with blockedReceiver := t }

def setPendingCaller (c : Option (ThreadId × Nat)) : Endpoint M cfg :=
  { e with pendingCaller := c }

def abortCall : Endpoint M cfg :=
  { e with abandoned := min (e.abandoned + 1) (2 ^ 32 - 1), pendingCaller := none }

def takeAbandoned : Bool × Endpoint M cfg :=
  if e.abandoned = 0 then (false, e) else (true, { e with abandoned := e.abandoned - 1 })

end

variable {e filled rest : Endpoint M cfg} {m : M}

theorem enqueue_eq_ok (done : e.enqueue m = .ok filled) :
    ∃ queue, filled = { e with queue } ∧ queue.items = e.queue.items ++ [m] := by
  unfold enqueue at done
  split at done
  · rename_i queue pushed
    cases done
    exact ⟨queue,rfl,(Bounded.push_eq_some.mp pushed).2⟩
  · cases done

theorem dequeue_eq_some (done : e.dequeue = some (m, rest)) :
    ∃ queue, rest = { e with queue } ∧ e.queue.items = m :: queue.items := by
  unfold dequeue at done
  split at done
  · cases done
  rename_i found
  cases done
  refine ⟨_,rfl,?_⟩
  exact (cons_head?_tail found).symm

theorem dequeue_eq_none : e.dequeue = none ↔ e.queue.items = [] := by
  unfold dequeue
  split
  · rename_i empty
    simpa using empty
  rename_i found
  simp only [reduceCtorEq, false_iff]
  rintro empty
  simp [empty] at found

theorem takeReply_eq_some [Stamped M] {txn : Nat} (done : e.takeReply txn = some (m, rest)) :
    ∃ queue, rest = { e with queue } ∧ m ∈ e.queue.items ∧ Stamped.txn m = txn ∧
      ∀ other ∈ queue.items, other ∈ e.queue.items := by
  unfold takeReply at done
  split at done
  · cases done
  rename_i found
  cases done
  refine ⟨_,rfl,mem_of_find?_eq_some found,by simpa using find?_some found,?_⟩
  intro _ mem
  exact mem_of_mem_eraseP mem

theorem takeAbandoned_snd (e : Endpoint M cfg) : ∃ abandoned, e.takeAbandoned.2 = { e with abandoned } := by
  unfold takeAbandoned
  split <;> exact ⟨_,rfl⟩

end Endpoint

inductive Side where
  | zero | one
  deriving DecidableEq

def Side.peer : Side → Side
  | .zero => .one
  | .one => .zero

structure EndpointId where
  channel : Nat
  side : Side
  deriving DecidableEq

def EndpointId.peer (e : EndpointId) : EndpointId := ⟨e.channel, e.side.peer⟩

theorem EndpointId.peer_ne (e : EndpointId) : e.peer ≠ e := by
  obtain ⟨_,side⟩ := e
  cases side <;> simp [EndpointId.peer, Side.peer]

structure Channel (M : Type) (cfg : Config) where
  ends : Side → Endpoint M cfg
  objects : Side → Option ObjectId

namespace Channel

def new : Channel M cfg := ⟨fun _ => .new, fun _ => none⟩

def setObject (c : Channel M cfg) (side : Side) (id : ObjectId) : Channel M cfg :=
  { c with objects := Function.update c.objects side (some id) }

end Channel

def channelObjectIdBase : Nat := 0x2000

structure ChannelTable (M : Type) (cfg : Config) where
  channels : Slots (Channel M cfg) cfg.maxChannels
  nextId : Nat

namespace ChannelTable

section
variable (t : ChannelTable M cfg) (e : EndpointId)

def new : ChannelTable M cfg := ⟨.empty, channelObjectIdBase⟩

def create : Except KError (EndpointId × EndpointId) × ChannelTable M cfg :=
  match t.channels.free? with
  | none => (.error .outOfMemory, t)
  | some index => (.ok (⟨index, .zero⟩, ⟨index, .one⟩), { t with channels := t.channels.put index .new })

def setEndpointObject (id : ObjectId) : ChannelTable M cfg :=
  match t.channels.cell e.channel with
  | none => t
  | some c => { t with channels := t.channels.put e.channel (c.setObject e.side id) }

def endpoint? : Option (Endpoint M cfg) :=
  (t.channels.cell e.channel).map (·.ends e.side)

def alterEndpoint (f : Endpoint M cfg → Endpoint M cfg) : ChannelTable M cfg :=
  { t with channels := t.channels.alter e.channel fun c =>
      { c with ends := Function.update c.ends e.side (f (c.ends e.side)) } }

end

theorem endpoint?_alterEndpoint (t : ChannelTable M cfg) (e e' : EndpointId) (f : Endpoint M cfg → Endpoint M cfg) :
    (t.alterEndpoint e f).endpoint? e' = if e' = e then (t.endpoint? e').map f else t.endpoint? e' := by
  obtain ⟨channel,side⟩ := e
  obtain ⟨channel',side'⟩ := e'
  simp only [alterEndpoint, endpoint?, cell_alter]
  by_cases same : channel = channel'
  · subst same
    cases t.channels.cell channel with
    | none => simp
    | some => by_cases aside : side' = side <;> simp [aside]
  · simp [same, Ne.symm same]

def endpointObject (t : ChannelTable M cfg) (e : EndpointId) : Option ObjectId :=
  (t.channels.cell e.channel).bind (·.objects e.side)

def createWithObjects (t : ChannelTable M cfg) : Except KError (EndpointId × EndpointId) × ChannelTable M cfg :=
  match t.create with
  | (.error e, t) => (.error e, t)
  | (.ok (end0, end1), t) =>
    let id0 : ObjectId := ⟨t.nextId⟩
    let id1 : ObjectId := ⟨t.nextId + 1⟩
    let t := { t with nextId := t.nextId + 2 }
    (.ok (end0, end1), (t.setEndpointObject end0 id0).setEndpointObject end1 id1)

variable {t : ChannelTable M cfg} {ep : Endpoint M cfg} {e : EndpointId}

theorem endpoint?_create (found : t.create.2.endpoint? e = some ep) : t.endpoint? e = some ep ∨ ep = .new := by
  unfold create at found
  split at found
  · exact .inl found
  obtain ⟨_,here,rfl⟩ := Option.map_eq_some_iff.mp found
  rcases cell_put_cases here with ⟨_,rfl⟩ | ⟨_,old⟩
  · exact .inr rfl
  · exact .inl (by simp [endpoint?, old])

theorem endpoint?_setEndpointObject (t : ChannelTable M cfg) (e e' : EndpointId) (id : ObjectId) :
    (t.setEndpointObject e id).endpoint? e' = t.endpoint? e' := by
  unfold setEndpointObject
  split
  · rfl
  rename_i found
  simp only [endpoint?, Slots.put, cell_assign]
  split
  · rename_i same
    rw [← same.1, found]
    rfl
  · rfl

theorem endpoint?_createWithObjects
    (found : t.createWithObjects.2.endpoint? e = some ep) : t.endpoint? e = some ep ∨ ep = .new := by
  unfold createWithObjects at found
  split at found
  · rename_i refused
    exact endpoint?_create (refused ▸ found)
  rename_i made
  rw [endpoint?_setEndpointObject, endpoint?_setEndpointObject] at found
  exact endpoint?_create (made ▸ found)

theorem endpoint?_create_of_some (found : t.endpoint? e = some ep) : t.create.2.endpoint? e = some ep := by
  unfold create
  split
  · exact found
  rename_i index free
  obtain ⟨_,here,rfl⟩ := Option.map_eq_some_iff.mp found
  have apart : index ≠ e.channel := by
    rintro rfl
    cases (free?_eq_some free).2.symm.trans here
  simp [endpoint?, Slots.put, cell_assign, apart, here]

theorem endpoint?_createWithObjects_of_some
    (found : t.endpoint? e = some ep) : t.createWithObjects.2.endpoint? e = some ep := by
  have kept := endpoint?_create_of_some found
  unfold createWithObjects
  split
  · rename_i refused
    rw [refused] at kept
    exact kept
  rename_i made
  rw [made] at kept
  rw [endpoint?_setEndpointObject, endpoint?_setEndpointObject]
  exact kept

def endpointOfObject (t : ChannelTable M cfg) (id : ObjectId) : Option EndpointId :=
  (range cfg.maxChannels).findSome? fun i =>
    (t.channels.cell i).bind fun c =>
      if c.objects .zero = some id then some ⟨i, .zero⟩
      else if c.objects .one = some id then some ⟨i, .one⟩ else none

end ChannelTable
end Tessera
