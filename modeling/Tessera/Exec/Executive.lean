import Tessera.Exec.Scheduler
import Tessera.Ipc.Channel
import Tessera.Ipc.Port

/-!
The executive: the processors' schedulers, the channels and ports they share and
the wakeups they post to each other. An operation that parks is cut there, and what
runs between two parks is one step. For `send`, `receive`, `try_receive`, the replies
and `close_endpoint`, which take no hold of their own on the machine lock, that is an
assumption about their callers; the other operations hold it throughout. It is let go
before the thread leaves its processor, so leaving is a step of its own. A thread's
saved context says how its operation goes on. The readings of the clock are inputs of a
step. Page-in deadlines, exits and ticks are left out.
-/
namespace Tessera

/-- What is left of an operation that has parked. -/
inductive Wait where
  | receive (on : EndpointId)
  | receiveAny (endpoints : List EndpointId) (deadline : Option Nat)
  | call (origin : EndpointId) (txn : Nat) (deadline : Option Nat) (callee : Option Nat)
  | reply
  | replyReceive (on : EndpointId)
  | address
  | port (port : PortId)
  deriving DecidableEq

/-- A thread is outside the executive, or about to leave its processor (for the
    next ready thread or for a given slot), or gone from it. -/
inductive Frame where
  | outside
  | parking (target : Option Nat) (wait : Wait)
  | parked (wait : Wait)
  deriving DecidableEq

inductive Residence (cfg : Config) where
  | here (slot : Nat)
  | elsewhere (cpu : Fin cfg.maxCpus) (slot : Nat)
  | gone

inductive Outcome (M : Type) where
  | parked
  | done
  | received (message : M)
  | receivedAny (index : Nat) (message : M)
  | replied (message : M)
  | event (event : PortEvent)
  | failed (error : KError)
  deriving DecidableEq

structure Executive (M : Type) (cfg : Config) where
  sched : Fin cfg.maxCpus → Scheduler Frame cfg
  nextTxn : Fin cfg.maxCpus → Nat
  syncDepth : Fin cfg.maxCpus → Nat → Nat
  savedCorrelation : Fin cfg.maxCpus → Nat → Nat
  channels : ChannelTable M cfg
  ports : PortTable cfg
  residents : Fin cfg.maxCpus → Nat → ThreadId
  expiredCallers : Slots ThreadId cfg.maxPagers
  wakeups : Fin cfg.maxCpus → Nat → Option ThreadId

namespace Executive
variable {M : Type} {cfg : Config} (x : Executive M cfg) (cpu : Fin cfg.maxCpus)

def maxSyncDepth : Nat := 8

def signalMessage : Nat := 2

def new (ports : PortTable cfg) : Executive M cfg where
  sched _ := .new
  nextTxn _ := 1
  syncDepth _ _ := 0
  savedCorrelation _ _ := 0
  channels := .new
  ports
  residents _ _ := .unassigned
  expiredCallers := .empty
  wakeups _ _ := none

def onCpu (f : Scheduler Frame cfg → Scheduler Frame cfg) : Executive M cfg :=
  { x with sched := Function.update x.sched cpu (f (x.sched cpu)) }

def alterEndpoint (x : Executive M cfg) (e : EndpointId) (f : Endpoint M cfg → Endpoint M cfg) : Executive M cfg :=
  { x with channels := x.channels.alterEndpoint e f }

def setEndpoint (e : EndpointId) (new : Endpoint M cfg) : Executive M cfg :=
  x.alterEndpoint e fun _ => new

def locateResident (id : ThreadId) : Option (Fin cfg.maxCpus × Nat) :=
  if id = .unassigned then none
  else if inside : id.cpu < cfg.maxCpus then
    ((List.range cfg.maxThreads).find? (x.residents ⟨id.cpu, inside⟩ · = id)).map fun slot =>
      (⟨id.cpu, inside⟩, slot)
  else none

def locateThread (id : ThreadId) : Residence cfg :=
  match (x.sched cpu).indexOf id with
  | some slot => .here slot
  | none =>
    match x.locateResident id with
    | some (other, slot) => if other ≠ cpu then .elsewhere other slot else .gone
    | none => .gone

def post (slot : Nat) (id : ThreadId) : Executive M cfg :=
  if cfg.maxThreads ≤ slot then x
  else { x with wakeups := Function.update x.wakeups cpu (Function.update (x.wakeups cpu) slot (some id)) }

def wakeThread (id : ThreadId) : Executive M cfg :=
  match x.locateThread cpu id with
  | .here slot => x.onCpu cpu (·.unblock slot)
  | .elsewhere other slot => x.post other slot id
  | .gone => x

def wakeIfAny : Option ThreadId → Executive M cfg
  | none => x
  | some id => x.wakeThread cpu id

def noteResidence : Executive M cfg :=
  match (x.sched cpu).current with
  | none => x
  | some slot =>
    match (x.sched cpu).threadId slot with
    | none => x
    | some id =>
      { x with residents := Function.update x.residents cpu (Function.update (x.residents cpu) slot id) }

def signalPort (source signal edges index : Nat) : Bool × Executive M cfg :=
  match x.ports.ports.cell index with
  | none => (false, x)
  | some port =>
    match port.deliver source signal edges with
    | (false, _) => (false, x)
    | (true, port) =>
      (true, ({ x with ports := { x.ports with ports := x.ports.ports.put index port.takeBlockedDrainer.2 } }).wakeIfAny
        cpu port.takeBlockedDrainer.1)

def portSignal (source signal edges : Nat) : Nat × Executive M cfg :=
  (List.range cfg.maxPorts).foldl (fun (delivered, x) index =>
    ((if (x.signalPort cpu source signal edges index).1 then delivered + 1 else delivered),
      (x.signalPort cpu source signal edges index).2)) (0, x)

def signalEndpointArrival : Option ObjectId → Executive M cfg
  | none => x
  | some object => (x.portSignal cpu object.raw signalMessage 1).2

def park (target : Option Nat) (wait : Wait) : Executive M cfg :=
  match (x.sched cpu).current with
  | none => x
  | some slot => x.onCpu cpu (·.setContext slot (.parking target wait))

def setPort (port : PortId) (new : Port cfg) : Executive M cfg :=
  { x with ports := { x.ports with ports := x.ports.ports.put port.index new } }

def awaitEvent (port : PortId) : Outcome M × Executive M cfg :=
  match x.ports.ports.cell port.index with
  | none => (.failed .badHandle, x)
  | some p =>
    match p.drain with
    | some (event, drained) => (.event event, x.setPort port drained)
    | none =>
      match (x.sched cpu).currentId with
      | none => (.failed .badHandle, x)
      | some me => (.parked, (x.setPort port (p.setBlockedDrainer (some me))).park cpu none (.port port))

def portWait (port : PortId) : Outcome M × Executive M cfg :=
  (x.noteResidence cpu).awaitEvent cpu port

def currentCorrelation : Nat :=
  ((x.sched cpu).current.bind (x.sched cpu).threadCorrelation).getD 0

def adoptCorrelation (correlation : Nat) : Executive M cfg :=
  if correlation = 0 then x
  else
    match (x.sched cpu).current with
    | none => x
    | some slot => x.onCpu cpu (·.setThreadCorrelation slot correlation)

def setCurrentDeadline (deadline : Option Nat) : Executive M cfg :=
  match (x.sched cpu).current with
  | none => x
  | some slot => x.onCpu cpu (·.setBlockedDeadline slot deadline)

def unblockLocal : Option Nat → Executive M cfg
  | none => x
  | some slot => x.onCpu cpu (·.unblock slot)

def passed (deadline : Option Nat) (now : Nat) : Bool := deadline.any (· ≤ now)

section
variable [Stamped M]

def send (origin : EndpointId) (message : M) : Outcome M × Executive M cfg :=
  match x.channels.endpoint? origin.peer with
  | none => (.failed .badHandle, x)
  | some destination =>
    match destination.enqueue (Stamped.setCorrelation message (x.currentCorrelation cpu)) with
    | .error e => (.failed e, x)
    | .ok filled =>
      (.done, ((x.setEndpoint origin.peer (filled.setBlockedReceiver none)).wakeIfAny cpu
        destination.blockedReceiver).signalEndpointArrival cpu (x.channels.endpointObject origin.peer))

/-- One turn of a receive loop. A message found in the first turn of a
    reply-and-receive leaves the caller it has answered ready. -/
def awaitMessage (on : EndpointId) (caller : Option Nat) (wait : Wait) : Outcome M × Executive M cfg :=
  match x.channels.endpoint? on with
  | none => (.failed .badHandle, x)
  | some endpoint =>
    match endpoint.dequeue with
    | some (message, rest) =>
      (.received message, ((x.setEndpoint on rest).unblockLocal cpu caller).adoptCorrelation cpu
        (Stamped.correlation message))
    | none =>
      if endpoint.peerClosed then (.failed .peerClosed, x)
      else
        match (x.sched cpu).currentId with
        | none => (.failed .badHandle, x)
        | some me =>
          (.parked, (x.setEndpoint on (endpoint.setBlockedReceiver (some me))).park cpu caller wait)

def receive (x : Executive M cfg) (cpu : Fin cfg.maxCpus) (on : EndpointId) : Outcome M × Executive M cfg :=
  (x.noteResidence cpu).awaitMessage cpu on none (.receive on)

def tryReceive (on : EndpointId) : Outcome M × Executive M cfg :=
  match x.channels.endpoint? on with
  | none => (.failed .badHandle, x)
  | some endpoint =>
    match endpoint.dequeue with
    | some (message, rest) =>
      (.received message, (x.setEndpoint on rest).adoptCorrelation cpu (Stamped.correlation message))
    | none => (.failed (if endpoint.peerClosed then .peerClosed else .wouldBlock), x)

end

/-- What a look at several endpoints in turn ends with: one that does not exist,
    one with a message, or the number of those whose peer is still there. -/
inductive Scan (M : Type) (cfg : Config) where
  | missing
  | found (index : Nat) (e : EndpointId) (message : M) (rest : Endpoint M cfg)
  | quiet (live : Nat)

def scan (t : ChannelTable M cfg) : Nat → Nat → List EndpointId → Scan M cfg
  | _, live, [] => .quiet live
  | index, live, e :: rest =>
    match t.endpoint? e with
    | none => .missing
    | some endpoint =>
      match endpoint.dequeue with
      | some (message, remaining) => .found index e message remaining
      | none => scan t (index + 1) (if endpoint.peerClosed then live else live + 1) rest

def setReceivers (endpoints : List EndpointId) (receiver : Option ThreadId) : Executive M cfg :=
  endpoints.foldl (fun x e => x.alterEndpoint e (·.setBlockedReceiver receiver)) x

section
variable [Stamped M]

def awaitAny (endpoints : List EndpointId) (deadline : Option Nat) (now : Nat) : Outcome M × Executive M cfg :=
  match scan x.channels 0 0 endpoints with
  | .missing => (.failed .badHandle, x)
  | .found index e message rest =>
    (.receivedAny index message, (x.setEndpoint e rest).adoptCorrelation cpu (Stamped.correlation message))
  | .quiet 0 => (.failed .peerClosed, x)
  | .quiet (_ + 1) =>
    if passed deadline now then (.failed .timedOut, x)
    else
      match (x.sched cpu).currentId with
      | none => (.failed .badHandle, x)
      | some me =>
        (.parked, ((x.setCurrentDeadline cpu deadline).setReceivers endpoints (some me)).park cpu none
          (.receiveAny endpoints deadline))

def receiveAny (endpoints : List EndpointId) (deadline : Option Nat) (now : Nat) : Outcome M × Executive M cfg :=
  if endpoints.isEmpty then (.failed .invalidArgument, x.noteResidence cpu)
  else (x.noteResidence cpu).awaitAny cpu endpoints deadline now

/-- The clock is read once for the wait that ends and once more for the next. -/
def resumeAny (endpoints : List EndpointId) (deadline : Option Nat) (now later : Nat) : Outcome M × Executive M cfg :=
  if passed deadline now then
    (.failed .timedOut, (x.setReceivers endpoints none).setCurrentDeadline cpu none)
  else ((x.setReceivers endpoints none).setCurrentDeadline cpu none).awaitAny cpu endpoints deadline later

end

def changeDepth (slot : Nat) (f : Nat → Nat) : Executive M cfg :=
  { x with
    syncDepth := Function.update x.syncDepth cpu
      (Function.update (x.syncDepth cpu) slot (f (x.syncDepth cpu slot))) }

def setSavedCorrelation (slot correlation : Nat) : Executive M cfg :=
  { x with
    savedCorrelation := Function.update x.savedCorrelation cpu
      (Function.update (x.savedCorrelation cpu) slot correlation) }

/-- The callee works at its caller's priority and under its caller's cause. -/
def lend (caller callee : Nat) : Executive M cfg :=
  ((x.setSavedCorrelation cpu callee (((x.sched cpu).threadCorrelation callee).getD 0)).onCpu cpu
    (·.setThreadPriority callee (((x.sched cpu).threadPriority caller).getD 0))).onCpu cpu
    (·.setThreadCorrelation callee (((x.sched cpu).threadCorrelation caller).getD 0))

def giveBack : Option Nat → Executive M cfg
  | none => x
  | some callee =>
    (x.onCpu cpu (·.setThreadCorrelation callee (x.savedCorrelation cpu callee))).setSavedCorrelation cpu callee 0

def enterCall (caller : Nat) (origin : EndpointId) (txn : Nat)
    (deadline : Option Nat) (callee : Option ThreadId) : Executive M cfg :=
  match callee with
  | none => x.park cpu none (.call origin txn deadline none)
  | some id =>
    match x.locateThread cpu id with
    | .here slot => (x.lend cpu caller slot).park cpu (some slot) (.call origin txn deadline (some slot))
    | .elsewhere other slot => (x.post other slot id).park cpu none (.call origin txn deadline none)
    | .gone => x.park cpu none (.call origin txn deadline none)

def mintTxn : Executive M cfg :=
  { x with nextTxn := Function.update x.nextTxn cpu (x.nextTxn cpu + 1) }

section
variable [Stamped M]

def placeCall (caller : Nat) (id : ThreadId)
    (origin : EndpointId) (request : M) (txn : Nat) (deadline : Option Nat) : Outcome M × Executive M cfg :=
  match x.channels.endpoint? origin, x.channels.endpoint? origin.peer with
  | some source, some destination =>
    if source.pendingCaller.isSome then (.failed .protocol, x)
    else
      match destination.enqueue (Stamped.setCorrelation (Stamped.setTxn request txn)
          (((x.sched cpu).threadCorrelation caller).getD 0)) with
      | .error e => (.failed e, x)
      | .ok filled =>
        (.parked, (((((x.setEndpoint origin.peer (filled.setBlockedReceiver none)).setEndpoint origin
          (source.setPendingCaller (some (id, txn)))).signalEndpointArrival cpu
          (x.channels.endpointObject origin.peer)).changeDepth cpu caller (· + 1)).setCurrentDeadline cpu
          deadline).enterCall cpu caller origin txn deadline destination.blockedReceiver)
  | _, _ => (.failed .badHandle, x)

def beginCall (origin : EndpointId) (request : M) (deadline : Option Nat) (now : Nat) : Outcome M × Executive M cfg :=
  match (x.sched cpu).current with
  | none => (.failed .badHandle, x)
  | some caller =>
    match (x.sched cpu).threadId caller with
    | none => (.failed .badHandle, x)
    | some id =>
      if maxSyncDepth ≤ x.syncDepth cpu caller then (.failed .protocol, x)
      else if passed deadline now then (.failed .timedOut, x)
      else (x.mintTxn cpu).placeCall cpu caller id origin request (x.nextTxn cpu) deadline

def callUntil (origin : EndpointId) (request : M) (deadline : Option Nat) (now : Nat) : Outcome M × Executive M cfg :=
  (x.noteResidence cpu).beginCall cpu origin request deadline now

end

def takeExpired (id : ThreadId) : Bool × Executive M cfg :=
  match x.expiredCallers.index? (· = id) with
  | none => (false, x)
  | some index => (true, { x with expiredCallers := x.expiredCallers.clear index })

section
variable [Stamped M]

def finishCall (origin : EndpointId) (txn : Nat) (deadline : Option Nat) (now : Nat) : Outcome M × Executive M cfg :=
  match x.channels.endpoint? origin with
  | none => (.failed .badHandle, x)
  | some endpoint =>
    match endpoint.takeReply txn with
    | some (reply, rest) => (.replied reply, x.setEndpoint origin (rest.setPendingCaller none))
    | none =>
      if passed deadline now then (.failed .timedOut, x.setEndpoint origin endpoint.abortCall)
      else
        (.failed (if endpoint.queue.items.isEmpty then .peerClosed else .protocol),
          x.setEndpoint origin (endpoint.setPendingCaller none))

def resumeCall (caller : Nat) (origin : EndpointId) (txn : Nat)
    (deadline : Option Nat) (callee : Option Nat) (now : Nat) : Outcome M × Executive M cfg :=
  match ((x.sched cpu).threadId caller).map
      ((((x.changeDepth cpu caller (· - 1)).setCurrentDeadline cpu none).giveBack cpu callee).takeExpired) with
  | some (true, y) => (.failed .timedOut, y.alterEndpoint origin (·.setPendingCaller none))
  | _ =>
    (((x.changeDepth cpu caller (· - 1)).setCurrentDeadline cpu none).giveBack cpu callee).finishCall
      origin txn deadline now

/-- A reply goes to the endpoint whose caller waits, with that caller's
    transaction; with no caller there it is dropped for one given up, or queued. -/
def deliverReply (on : EndpointId) (response : M) : Except KError (Option ThreadId × Executive M cfg) :=
  match x.channels.endpoint? on.peer with
  | none => .error .badHandle
  | some endpoint =>
    match endpoint.pendingCaller with
    | none =>
      if endpoint.takeAbandoned.1 then .ok (none, x.setEndpoint on.peer endpoint.takeAbandoned.2)
      else
        match endpoint.enqueue response with
        | .error e => .error e
        | .ok filled => .ok (none, x.setEndpoint on.peer filled)
    | some (caller, txn) =>
      match endpoint.enqueue (Stamped.setTxn response txn) with
      | .error e => .error e
      | .ok filled => .ok (some caller, x.setEndpoint on.peer (filled.setPendingCaller none))

def reply (x : Executive M cfg) (cpu : Fin cfg.maxCpus) (on : EndpointId) (response : M) :
    Outcome M × Executive M cfg :=
  match (x.noteResidence cpu).deliverReply on response with
  | .error e => (.failed e, x.noteResidence cpu)
  | .ok (none, y) => (.done, y)
  | .ok (some caller, y) =>
    match y.locateThread cpu caller with
    | .here slot => (.parked, y.park cpu (some slot) .reply)
    | .elsewhere other slot => (.done, y.post other slot caller)
    | .gone => (.done, y)

def replyAndContinue (on : EndpointId) (response : M) : Outcome M × Executive M cfg :=
  match x.deliverReply on response with
  | .error e => (.failed e, x)
  | .ok (caller, y) => (.done, y.wakeIfAny cpu caller)

def replyReceive (x : Executive M cfg) (cpu : Fin cfg.maxCpus) (on : EndpointId) (response : M) :
    Outcome M × Executive M cfg :=
  match (x.sched cpu).currentId with
  | none => (.failed .badHandle, x.noteResidence cpu)
  | some _ =>
    match (x.noteResidence cpu).deliverReply on response with
    | .error e => (.failed e, x.noteResidence cpu)
    | .ok (none, y) => y.awaitMessage cpu on none (.replyReceive on)
    | .ok (some caller, y) =>
      match y.locateThread cpu caller with
      | .here slot => y.awaitMessage cpu on (some slot) (.replyReceive on)
      | .elsewhere other slot => (y.post other slot caller).awaitMessage cpu on none (.replyReceive on)
      | .gone => y.awaitMessage cpu on none (.replyReceive on)

end

def closeEndpoint (e : EndpointId) : Outcome M × Executive M cfg :=
  match x.channels.endpoint? e.peer with
  | none => (.failed .badHandle, x)
  | some endpoint =>
    (.done, (x.alterEndpoint e.peer (·.markPeerClosed)).wakeIfAny cpu
      (endpoint.blockedReceiver.or (endpoint.pendingCaller.map (·.1))))

/-- The sleepers of a processor whose deadline has come, at most eight of them. -/
def overdue (now : Nat) : List ThreadId :=
  ((List.range cfg.maxThreads).filterMap fun slot =>
    ((x.sched cpu).thread slot).bind fun t =>
      if t.state = .blocked ∧ passed t.blockedDeadline now then some t.id else none).take 8

def expireTimedOutWaits (now : Nat) : Executive M cfg :=
  (x.overdue cpu now).foldl (fun x id => x.wakeThread cpu id) x

def takeWakeups (s : Scheduler Frame cfg) (posted : Nat → Option ThreadId) (slots : List Nat) : Scheduler Frame cfg :=
  slots.foldl (fun s slot => match posted slot with
    | none => s
    | some id => s.unblockThread slot id) s

def drain : Executive M cfg :=
  { x.onCpu cpu (takeWakeups · (x.wakeups cpu) (List.range cfg.maxThreads)) with
    wakeups := Function.update x.wakeups cpu fun _ => none }

def frame? (slot : Nat) : Option Frame :=
  ((x.sched cpu).thread slot).map (·.context)

def atEntry : Bool :=
  (x.sched cpu).current.all fun slot => x.frame? cpu slot = some .outside

def leave : Option (Executive M cfg) :=
  match (x.sched cpu).current with
  | none => none
  | some slot =>
    match x.frame? cpu slot with
    | some (.parking none wait) => some (x.onCpu cpu fun s => (s.setContext slot (.parked wait)).blockCurrent)
    | some (.parking (some target) wait) =>
      some (x.onCpu cpu fun s => (s.setContext slot (.parked wait)).handoffTo target)
    | _ => none

section
variable [Stamped M]

def resumeWait (slot : Nat) (wait : Wait) (now later : Nat) : Outcome M × Executive M cfg :=
  match wait with
  | .receive on => x.awaitMessage cpu on none (.receive on)
  | .receiveAny endpoints deadline => x.resumeAny cpu endpoints deadline now later
  | .call origin txn deadline callee => x.resumeCall cpu slot origin txn deadline callee now
  | .reply | .address => (.done, x)
  | .port port => x.awaitEvent cpu port
  | .replyReceive on => x.awaitMessage cpu on none (.replyReceive on)

def resume (now later : Nat) : Option (Outcome M × Executive M cfg) :=
  match (x.sched cpu).current with
  | none => none
  | some slot =>
    match x.frame? cpu slot with
    | some (.parked wait) => some ((x.onCpu cpu (·.setContext slot .outside)).resumeWait cpu slot wait now later)
    | _ => none

end
end Executive
end Tessera
