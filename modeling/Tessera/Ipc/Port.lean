import Tessera.Exec.Thread
import Tessera.Object
import Tessera.Lib.Slots

/-!
The pool of ports and the object ids bound to them. A port gathers edges for
the sources bound to it and remembers one thread that waits for them.
-/
namespace Tessera

structure PortId where
  index : Nat
  deriving DecidableEq

structure Binding where
  source : Nat
  signal : Nat
  pending : Nat
  asserted : Bool
  deriving DecidableEq

structure PortEvent where
  source : Nat
  signal : Nat
  pending : Nat
  deriving DecidableEq

structure Port (cfg : Config) where
  bindings : Slots Binding cfg.maxBindings
  coalesced : Nat
  blockedDrainer : Option ThreadId
  object : Option ObjectId
  deriving DecidableEq

namespace Port
variable {cfg : Config}

section
variable (p : Port cfg)

def new : Port cfg := ⟨.empty, 0, none, none⟩

/-- Edges for a source that is not bound are refused; the others add up, up to
    the counters' limits. -/
def deliver (source signal edges : Nat) : Bool × Port cfg :=
  match p.bindings.find? (fun b => b.source = source ∧ b.signal = signal) with
  | none => (false, p)
  | some found =>
    (true, { p with
      coalesced := if 0 < found.pending then min (p.coalesced + 1) (2 ^ 64 - 1) else p.coalesced
      bindings := p.bindings.modify (fun b => b.source = source ∧ b.signal = signal) fun b =>
        { b with pending := min (b.pending + edges) (2 ^ 32 - 1), asserted := true } })

def bind (source signal : Nat) : Except KError Unit × Port cfg :=
  match p.bindings.find? (fun b => b.source = source ∧ b.signal = signal) with
  | some _ => (.error .protocol, p)
  | none =>
    match p.bindings.free? with
    | none => (.error .outOfMemory, p)
    | some slot => (.ok (), { p with bindings := p.bindings.put slot ⟨source, signal, 0, false⟩ })

/-- The binding goes together with the edges it has gathered. -/
def unbind (source signal : Nat) : Bool × Port cfg :=
  match p.bindings.index? (fun b => b.source = source ∧ b.signal = signal) with
  | some slot => (true, { p with bindings := p.bindings.clear slot })
  | none => (false, p)

def drain : Option (PortEvent × Port cfg) :=
  (p.bindings.find? (·.asserted)).map fun b =>
    (⟨b.source, b.signal, b.pending⟩,
      { p with bindings := p.bindings.modify (·.asserted) ({ · with pending := 0, asserted := false }) })

def setBlockedDrainer (thread : Option ThreadId) : Port cfg := { p with blockedDrainer := thread }

def takeBlockedDrainer : Option ThreadId × Port cfg :=
  (p.blockedDrainer, { p with blockedDrainer := none })

end

end Port

def portObjectIdBase : Nat := 0x3000

structure PortTable (cfg : Config) where
  ports : Slots (Port cfg) cfg.maxPorts
  nextId : Nat
  deriving DecidableEq

namespace PortTable
variable {cfg : Config}

def new : PortTable cfg := ⟨.empty, portObjectIdBase⟩

def create (t : PortTable cfg) : Except KError PortId × PortTable cfg :=
  match t.ports.free? with
  | none => (.error .outOfMemory, t)
  | some index => (.ok ⟨index⟩, { t with ports := t.ports.put index .new })

def bind (t : PortTable cfg) (port : PortId) (source signal : Nat) : Except KError Unit × PortTable cfg :=
  match t.ports.cell port.index with
  | none => (.error .badHandle, t)
  | some p => ((p.bind source signal).1, { t with ports := t.ports.put port.index (p.bind source signal).2 })

def setPortObject (t : PortTable cfg) (port : PortId) (id : ObjectId) : PortTable cfg :=
  match t.ports.cell port.index with
  | none => t
  | some p => { t with ports := t.ports.put port.index { p with object := some id } }

def createWithObject (t : PortTable cfg) : Except KError (PortId × ObjectId) × PortTable cfg :=
  match t.create with
  | (.error e, t) => (.error e, t)
  | (.ok port, t) =>
    let id : ObjectId := ⟨t.nextId⟩
    (.ok (port, id), ({ t with nextId := t.nextId + 1 }).setPortObject port id)

def portOfObject (t : PortTable cfg) (id : ObjectId) : Option PortId :=
  (t.ports.index? fun p => p.object = some id).map PortId.mk

end PortTable
end Tessera
