import Tessera.Device.DeviceTable
import Tessera.Ipc.Channel
import Tessera.Ipc.Port

/-!
The rest of a device node: its interrupt lines and where they are delivered, who
depends on it, whether policy has withdrawn it, whether it can follow a scattered
buffer, what it forwards as a bus, what it is, and whether its line may wake the
machine. A node's part is kept by its object id beside the table that has the node,
and a node that is not in the table has none. The ports of a device on the I/O bus and its layout
are not kept.
-/
namespace Tessera

structure IrqRoute where
  port : PortId
  holder : ObjectId
  intid : Nat
  deriving DecidableEq

structure BusWindow where
  configLen : Nat
  forwardCpuBase : Nat
  forwardLen : Nat
  firstBus : UInt8
  firstIntid : Nat
  intidCount : Nat
  deriving DecidableEq

def BusWindow.default : BusWindow := ⟨0, 0, 0, 0, 0, 0⟩

inductive DeviceBus where
  | unknown | pci | virtioMmio | platform
  deriving DecidableEq

structure DeviceIdentity where
  classCode : Nat
  vendor : Nat
  device : Nat
  bdf : Nat
  revision : Nat
  bus : DeviceBus
  deriving DecidableEq

structure NodeState (cfg : Config) where
  intid : Option Nat
  extraIntids : Slots Nat cfg.maxExtraIrqs
  irqRoutes : Slots IrqRoute (1 + cfg.maxExtraIrqs)
  dependents : Slots EndpointId cfg.maxDependents
  quarantined : Bool
  requiresContiguity : Bool
  busWindow : Option BusWindow
  identity : Option DeviceIdentity
  wakeSource : Bool
  deriving DecidableEq

def NodeState.new {cfg : Config} : NodeState cfg :=
  ⟨none, .empty, .empty, .empty, false, false, none, none, false⟩

structure DeviceGraph (cfg : Config) where
  table : DeviceTable cfg
  state : ObjectId → NodeState cfg

namespace DeviceGraph
variable {cfg : Config}

section
variable (g : DeviceGraph cfg) (id : ObjectId)

def contains : Bool := (g.table.find id).isSome

def objects : List ObjectId := g.table.nodes.live.map (·.object)

def childrenOf : List ObjectId :=
  (g.table.nodes.live.filter fun n => n.parent = some id).map (·.object)

def parentOf : Option ObjectId := (g.table.find id).bind (·.parent)

def setState (s : NodeState cfg) : DeviceGraph cfg :=
  { g with state := Function.update g.state id s }

def knows (intid : Nat) : Bool :=
  g.contains id && ((g.state id).intid = some intid || (g.state id).extraIntids.live.contains intid)

def onLine (intid : Nat) (r : IrqRoute) : Bool := r.intid = intid

/-- A line has one route: a second one takes the place of the first. -/
def installRoute (s : NodeState cfg) (route : IrqRoute) : Except KError Unit × NodeState cfg :=
  match s.irqRoutes.index? (onLine route.intid) with
  | some slot => (.ok (), { s with irqRoutes := s.irqRoutes.put slot route })
  | none =>
    match s.irqRoutes.free? with
    | none => (.error .limitExceeded, s)
    | some slot => (.ok (), { s with irqRoutes := s.irqRoutes.put slot route })

def routeIrqLine (intid : Nat) (port : PortId) (holder : ObjectId) : Except KError Unit × DeviceGraph cfg :=
  if !g.contains id then (.error .badHandle, g)
  else if !g.knows id intid then (.error .invalidMapping, g)
  else
    match installRoute (g.state id) ⟨port, holder, intid⟩ with
    | (.error e, _) => (.error e, g)
    | (.ok (), s) => (.ok (), g.setState id s)

def routesOf : List IrqRoute :=
  if g.contains id then (g.state id).irqRoutes.live else []

def irqRouteOfObject : Option IrqRoute := (g.routesOf id).head?

def irqRoutesHeldBy (holder : ObjectId) : List ObjectId :=
  g.objects.filter fun id => (g.routesOf id).any (·.holder = holder)

def endIrqRoute : Option IrqRoute × DeviceGraph cfg :=
  if !g.contains id then (none, g)
  else
    match (g.state id).irqRoutes.index? fun _ => true with
    | none => (none, g)
    | some slot => ((g.state id).irqRoutes.cell slot,
        g.setState id { g.state id with irqRoutes := (g.state id).irqRoutes.clear slot })

def dependentsOf : List EndpointId :=
  if g.contains id then (g.state id).dependents.live else []

def isQuarantined : Bool := g.contains id && (g.state id).quarantined

def requiresContiguity (g : DeviceGraph cfg) (id : ObjectId) : Bool :=
  g.contains id && (g.state id).requiresContiguity

def remove (g : DeviceGraph cfg) (id : ObjectId) : Bool × DeviceGraph cfg :=
  match g.table.remove id with
  | (false, _) => (false, g)
  | (true, table) => (true, { table, state := Function.update g.state id .new })

end

end DeviceGraph
end Tessera
