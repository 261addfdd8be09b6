import Tessera.Device.DeviceGraph
import Tessera.Device.DmaMapper
import Tessera.Exec.Executive
import Tessera.Lib.Forest
import Tessera.Memory.MemoryTable
import Tessera.Pager.SelfPaging
import Tessera.Pager.WriteBack
import Tessera.Process.Process
import Tessera.Process.Transfer

/-!
The tables of one machine together: the executive with its channels and ports, the
device graph, the memory objects, the processes, the translation unit if there is
one, the frame allocator, the pager bindings and the budget of the page cache. What ties a device to a process lives in several of
them at once: handles and register windows in the process, a DMA lease in the graph
and in the translation unit, an interrupt route in the graph and in a port. The
interrupt controller, the event ring and the lifecycle records are left out.
-/
namespace Tessera

structure Kernel (cfg : Config) (σ : Type) where
  exec : Executive (Message cfg) cfg
  devices : DeviceGraph cfg
  memory : MemoryTable cfg
  processes : Slots (Process cfg) cfg.maxProcesses
  iommu : Option DmaMapper
  alloc : σ
  paging : SelfPagingGraph cfg := .new
  cacheBudget : WriteBackReservation := .new cacheFrameBudget cacheWriteBackReserve

namespace Kernel
variable {cfg : Config} {σ : Type}

section
variable (k : Kernel cfg σ) (device : ObjectId)

def irqPortSignal : Nat := 1

def irqPortSignalRemoved : Nat := 3

def forgetAttachmentsTo : Kernel cfg σ :=
  { k with
    memory := (k.memory.objectsAttachedTo device).foldl
      (fun memory object => (memory.detach object).2.forgetLastAttachment object) k.memory }

def setTable (table : DeviceTable cfg) : Kernel cfg σ :=
  { k with devices := { k.devices with table } }

def endTranslations : Kernel cfg σ :=
  { k with iommu := k.iommu.map (·.endLease device) }

/-- The translation unit first, then the record, then the attachments. -/
def endOneLease : Bool × Kernel cfg σ :=
  match k.devices.table.endLease device with
  | (none, table) => (false, (k.endTranslations device).setTable table)
  | (some _, table) =>
    (true, ((k.endTranslations device).setTable table).forgetAttachmentsTo device)

def endDeviceLease (holder device : ObjectId) : Bool × Kernel cfg σ :=
  if k.devices.table.leaseHolderOfObject device = some holder then k.endOneLease device else (false, k)

def endLeasesOf (holder : ObjectId) : Kernel cfg σ :=
  (k.devices.table.leasesHeldBy holder).foldl (fun k device => (k.endOneLease device).2) k

def expireLeases (now : Nat) : Kernel cfg σ :=
  (k.devices.table.leasesExpiredBy now).foldl (fun k lease => (k.endOneLease lease.1).2) k

def isolateDmaFault : Bool × Kernel cfg σ :=
  match k.devices.table.leaseHolderOfObject device with
  | none => (false, k)
  | some _ => k.endOneLease device

def bindPort (port : PortId) (source signal : Nat) : Except KError Unit × Kernel cfg σ :=
  match k.exec.ports.ports.cell port.index with
  | none => (.error .badHandle, k)
  | some p => ((p.bind source signal).1, { k with exec := k.exec.setPort port (p.bind source signal).2 })

def unbindPort (port : PortId) (source signal : Nat) : Kernel cfg σ :=
  match k.exec.ports.ports.cell port.index with
  | none => k
  | some p => { k with exec := k.exec.setPort port (p.unbind source signal).2 }

/-- The route is recorded before the port is asked, and stays recorded when the
    port refuses. -/
def deviceRouteIrqLine (intid : Nat) (port : PortId) (holder : ObjectId) : Except KError Unit × Kernel cfg σ :=
  match k.devices.routeIrqLine device intid port holder with
  | (.error e, _) => (.error e, k)
  | (.ok (), devices) => { k with devices }.bindPort port intid irqPortSignal

/-- The loop that ends a device's routes. Every turn empties a slot, so the number
    of slots bounds the turns. -/
def endRoutes (device : ObjectId) : (turns : Nat) → Kernel cfg σ → Bool × Kernel cfg σ
  | 0, k => (false, k)
  | turns + 1, k =>
    match k.devices.endIrqRoute device with
    | (none, _) => (false, k)
    | (some route, devices) =>
      (true, (endRoutes device turns ({ k with devices }.unbindPort route.port route.intid irqPortSignal)).2)

def endOneIrqRoute : Bool × Kernel cfg σ :=
  endRoutes device (1 + cfg.maxExtraIrqs) k

/-- Only the first route's holder is looked at. -/
def endDeviceIrqRoute (holder device : ObjectId) : Bool × Kernel cfg σ :=
  if (k.devices.irqRouteOfObject device).map (·.holder) = some holder then k.endOneIrqRoute device else (false, k)

def endIrqRoutesOf (holder : ObjectId) : Kernel cfg σ :=
  (k.devices.irqRoutesHeldBy holder).foldl (fun k device => (k.endOneIrqRoute device).2) k

def deepestBelow (root : ObjectId) : Option ObjectId :=
  if k.devices.contains root then some (Forest.descend k.devices.childrenOf cfg.maxDevices root) else none

end

section
variable (cpu : Fin cfg.maxCpus) (notice : ObjectId → Message cfg)

section
variable (k : Kernel cfg σ) (device : ObjectId)

def wakeRemoved (route : IrqRoute) : Kernel cfg σ :=
  match k.bindPort route.port route.intid irqPortSignalRemoved with
  | (.error _, _) => k
  | (.ok (), k) => { k with exec := (k.exec.portSignal cpu route.intid irqPortSignalRemoved 1).2 }

def removeRoutes : Kernel cfg σ :=
  match k.devices.irqRouteOfObject device with
  | none => k
  | some route => (k.endDeviceIrqRoute route.holder device).2.wakeRemoved cpu route

def removeLease : Kernel cfg σ :=
  match k.devices.table.leaseHolderOfObject device with
  | none => k
  | some _ => (k.endOneLease device).2

/-- What a removal takes from one process: there is room for one handle. -/
def surrender (device : ObjectId) (p : Process cfg) : Process cfg :=
  match p.handles.reclaim [device] 1 with
  | ([], _) => p
  | (_ :: _, handles) => ({ p with handles }.revokeDeviceWindowsUnlessHeld device).2

def notifyDependents : Kernel cfg σ :=
  { k with
    exec := (k.devices.dependentsOf device).foldl
      (fun exec endpoint => (exec.send cpu endpoint (notice device)).2) k.exec }

def removeOneDevice : Bool × Kernel cfg σ :=
  let k := ((k.removeLease device).removeRoutes cpu device).forgetAttachmentsTo device
  let k := { k with processes := k.processes.mapLive (surrender device) }.notifyDependents cpu notice device
  ((k.devices.remove device).1, { k with devices := (k.devices.remove device).2 })

def removeDevices (device : ObjectId) : (turns : Nat) → Kernel cfg σ → Bool × Kernel cfg σ
  | 0, k => (false, k)
  | turns + 1, k =>
    match k.deepestBelow device with
    | none => (false, k)
    | some target =>
      match k.removeOneDevice cpu notice target with
      | (false, k) => (false, k)
      | (true, k) => (true, if target = device then k else (removeDevices device turns k).2)

def removeDevice : Bool × Kernel cfg σ :=
  removeDevices cpu notice device cfg.maxDevices k

end

end

inductive Reclaimed where
  | withheld
  | lostNotInGraph
  | lostNoHandleRoom
  | lostQueueFull
  | delivered
  deriving DecidableEq

section
variable (cpu : Fin cfg.maxCpus)

/-- One capability on its way back. It goes with the graph's rights, not with those
    the dead process had. -/
def handBack (k : Kernel cfg σ) (destination : EndpointId) (object : ObjectId) : Reclaimed × Kernel cfg σ :=
  if k.devices.isQuarantined object then (.withheld, k)
  else
    match k.devices.table.rightsOfObject object with
    | none => (.lostNotInGraph, k)
    | some rights =>
      match (Message.new 0 0 : Message cfg).addHandle ⟨object, rights, false⟩ with
      | .error _ => (.lostNoHandleRoom, k)
      | .ok message =>
        match k.exec.send cpu destination message with
        | (.done, exec) => (.delivered, { k with exec })
        | (_, exec) => (.lostQueueFull, { k with exec })

def handAllBack (k : Kernel cfg σ) (destination : EndpointId) :
    List HandleEntry → List (ObjectId × Reclaimed) × Kernel cfg σ
  | [] => ([], k)
  | e :: rest =>
    match k.handBack cpu destination e.object with
    | (outcome, k) => ((e.object, outcome) :: (handAllBack k destination rest).1, (handAllBack k destination rest).2)

/-- Gives every device of a dead process back. The array the handles are taken into
    has the size of a message's handle table. -/
def reclaimDevices (k : Kernel cfg σ) (slot : Nat) (p : Process cfg) (destination : EndpointId) :
    List (ObjectId × Reclaimed) × Kernel cfg σ :=
  let k := (k.endLeasesOf p.id).endIrqRoutesOf p.id
  match p.handles.reclaim k.devices.objects cfg.maxMsgHandles with
  | (taken, handles) =>
    handAllBack cpu { k with processes := k.processes.put slot { p with handles } } destination taken

end

end Kernel
end Tessera
