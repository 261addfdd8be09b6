import Tessera.Device.Declaration
import Tessera.Kernel.MemoryCalls
import Tessera.Process.Authority
import Tessera.Vm.UserCopy

/-!
The call by which a bus controller declares a device. The caller needs a handle to the
bus that may derive; the new device goes below the bus, and the caller gets a handle
to it with at most the rights of its own. A handle table without room, or a record
that cannot be written back, does not take the device out again.
-/
namespace Tessera
open DeviceGraph
variable {cfg : Config} {σ : Type}

structure DeclareCall where
  slot : Nat
  bus : Handle
  request : DeclareRequest
  recordPtr : Nat
  deriving DecidableEq

def deviceDeclareRecordSize : Nat := 32

namespace Kernel

def setDevices (k : Kernel cfg σ) (devices : DeviceGraph cfg) : Kernel cfg σ := { k with devices }

/-- Only what is registered as a bus can contain anything. -/
def deviceDeclare (port : ArchPort) (k : Kernel cfg σ) (call : DeclareCall) : Except KError Unit × Kernel cfg σ :=
  match k.processes.cell call.slot with
  | none => (.error .accessDenied, k)
  | some p =>
    match p.handles.lookup call.bus with
    | .error e => (.error e, k)
    | .ok (bus, held) =>
      if !held.contains .derive then (.error .accessDenied, k)
      else
        match k.devices.busWindowOfObject bus with
        | none => (.error .wrongType, k)
        | some window =>
          match k.devices.declareBelow bus window (held.intersection grantable) call.request with
          | (.error e, devices) => (.error e, k.setDevices devices)
          | (.ok object, devices) =>
            (p.space.validateUserRange port call.recordPtr deviceDeclareRecordSize true,
              (k.setDevices devices).setProcess call.slot
                { p with handles := (p.handles.install object (held.intersection grantable)).2 })

def DeclareStep (port : ArchPort) (k : Kernel cfg σ) (call : DeclareCall) (k' : Kernel cfg σ) : Prop :=
  some (k.deviceDeclare port call).2 = some k'

variable {port : ArchPort}

theorem numbered_deviceDeclare {k : Kernel cfg σ} (numbered : k.devices.Numbered) (call : DeclareCall) :
    (k.deviceDeclare port call).2.devices.Numbered := by
  unfold deviceDeclare
  split
  · exact numbered
  split
  · exact numbered
  rename_i bus held _
  split
  · exact numbered
  split
  · exact numbered
  rename_i window _
  have declared := k.devices.declareBelow_numbered numbered bus window (held.intersection grantable)
    call.request
  split
  · rename_i refused
    rwa [refused] at declared
  · rename_i done
    rwa [done] at declared

theorem numbered_of_run (numbered : k₀.devices.Numbered)
    (run : Transition.Run (DeclareStep port) k₀ history k) : k.devices.Numbered := by
  refine run.invariant (fun k => k.devices.Numbered) ?_ numbered
  intro _ call _ kept step
  cases step
  exact numbered_deviceDeclare kept call

theorem deviceDeclare_ok {k : Kernel cfg σ} (ok : (k.deviceDeclare port call).1 = .ok ()) :
    ∃ p bus held window obj devices, k.processes.cell call.slot = some p ∧
      p.handles.lookup call.bus = .ok (bus, held) ∧ k.devices.busWindowOfObject bus = some window ∧
      k.devices.declareBelow bus window (held.intersection grantable) call.request = (.ok obj, devices) ∧
      (k.deviceDeclare port call).2 = (k.setDevices devices).setProcess call.slot
        { p with handles := (p.handles.install obj (held.intersection grantable)).2 } := by
  unfold deviceDeclare at ok ⊢
  split at ok
  · cases ok
  rename_i p caller
  split at ok
  · cases ok
  rename_i bus held found
  split at ok
  · cases ok
  rename_i derives
  split at ok
  · cases ok
  rename_i window forwards
  split at ok
  · cases ok
  rename_i obj devices declared
  refine ⟨p,bus,held,window,obj,devices,caller,found,forwards,declared,?_⟩
  rw [if_neg derives]

/-- A device that has been declared, below whatever chain of declarations, has its
    configuration slot, its registers and its line within those of its bus, carries no
    right its declarer did not have on the bus, and none of the sums that were not
    checked has wrapped. -/
theorem declared_device_is_contained {k₀ k : Kernel cfg σ} {history : List DeclareCall}
    (numbered : k₀.devices.Numbered) (run : Transition.Run (DeclareStep port) k₀ history k) {call : DeclareCall}
    (ok : (k.deviceDeclare port call).1 = .ok ()) :
    ∃ p bus held window object granted, k.processes.cell call.slot = some p ∧
      p.handles.lookup call.bus = .ok (bus, held) ∧ k.devices.busWindowOfObject bus = some window ∧
      k.devices.contains object = false ∧ granted.isSubsetOf held = true ∧
      k.devices.Contained bus window granted (k.deviceDeclare port call).2.devices object ∧
      (∀ p' e, (k.deviceDeclare port call).2.processes.cell call.slot = some p' → p'.handles.Has e →
        p.handles.Has e ∨ e = ⟨object, granted⟩) ∧ window.firstFunction = window.firstBus.toNat * 2 ^ 8 ∧
      window.slotOffset call.request.bdf
        = (call.request.bdf.toNat - window.firstBus.toNat * 2 ^ 8) * configSlotLen := by
  have here := numbered_of_run numbered run
  obtain ⟨p,bus,held,window,object,_,caller,found,forwards,declared,after⟩ := deviceDeclare_ok ok
  obtain ⟨next,contained⟩ := declareBelow_ok here declared
  refine ⟨p,bus,held,window,object,held.intersection grantable,caller,found,forwards,?_,
    Rights.intersection_isSubsetOf _ _,?_,?_,window.firstFunction_eq,window.slotOffset_eq _⟩
  · rw [next, contains, here.fresh]
    rfl
  · rw [after]
    exact contained
  intro _ _ there has
  rw [after, setProcess, Slots.cell_put_self _ (Slots.lt_of_cell caller)] at there
  cases there
  exact HandleTable.has_insert has

def hostConfig : Config := { Config.minimal with maxDevices := 4 }

def controllerSpace : AddressSpace hostConfig :=
  ⟨.bare, Slots.empty.put 0 ⟨0, frameSize, PageFlags.rw.user, .anonymous⟩, 1, frameSize⟩

/-- A bus that forwards two pages of memory and the lines 40 to 43, behind a window with
    room for sixteen functions, and its controller. -/
def hosted : Kernel hostConfig Unit where
  exec := .new .new
  devices := setState ⟨(DeviceTable.new.registerIdentified ⟨9⟩ 0x10000 0x10000 .map).2, fun _ => .new⟩ ⟨9⟩
    { NodeState.new with busWindow := some ⟨0x10000, 0x80000, 0x2000, 4, 40, 4⟩ }
  memory := .new
  processes := Slots.empty.put 0
    { Process.new ⟨1⟩ controllerSpace with
      handles := (HandleTable.new.insert ⟨9⟩ (grantable.union .kill)).2 }
  iommu := none
  alloc := ()

def hostedCall : DeclareCall := ⟨0, .new 0 0, ⟨0x402, 0x81000, 0x1000, 0, 0, 0, 0, 41⟩, 0⟩

/-- A first declaration on the bus, and then one with a line and a page of registers. -/
theorem second_function_is_contained :
    ∃ k : Kernel hostConfig Unit, Transition.Run (DeclareStep .x8664) hosted [⟨0, .new 0 0, ⟨0x400, 0, 0, 0, 0, 0, 0, 0⟩, 0⟩] k ∧
      ∃ bus window object granted, k.devices.busWindowOfObject bus = some window ∧
        k.devices.Contained bus window granted (k.deviceDeclare .x8664 hostedCall).2.devices object := by
  refine Transition.Disciplined.reaches_then (fun k => (k.deviceDeclare .x8664 hostedCall).1 = .ok ()) (by decide +kernel)
    fun k run ok => ?_
  obtain ⟨_,bus,_,window,object,granted,_,_,forwards,_,_,contained,_⟩ :=
    declared_device_is_contained (by decide +kernel) run ok
  exact ⟨bus,window,object,granted,forwards,contained⟩

end Kernel
end Tessera
