import Tessera.Kernel.MemoryCalls

/-!
The calls by which a device is made to reach memory: a page the caller gets with a
device address, and a memory object the caller holds. A device that the translation
unit knows gets its addresses from a lease, which the first such call begins; any
other device gets physical addresses. The two contiguity and classification refusals
come before anything is allocated.
-/
namespace Tessera

namespace DmaMapper

def unmapPages (m : DmaMapper) (device : ObjectId) (base pages : Nat) : DmaMapper :=
  (List.range pages).foldl (fun m page => (m.unmap device (base + page * frameSize) frameSize).2) m

def mapPages (m : DmaMapper) (device : ObjectId) (base : Nat) :
    (page : Nat) → List PhysFrame → Except KError Unit × DmaMapper
  | _, [] => (.ok (), m)
  | page, frame :: rest =>
    match m.map device (base + page * frameSize) frame.base frameSize with
    | (.error e, m) => (.error e, m.unmapPages device base page)
    | (.ok (), m) => m.mapPages device base (page + 1) rest

end DmaMapper

namespace Kernel
variable {cfg : Config} {σ : Type}

section
variable (k : Kernel cfg σ)

def setIommu (mapper : DmaMapper) : Kernel cfg σ := { k with iommu := some mapper }

def isScoped (device : ObjectId) : Bool :=
  (k.devices.table.leaseHolderOfObject device).isSome || k.iommu.any (·.translates device)

/-- The translation unit first, and it is undone when the graph refuses. -/
def beginLease (k : Kernel cfg σ) (device holder : ObjectId) : Except KError Unit × Kernel cfg σ :=
  match k.iommu with
  | none => (.error .invalidMapping, k)
  | some mapper =>
    match mapper.beginLease device with
    | (.error e, _) => (.error e, k)
    | (.ok (base, len), mapper) =>
      match k.devices.table.setAperture device holder (.new base len) none with
      | (.error e, _) => (.error e, k.setIommu (mapper.endLease device))
      | (.ok (), table) => (.ok (), (k.setIommu mapper).setTable table)

/-- A lease is exclusive: the holder keeps it, and nobody else gets it. -/
def holdLease (device caller : ObjectId) : Except KError Unit × Kernel cfg σ :=
  match k.devices.table.leaseHolderOfObject device with
  | some holder => if holder ≠ caller then (.error .accessDenied, k) else (.ok (), k)
  | none => k.beginLease device caller

def attachmentBase (device memory : ObjectId) (len : Nat) : Option Nat × DeviceTable cfg :=
  match k.memory.rememberedAddress memory device with
  | some address => (some address, k.devices.table)
  | none => k.devices.table.allocateInAperture device len

def attachTranslations (device memory caller : ObjectId) (frames : List PhysFrame) :
    Except KError Nat × Kernel cfg σ :=
  match k.holdLease device caller with
  | (.error e, k) => (.error e, k)
  | (.ok (), k) =>
    match k.iommu with
    | none => (.error .invalidMapping, k)
    | some mapper =>
      match k.attachmentBase device memory (frames.length * frameSize) with
      | (none, _) => (.error .outOfMemory, k)
      | (some base, table) =>
        match mapper.mapPages device base 0 frames with
        | (.error e, mapper) => (.error e, (k.setIommu mapper).setTable table)
        | (.ok (), mapper) => (.ok base, (k.setIommu mapper).setTable table)

/-- Where an attachment of these frames goes. Without a translation unit one frame is
    all there is an address for. -/
def placeAttachment (device memory caller : ObjectId) (frames : List PhysFrame) : Except KError Nat × Kernel cfg σ :=
  if k.isScoped device then k.attachTranslations device memory caller frames
  else
    match frames with
    | [frame] => (.ok frame.base, k)
    | _ => (.error .notSupported, k)

/-- The record of the attachment; without it the translations come out again. -/
def recordAttachment (memory : ObjectId) (a : Attachment) : Except KError Nat × Kernel cfg σ :=
  match k.memory.attach memory a with
  | (.ok (), table) => (.ok a.address, { k with memory := table })
  | (.error e, _) =>
    (.error e, if a.isScoped then { k with iommu := k.iommu.map fun m => (m.unmap a.device a.address a.len).2 } else k)

def dmaAttach (slot : Nat) (deviceHandle memoryHandle : Handle) : Except KError Nat × Kernel cfg σ :=
  match k.processes.cell slot with
  | none => (.error .accessDenied, k)
  | some p =>
    match p.handles.lookup deviceHandle with
    | .error e => (.error e, k)
    | .ok (device, deviceRights) =>
      if !deviceRights.contains .map then (.error .accessDenied, k)
      else
        match p.handles.lookup memoryHandle with
        | .error e => (.error e, k)
        | .ok (memory, memoryRights) =>
          if !memoryRights.contains .map then (.error .accessDenied, k)
          else if (k.devices.table.mmioOfObject device).isNone then (.error .accessDenied, k)
          else if (k.memory.ownerOf memory).isNone then (.error .wrongType, k)
          else if (k.memory.attachmentOf memory).isSome then (.error .alreadyMapped, k)
          else if (k.memory.placementOf memory).any (·.physicallyContiguous) &&
              !k.devices.requiresContiguity device then (.error .policyRefused, k)
          else if !attachPermitted ((k.memory.classOf memory).getD .unclassified) deviceRights then
            (.error .accessDenied, k)
          else if (k.memory.framesOf memory).isEmpty then (.error .badHandle, k)
          else
            match k.placeAttachment device memory p.id (k.memory.framesOf memory) with
            | (.error e, k) => (.error e, k)
            | (.ok address, placed) => placed.recordAttachment memory
                ⟨device, address, (k.memory.framesOf memory).length * frameSize, k.isScoped device⟩

/-- An attachment whose translation cannot be taken out keeps its record. -/
def detachMemory (memory : ObjectId) : Option Attachment × Kernel cfg σ :=
  match k.memory.attachmentOf memory with
  | none => (none, k)
  | some a =>
    if a.isScoped then
      match k.iommu with
      | none => (none, k)
      | some mapper =>
        match mapper.unmap a.device a.address a.len with
        | (.error _, mapper) => (none, k.setIommu mapper)
        | (.ok (), mapper) => (some a, { k.setIommu mapper with memory := (k.memory.detach memory).2 })
    else (some a, { k with memory := (k.memory.detach memory).2 })

def dmaDetach (slot : Nat) (handle : Handle) : Except KError Unit × Kernel cfg σ :=
  match k.processes.cell slot with
  | none => (.error .accessDenied, k)
  | some p =>
    match p.handles.lookup handle with
    | .error e => (.error e, k)
    | .ok (memory, rights) =>
      if !rights.contains .map then (.error .accessDenied, k)
      else if (k.memory.attachmentOf memory).isNone then (.error .notMapped, k)
      else
        match k.detachMemory memory with
        | (some _, k) => (.ok (), k)
        | (none, k) => (.error .invalidMapping, k)

end

section
variable [FrameSource σ]

section
variable (k : Kernel cfg σ) (memory : ObjectId)

def destroyRecord : Kernel cfg σ :=
  match k.memory.destroy memory k.alloc with
  | (_, table, alloc) => { k with memory := table, alloc }

def pagingUnbind : Kernel cfg σ :=
  { k with paging := (k.paging.unbind memory.raw).2 }

/-- The device stops reaching the object before a frame of it moves. The binding of its
    pager goes even if the object stays because the device could not be stopped. -/
def memoryDestroy : Kernel cfg σ :=
  ((k.detachMemory memory).2.pagingUnbind memory).destroyRecord memory

/-- One object of a process that ends. Its pager's binding is not looked at. -/
def releaseHeld (owner : ObjectId) (k : Kernel cfg σ) (memory : ObjectId) : Kernel cfg σ :=
  match k.memory.removeHolder memory owner with
  | (true, table) => { k with memory := table }
  | (false, table) => ({ k with memory := table }.detachMemory memory).2.destroyRecord memory

def releaseMemoryOf (owner : ObjectId) : Kernel cfg σ :=
  (k.memory.objectsHeldBy owner).foldl (releaseHeld owner) k

def endBindingsOfDeparted (slot : Nat) (departed : List ObjectId) : Kernel cfg σ :=
  match k.processes.cell slot with
  | none => k
  | some p => departed.foldl (fun k object =>
      if (k.memory.ownerOf object).isSome then ((k.revokeMemoryMappings slot object).detachMemory object).2
      else ((k.endDeviceLease p.id object).2.endDeviceIrqRoute p.id object).2) k

def handleClose (slot : Nat) (handle : Handle) : Except KError Unit × Kernel cfg σ :=
  match k.processes.cell slot with
  | none => (.error .accessDenied, k)
  | some p =>
    match p.handles.dropHandle handle with
    | (.error e, _) => (.error e, k)
    | (.ok object, handles) =>
      let k := k.setProcess slot { p with handles }
      if handles.holds object then (.ok (), k)
      else if k.memory.isHeldBy object p.id then
        match (k.revokeMemoryMappings slot object) with
        | k =>
          match k.memory.removeHolder object p.id with
          | (true, memory) => (.ok (), { k with memory })
          | (false, memory) => (.ok (), { k with memory }.memoryDestroy object)
      else
        match { p with handles }.revokeDeviceWindowsUnlessHeld object with
        | (false, p) => (.ok (), k.setProcess slot p)
        | (true, p) =>
          (.ok (), (((k.setProcess slot p).endDeviceLease p.id object).2.endDeviceIrqRoute p.id object).2)

end

end

end Kernel
end Tessera
