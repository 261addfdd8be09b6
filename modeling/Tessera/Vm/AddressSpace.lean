import Tessera.Config
import Tessera.Lib.Slots
import Tessera.Vm.PageTable

/-!
The portable address space: a bounded table of mapping records over the port's
page tables. Records say what a range is backed by; the page tables say what is
resident. Device windows are put into the page tables without a record. The
operations are given as the kernel runs them, page by page, with what each leaves
behind when it fails. Cross-processor invalidation has no effect on this state.
-/
namespace Tessera
open FrameSource

inductive Backing where
  | anonymous
  | anonymousDemand
  | cow
  | object (object : ObjectId) (baseOffset : Nat)
  | shared (object : ObjectId) (baseOffset : Nat)
  deriving DecidableEq

inductive DeviceReach where
  | user | kernel
  deriving DecidableEq

def DeviceReach.flags : DeviceReach → PageFlags
  | .user => PageFlags.rw.device.user
  | .kernel => PageFlags.rw.device

inductive FaultOutcome where
  | filled
  | copied
  | needsPageIn (object : ObjectId) (offset : Nat)
  | writeToClean (object : ObjectId) (offset : Nat)
  | unresolvable
  deriving DecidableEq

structure Mapping where
  base : Nat
  len : Nat
  rights : PageFlags
  backing : Backing
  deriving DecidableEq

def Mapping.covers (m : Mapping) (va : Nat) : Bool := m.base ≤ va && va < m.base + m.len

def reclaimBatch : Nat := 32

def readOnly (rights : PageFlags) : PageFlags :=
  { PageFlags.none with readable := true, isUser := rights.isUser, executable := rights.executable }

structure AddressSpace (cfg : Config) where
  arch : ArchSpace
  mappings : Slots Mapping cfg.maxMappings
  mappingCount : Nat
  mappedBytes : Nat

namespace AddressSpace
variable {cfg : Config} {σ : Type} [FrameSource σ] (port : ArchPort)

section
variable (sp : AddressSpace cfg) (va : Nat)

def fromArch (arch : ArchSpace) : AddressSpace cfg := ⟨arch, .empty, 0, 0⟩

def new (source : σ) : Except KError (AddressSpace cfg) × σ :=
  match ArchSpace.new source with
  | (.error e, source) => (.error e, source)
  | (.ok arch, source) => (.ok (fromArch arch), source)

def mappingCovering : Option Mapping :=
  sp.mappings.find? (·.covers va)

def rightsAt : Option PageFlags := (sp.mappingCovering va).map (·.rights)

def backingAt : Option Backing := (sp.mappingCovering va).map (·.backing)

def checkUserBound (base len : Nat) (rights : PageFlags) : Except KError Unit :=
  if !rights.isUser then .ok ()
  else
    match checkedAdd base len with
    | .none => .error .invalidMapping
    | .some last => if last > port.userAddressMax then .error .invalidMapping else .ok ()

def overlaps (base len : Nat) : Bool :=
  (sp.mappings.find? fun m => base < m.base + m.len && m.base < base + len).isSome

def findExact (base len : Nat) : Option Nat :=
  sp.mappings.index? fun m => m.base == base && m.len == len

def record (base len : Nat) (rights : PageFlags) (backing : Backing) : AddressSpace cfg :=
  match sp.mappings.free? with
  | .none => sp
  | .some i =>
    { sp with
      mappings := sp.mappings.put i ⟨base, len, rights, backing⟩
      mappingCount := sp.mappingCount + 1 }

def recordMapped (base len : Nat) (rights : PageFlags) (backing : Backing) : AddressSpace cfg :=
  { sp.record base len rights backing with mappedBytes := sp.mappedBytes + len }

def changeRecord (idx : Nat) (f : Mapping → Mapping) : AddressSpace cfg :=
  { sp with mappings := sp.mappings.assign idx ((sp.mappings.cell idx).map f) }

def setArch (arch : ArchSpace) : AddressSpace cfg := { sp with arch }

def pageAt (base i : Nat) : Nat := base + i * frameSize

def checkNew (base len : Nat) (rights : PageFlags) : Except KError Unit :=
  if base % frameSize ≠ 0 then .error .unaligned
  else if len = 0 ∨ len % frameSize ≠ 0 then .error .invalidMapping
  else if rights.isWx then .error .wxViolation
  else
    match checkUserBound port base len rights with
    | .error e => .error e
    | .ok () =>
      if sp.overlaps base len then .error .alreadyMapped
      else if sp.mappingCount ≥ cfg.maxMappings then .error .outOfMemory
      else .ok ()

def freeAll (source : σ) (frames : List PhysFrame) : σ := frames.foldl freeFrame source

/-- Unmaps pages `i`, `i + 1`, … of a range. Frames are collected into a batch and
    freed when it is full, each batch behind one cross-processor invalidation. -/
def unmapAndFree (sp : AddressSpace cfg) (base : Nat) (source : σ) :
    (pages i : Nat) → (batch : List PhysFrame) → (reclaimed : Nat) → Nat × AddressSpace cfg × σ
  | 0, _, batch, reclaimed => (reclaimed, sp, freeAll source batch)
  | pages + 1, i, batch, reclaimed =>
    match sp.arch.unmap (pageAt base i) with
    | (.error _, _) => sp.unmapAndFree base source pages (i + 1) batch reclaimed
    | (.ok frame, arch) =>
      if batch.length + 1 = reclaimBatch then
        (sp.setArch arch).unmapAndFree base (freeAll source (batch ++ [frame])) pages (i + 1) []
          (reclaimed + frameSize)
      else (sp.setArch arch).unmapAndFree base source pages (i + 1) (batch ++ [frame]) (reclaimed + frameSize)

def rollback (base pagesDone : Nat) (source : σ) : AddressSpace cfg × σ :=
  (sp.unmapAndFree base source pagesDone 0 [] 0).2

def fillPages (sp : AddressSpace cfg) (base : Nat) (rights : PageFlags) (source : σ) :
    (pages done : Nat) → Except KError Unit × AddressSpace cfg × σ
  | 0, _ => (.ok (), sp, source)
  | pages + 1, done =>
    match allocFrame source with
    | (.none, source) => (.error .outOfMemory, sp.rollback base done source)
    | (.some frame, source) =>
      match sp.arch.map port (pageAt base done) frame rights source with
      | (.error e, arch, source) =>
        (.error e, (sp.setArch arch).rollback base done (freeFrame source frame))
      | (.ok (), arch, source) => (sp.setArch arch).fillPages base rights source pages (done + 1)

def mapAnonymous (base len : Nat) (rights : PageFlags) (source : σ) : Except KError Unit × AddressSpace cfg × σ :=
  match sp.checkNew port base len rights with
  | .error e => (.error e, sp, source)
  | .ok () =>
    match sp.fillPages port base rights source (len / frameSize) 0 with
    | (.error e, sp, source) => (.error e, sp, source)
    | (.ok (), sp, source) =>
      (.ok (), sp.recordMapped base len rights .anonymous, source)

def unmapAndRelease (sp : AddressSpace cfg) (base : Nat) (source : σ) :
    (page : Nat) → List PhysFrame → AddressSpace cfg × σ
  | _, [] => (sp, source)
  | page, frame :: rest =>
    (sp.setArch (sp.arch.unmap (pageAt base page)).2).unmapAndRelease base
      (freeFrame source frame) (page + 1) rest

def sharePages (sp : AddressSpace cfg) (base : Nat) (rights : PageFlags) (source : σ)
    (made : List PhysFrame) : List PhysFrame → Except KError Unit × AddressSpace cfg × σ
  | [] => (.ok (), sp, source)
  | frame :: rest =>
    match sp.arch.map port (pageAt base made.length) frame rights (retainFrame source frame) with
    | (.error e, arch, source) =>
      (.error e, (sp.setArch arch).unmapAndRelease base (freeFrame source frame) 0 made)
    | (.ok (), arch, source) => (sp.setArch arch).sharePages base rights source (made ++ [frame]) rest

def mapShared (base : Nat) (rights : PageFlags) (object : ObjectId)
    (baseOffset : Nat) (frames : List PhysFrame) (source : σ) : Except KError Unit × AddressSpace cfg × σ :=
  match sp.checkNew port base (frames.length * frameSize) rights with
  | .error e => (.error e, sp, source)
  | .ok () =>
    match sp.sharePages port base rights source [] frames with
    | (.error e, sp, source) => (.error e, sp, source)
    | (.ok (), sp, source) =>
      (.ok (), sp.recordMapped base (frames.length * frameSize) rights (.shared object baseOffset), source)

def closeWindow (sp : AddressSpace cfg) (va : Nat) : (pages i : Nat) → AddressSpace cfg
  | 0, _ => sp
  | pages + 1, i => (sp.setArch (sp.arch.unmap (pageAt va i)).2).closeWindow va pages (i + 1)

def unmapDevicePages (va pages : Nat) : AddressSpace cfg :=
  sp.closeWindow va pages 0

def unmapDevicePage : Except KError Unit × AddressSpace cfg :=
  match sp.arch.unmap va with
  | (.error e, _) => (.error e, sp)
  | (.ok _, arch) => (.ok (), sp.setArch arch)

def mapDevicePage (frame : PhysFrame) (reach : DeviceReach)
    (source : σ) : Except KError Unit × AddressSpace cfg × σ :=
  match sp.arch.map port va frame reach.flags source with
  | (result, arch, source) => (result, sp.setArch arch, source)

/-- The page loop of a device window, `page` pages in. No record is made and none
    is looked at. -/
def windowPages (sp : AddressSpace cfg) (va : Nat) (first : PhysFrame) (reach : DeviceReach) (source : σ) :
    (pages page : Nat) → Except KError Unit × AddressSpace cfg × σ
  | 0, _ => (.ok (), sp, source)
  | pages + 1, page =>
    match PhysFrame.fromBase (first.base + page * frameSize) with
    | .none => (.error .unaligned, sp.unmapDevicePages va page, source)
    | .some frame =>
      match sp.mapDevicePage port (pageAt va page) frame reach source with
      | (.error e, sp, source) => (.error e, sp.unmapDevicePages va page, source)
      | (.ok (), sp, source) => sp.windowPages va first reach source pages (page + 1)

def mapDeviceRange (first : PhysFrame) (pages : Nat)
    (reach : DeviceReach) (source : σ) : Except KError Unit × AddressSpace cfg × σ :=
  sp.windowPages port va first reach source pages 0

def mapLazy (base len : Nat) (rights : PageFlags) (backing : Backing) : Except KError Unit × AddressSpace cfg :=
  match sp.checkNew port base len rights with
  | .error e => (.error e, sp)
  | .ok () => (.ok (), sp.record base len rights backing)

def mapAnonymousDemand (base len : Nat) (rights : PageFlags) : Except KError Unit × AddressSpace cfg :=
  sp.mapLazy port base len rights .anonymousDemand

def mapObject (base len : Nat) (rights : PageFlags) (object : ObjectId)
    (baseOffset : Nat) : Except KError Unit × AddressSpace cfg :=
  sp.mapLazy port base len rights (.object object baseOffset)

def supplyPage (frame : PhysFrame) (source : σ) : Except KError Unit × AddressSpace cfg × σ :=
  match sp.mappingCovering va with
  | .none => (.error .notMapped, sp, source)
  | .some m =>
    match sp.arch.map port (alignDown va) frame (readOnly m.rights) source with
    | (.error e, arch, source) => (.error e, sp.setArch arch, source)
    | (.ok (), arch, source) =>
      (.ok (), { sp.setArch arch with mappedBytes := sp.mappedBytes + frameSize }, source)

def installObjectPage (frame : PhysFrame) (source : σ) : Except KError Unit × AddressSpace cfg × σ :=
  match sp.supplyPage port va frame (retainFrame source frame) with
  | (.ok (), sp, source) => (.ok (), sp, source)
  | (.error e, sp, source) => (.error e, sp, freeFrame source frame)

def reflag (flags : PageFlags → PageFlags) : Except KError Unit × AddressSpace cfg :=
  match sp.mappingCovering va with
  | .none => (.error .notMapped, sp)
  | .some m =>
    match sp.arch.protect port (alignDown va) (flags m.rights) with
    | (result, arch) => (result, sp.setArch arch)

def grantWrite : Except KError Unit × AddressSpace cfg :=
  sp.reflag port va id

def reprotectRo : Except KError Unit × AddressSpace cfg :=
  sp.reflag port va readOnly

def evictPage (source : σ) : Except KError Unit × AddressSpace cfg × σ :=
  match sp.arch.translate (alignDown va) with
  | .none => (.error .notMapped, sp, source)
  | .some (frame, _) =>
    match sp.arch.unmap (alignDown va) with
    | (.error e, _) => (.error e, sp, source)
    | (.ok _, arch) =>
      (.ok (), { sp.setArch arch with mappedBytes := sp.mappedBytes - frameSize }, freeFrame source frame)

def demandFill (page : Nat) (rights : PageFlags) (source : σ) : FaultOutcome × AddressSpace cfg × σ :=
  match allocFrame source with
  | (.none, source) => (.unresolvable, sp, source)
  | (.some frame, source) =>
    match sp.arch.map port page frame rights source with
    | (.error _, arch, source) => (.unresolvable, sp.setArch arch, freeFrame source frame)
    | (.ok (), arch, source) =>
      (.filled, { sp.setArch arch with mappedBytes := sp.mappedBytes + frameSize }, source)

def cowCopy (page : Nat) (rights : PageFlags) (source : σ) : FaultOutcome × AddressSpace cfg × σ :=
  match sp.arch.translate page with
  | .none => (.unresolvable, sp, source)
  | .some (shared, flags) =>
    if flags.writable then (.unresolvable, sp, source)
    else
      match allocFrame source with
      | (.none, source) => (.unresolvable, sp, source)
      | (.some priv, source) =>
        match sp.arch.unmap page with
        | (.error _, _) => (.unresolvable, sp, freeFrame source priv)
        | (.ok _, arch) =>
          match arch.map port page priv rights source with
          | (.error _, arch, source) => (.unresolvable, sp.setArch arch, freeFrame source priv)
          | (.ok (), arch, source) => (.copied, sp.setArch arch, freeFrame source shared)

def resolveFault (virt : Nat) (write : Bool) (source : σ) : FaultOutcome × AddressSpace cfg × σ :=
  match sp.mappingCovering virt with
  | .none => (.unresolvable, sp, source)
  | .some m =>
    match m.backing with
    | .anonymousDemand =>
      if (sp.arch.translate (alignDown virt)).isSome then (.unresolvable, sp, source)
      else sp.demandFill port (alignDown virt) m.rights source
    | .cow =>
      if write then sp.cowCopy port (alignDown virt) m.rights source else (.unresolvable, sp, source)
    | .object object baseOffset =>
      match sp.arch.translate (alignDown virt) with
      | .none => (.needsPageIn object (alignDown virt - m.base + baseOffset), sp, source)
      | .some (_, flags) =>
        if write && !flags.writable && m.rights.writable then
          (.writeToClean object (alignDown virt - m.base + baseOffset), sp, source)
        else (.unresolvable, sp, source)
    | .anonymous | .shared _ _ => (.unresolvable, sp, source)

/-- The page loop of a snapshot. A page that fails leaves the ones before it
    shared and read-only. -/
def snapshotPages (sp : AddressSpace cfg) (src dst : Nat) (ro : PageFlags) (source : σ) :
    (pages i : Nat) → Except KError Unit × AddressSpace cfg × σ
  | 0, _ => (.ok (), sp, source)
  | pages + 1, i =>
    match sp.arch.translate (pageAt src i) with
    | .none => (.error .notMapped, sp, source)
    | .some (frame, _) =>
      match sp.arch.protect port (pageAt src i) ro with
      | (.error e, _) => (.error e, sp, retainFrame source frame)
      | (.ok (), arch) =>
        match arch.map port (pageAt dst i) frame ro (retainFrame source frame) with
        | (.error e, arch, source) => (.error e, sp.setArch arch, source)
        | (.ok (), arch, source) => (sp.setArch arch).snapshotPages src dst ro source pages (i + 1)

def snapshotCow (src dst len : Nat) (source : σ) : Except KError Unit × AddressSpace cfg × σ :=
  if src % frameSize ≠ 0 ∨ dst % frameSize ≠ 0 then (.error .unaligned, sp, source)
  else if len = 0 ∨ len % frameSize ≠ 0 then (.error .invalidMapping, sp, source)
  else
    match sp.findExact src len with
    | .none => (.error .notMapped, sp, source)
    | .some idx =>
      if sp.overlaps dst len then (.error .alreadyMapped, sp, source)
      else if sp.mappingCount ≥ cfg.maxMappings then (.error .outOfMemory, sp, source)
      else
        match sp.mappings.cell idx with
        | .none => (.error .notMapped, sp, source)
        | .some m =>
          match sp.snapshotPages port src dst (readOnly m.rights) source (len / frameSize) 0 with
          | (.error e, sp, source) => (.error e, sp, source)
          | (.ok (), sp, source) =>
            (.ok (), (sp.changeRecord idx fun m => { m with backing := .cow }).recordMapped dst len m.rights .cow,
              source)

/-- Unmaps page by page and stops at the first page that is not there. -/
def unmapPages (sp : AddressSpace cfg) (base : Nat) : (pages i : Nat) → Except KError Unit × AddressSpace cfg
  | 0, _ => (.ok (), sp)
  | pages + 1, i =>
    match sp.arch.unmap (pageAt base i) with
    | (.error e, _) => (.error e, sp)
    | (.ok _, arch) => (sp.setArch arch).unmapPages base pages (i + 1)

def dropRecord (idx : Nat) : AddressSpace cfg :=
  { sp with mappings := sp.mappings.clear idx, mappingCount := sp.mappingCount - 1 }

def Backing.isShared : Backing → Bool
  | .shared _ _ => true
  | _ => false

def unmapRange (base len : Nat) : Except KError Unit × AddressSpace cfg :=
  match sp.findExact base len with
  | .none => (.error .notMapped, sp)
  | .some idx =>
    if (sp.mappings.cell idx).any (Backing.isShared ·.backing) then (.error .wrongType, sp)
    else
      match sp.unmapPages base (len / frameSize) 0 with
      | (.error e, sp) => (.error e, sp)
      | (.ok (), sp) =>
        (.ok (), { sp.dropRecord idx with mappedBytes := sp.mappedBytes - len })

def reclaimRange (base len : Nat) (source : σ) : Except KError Unit × AddressSpace cfg × σ :=
  match sp.findExact base len with
  | .none => (.error .notMapped, sp, source)
  | .some idx =>
    match sp.unmapAndFree base source (len / frameSize) 0 [] 0 with
    | (reclaimed, sp, source) =>
      (.ok (), { sp with mappedBytes := sp.mappedBytes - reclaimed }.dropRecord idx, source)

def teardownSlot (source : σ) (idx : Nat) : AddressSpace cfg × σ :=
  match sp.mappings.cell idx with
  | .none => (sp, source)
  | .some m =>
    match (sp.dropRecord idx).unmapAndFree m.base source (m.len / frameSize) 0 [] 0 with
    | (reclaimed, sp, source) => ({ sp with mappedBytes := sp.mappedBytes - reclaimed }, source)

def teardownSlots (sp : AddressSpace cfg) (source : σ) : List Nat → AddressSpace cfg × σ
  | [] => (sp, source)
  | idx :: rest =>
    match sp.teardownSlot source idx with
    | (sp, source) => sp.teardownSlots source rest

def teardown (source : σ) : σ :=
  match sp.teardownSlots source (List.range cfg.maxMappings) with
  | (sp, source) => sp.arch.freeTables port source

def protectPages (sp : AddressSpace cfg) (base : Nat) (rights : PageFlags) :
    (pages i : Nat) → Except KError Unit × AddressSpace cfg
  | 0, _ => (.ok (), sp)
  | pages + 1, i =>
    match sp.arch.protect port (pageAt base i) rights with
    | (.error e, _) => (.error e, sp)
    | (.ok (), arch) => (sp.setArch arch).protectPages base rights pages (i + 1)

def protectRange (base len : Nat) (rights : PageFlags) : Except KError Unit × AddressSpace cfg :=
  if rights.isWx then (.error .wxViolation, sp)
  else
    match sp.findExact base len with
    | .none => (.error .notMapped, sp)
    | .some idx =>
      match sp.protectPages port base rights (len / frameSize) 0 with
      | (.error e, sp) => (.error e, sp)
      | (.ok (), sp) =>
        (.ok (), sp.changeRecord idx fun m => { m with rights })

end

@[simp] theorem setArch_arch (sp : AddressSpace cfg) (arch : ArchSpace) : (sp.setArch arch).arch = arch := rfl

theorem pageAt_div {base : Nat} (aligned : base % frameSize = 0) (i : Nat) :
    pageAt base i / frameSize = base / frameSize + i := by
  simp only [pageAt, frameSize] at *
  omega

end AddressSpace
end Tessera
