import Tessera.Memory.ObjectCache

/-!
Memory objects: their pages live in a shared pool of frame slots, of which each
object holds a contiguous run. A kernel-backed object owns one reference to
every frame of its run from the start, a paged one to the frames supplied so
far. What a frame contains is not modelled.
-/
namespace Tessera

structure Placement where
  deviceContiguous : Bool
  physicallyContiguous : Bool
  alignment : Nat
  addressLimit : Nat
  deriving DecidableEq

def Placement.default : Placement := ⟨false, false, 0, 0⟩

def Placement.satisfiedBy (p : Placement) (frames : List (Option PhysFrame)) : Except KError Unit :=
  match frames.head?.join with
  | none => .error .outOfMemory
  | some first =>
    if p.alignment ≠ 0 ∧ first.base % p.alignment ≠ 0 then .error .outOfMemory
    else if p.physicallyContiguous ∧
        ¬ (frames.zipIdx.all fun (f, page) => f.any (·.base = first.base + page * frameSize)) then
      .error .outOfMemory
    else if p.addressLimit ≠ 0 ∧
        (frames.filterMap id).any (p.addressLimit < ·.base + frameSize - 1) then .error .outOfMemory
    else .ok ()

inductive MemoryClass where
  | unclassified | protectedContent
  deriving DecidableEq

def MemoryClass.level : MemoryClass → Nat
  | .unclassified => 0
  | .protectedContent => 1

def attachPermitted (memoryClass : MemoryClass) (deviceRights : Rights) : Bool :=
  match memoryClass with
  | .unclassified => true
  | .protectedContent => deviceRights.contains .protectedDma

structure Attachment where
  device : ObjectId
  address : Nat
  len : Nat
  isScoped : Bool
  deriving DecidableEq

structure MemoryObject (cfg : Config) where
  object : ObjectId
  holders : Slots ObjectId cfg.maxHolders
  base : Nat
  pages : Nat
  memoryClass : MemoryClass
  placement : Placement
  attached : Option Attachment
  lastAttachment : Option (ObjectId × Nat)
  pager : Option ObjectId
  servedBy : Option ObjectId
  faulted : Bool
  cache : ObjectCache cfg
  deriving DecidableEq

def memoryObjectIdBase : Nat := 0x1000

structure MemoryTable (cfg : Config) where
  objects : Slots (MemoryObject cfg) cfg.maxMemoryObjects
  slots : Nat → Option PhysFrame
  taken : Nat → Bool
  nextId : Nat

namespace MemoryTable
variable {cfg : Config} {σ : Type} [FrameSource σ]

section
variable (t : MemoryTable cfg) (object : ObjectId)

def new : MemoryTable cfg := ⟨.empty, fun _ => none, fun _ => false, memoryObjectIdBase⟩

def run (base pages : Nat) : List Nat := List.range' base pages

/-- The search of `take_run`: past a taken slot the next run starts behind it.
    The start grows every turn, so the slots bound the turns. -/
def findRun (t : MemoryTable cfg) (pages start : Nat) : Nat → Option Nat
  | 0 => none
  | turns + 1 =>
    if start + pages ≤ cfg.maxFrameSlots then
      match (run start pages).find? t.taken with
      | some busy => t.findRun pages (busy + 1) turns
      | none => some start
    else none

def assignRun {α : Type} (f : Nat → α) (base pages : Nat) (a : α) : Nat → α := fun i =>
  if base ≤ i ∧ i < base + pages then a else f i

def takeRun (pages : Nat) : Option Nat × MemoryTable cfg :=
  if pages = 0 ∨ cfg.maxFrameSlots < pages then (none, t)
  else
    match t.findRun pages 0 (cfg.maxFrameSlots + 1) with
    | none => (none, t)
    | some start => (some start, { t with
        taken := assignRun t.taken start pages true
        slots := assignRun t.slots start pages none })

def freeRun (base pages : Nat) : MemoryTable cfg :=
  let pages := min (base + pages) cfg.maxFrameSlots - base
  { t with taken := assignRun t.taken base pages false, slots := assignRun t.slots base pages none }

/-- Draws one frame for each slot of the list, stopping at the first refusal. -/
def drawFrames (t : MemoryTable cfg) (src : σ) : List Nat → Bool × MemoryTable cfg × σ
  | [] => (true, t, src)
  | i :: rest =>
    match FrameSource.allocFrame src with
    | (none, src) => (false, t, src)
    | (some frame, src) => { t with slots := Function.update t.slots i (some frame) }.drawFrames src rest

def framesIn (base pages : Nat) : List PhysFrame := (run base pages).filterMap t.slots

def freeFrames (src : σ) (frames : List PhysFrame) : σ := frames.foldl FrameSource.freeFrame src

def giveBackRun (src : σ) (base pages : Nat) : MemoryTable cfg × σ :=
  (t.freeRun base pages, freeFrames src (t.framesIn base pages))

def dirtyLimit (cfg : Config) : Nat := cfg.maxObjectPages / 2

def soleHolder (owner : ObjectId) : Slots ObjectId cfg.maxHolders := Slots.empty.put 0 owner

def create (owner : ObjectId) (pages : Nat) (placement : Placement) (src : σ) :
    Except KError ObjectId × MemoryTable cfg × σ :=
  if pages = 0 ∨ cfg.maxObjectPages < pages then (.error .invalidMapping, t, src)
  else
    match t.objects.free? with
    | none => (.error .outOfMemory, t, src)
    | some slot =>
      match t.takeRun pages with
      | (none, t) => (.error .outOfFrameSlots, t, src)
      | (some base, t) =>
        match t.drawFrames src (run base pages) with
        | (false, t, src) => (.error .outOfMemory, t.giveBackRun src base pages)
        | (true, t, src) =>
          match placement.satisfiedBy ((run base pages).map t.slots) with
          | .error e => (.error e, t.giveBackRun src base pages)
          | .ok () =>
            let object : ObjectId := ⟨t.nextId⟩
            (.ok object, { t with
              nextId := t.nextId + 1
              objects := t.objects.put slot ⟨object, soleHolder owner, base, pages, .unclassified,
                placement, none, none, none, none, false, .new (dirtyLimit cfg)⟩ }, src)

def createPaged (owner : ObjectId) (pages : Nat) (pager : ObjectId) : Except KError ObjectId × MemoryTable cfg :=
  if pages = 0 ∨ cfg.maxObjectPages < pages then (.error .invalidMapping, t)
  else
    match t.objects.free? with
    | none => (.error .outOfMemory, t)
    | some slot =>
      match t.takeRun pages with
      | (none, t) => (.error .outOfFrameSlots, t)
      | (some base, t) =>
        let object : ObjectId := ⟨t.nextId⟩
        (.ok object, { t with
          nextId := t.nextId + 1
          objects := t.objects.put slot ⟨object, soleHolder owner, base, pages, .unclassified,
            .default, none, none, some pager, some owner, false, .new (dirtyLimit cfg)⟩ })

def named (object : ObjectId) (entry : MemoryObject cfg) : Bool := entry.object = object

def find : Option (MemoryObject cfg) := t.objects.find? (named object)

def update (f : MemoryObject cfg → MemoryObject cfg) : MemoryTable cfg :=
  { t with objects := t.objects.modify (named object) f }

def evict (offset : Nat) : Option PhysFrame × MemoryTable cfg :=
  match t.find object with
  | none => (none, t)
  | some entry =>
    let page := offset / frameSize
    if entry.cache.isDirty offset ∨ entry.pages ≤ page then (none, t)
    else
      match t.slots (entry.base + page) with
      | none => (none, t)
      | some frame =>
        (some frame, { t with slots := Function.update t.slots (entry.base + page) none }.update object
          fun e => { e with cache := e.cache.forget offset })

/-- The slot is filled before the cache is asked, and stays filled when the
    cache refuses the page. -/
def supply (page : Nat) (frame : PhysFrame) : Except KError Unit × MemoryTable cfg :=
  match t.find object with
  | none => (.error .badHandle, t)
  | some entry =>
    if entry.pager.isNone then (.error .invalidMapping, t)
    else if entry.pages ≤ page then (.error .invalidArgument, t)
    else if (t.slots (entry.base + page)).isSome then (.error .alreadyMapped, t)
    else
      let (answer, cache) := entry.cache.install (page * frameSize)
      (answer, { t with slots := Function.update t.slots (entry.base + page) (some frame) }.update object
        fun e => { e with cache })

def frameAt (page : Nat) : Option PhysFrame :=
  (t.find object).bind fun entry => if entry.pages ≤ page then none else t.slots (entry.base + page)

def framesOf : List PhysFrame :=
  ((t.find object).map fun entry => t.framesIn entry.base entry.pages).getD []

def pagesOf : Option Nat := (t.find object).map (·.pages)

def classOf : Option MemoryClass := (t.find object).map (·.memoryClass)

def pagerOf : Option ObjectId := (t.find object).bind (·.pager)

def servedBy (t : MemoryTable cfg) (object : ObjectId) : Option ObjectId := (t.find object).bind (·.servedBy)

def isFaulted : Bool := (t.find object).any (·.faulted)

def setFaulted : MemoryTable cfg :=
  t.update object fun e => { e with faulted := true }

def isDirty (t : MemoryTable cfg) (object : ObjectId) (offset : Nat) : Bool :=
  (t.find object).any (·.cache.isDirty offset)

/-- A store to an object that is not there is never let through. -/
def markDirty (t : MemoryTable cfg) (object : ObjectId) (offset : Nat) : DirtyOutcome × MemoryTable cfg :=
  match t.find object with
  | none => (.throttle, t)
  | some entry =>
    let (outcome, cache) := entry.cache.markDirty offset
    (outcome, t.update object fun e => { e with cache })

def markClean (t : MemoryTable cfg) (object : ObjectId) (offset : Nat) : MemoryTable cfg :=
  t.update object fun e => { e with cache := e.cache.markClean offset }

def beginWriteBack (t : MemoryTable cfg) (object : ObjectId) (offset : Nat) : MemoryTable cfg :=
  t.update object fun e => { e with cache := e.cache.beginWriteBack offset }

def endWriteBack (t : MemoryTable cfg) (object : ObjectId) (offset : Nat) : Bool × MemoryTable cfg :=
  ((t.find object).any fun e => (e.cache.endWriteBack offset).1,
    t.update object fun e => { e with cache := (e.cache.endWriteBack offset).2 })

def dirtyOffsets (t : MemoryTable cfg) (object : ObjectId) : List Nat :=
  ((t.find object).map (·.cache.dirtyOffsets cfg.maxObjectPages)).getD []

/-- Some page of an object whose pager still answers, chosen in the object's cache. -/
def anyPage (choose : ObjectCache cfg → Option Nat) : Option (ObjectId × Nat) :=
  t.objects.live.findSome? fun e =>
    if e.pager.isNone || e.faulted then none else (choose e.cache).map fun offset => (e.object, offset)

def anyEvictable : Option (ObjectId × Nat) := t.anyPage (·.evictCandidate)

def anyDirty : Option (ObjectId × Nat) :=
  t.anyPage fun c => (c.dirtyOffsets cfg.maxObjectPages).head?

def setSoleHolder (object owner : ObjectId) : Bool × MemoryTable cfg :=
  ((t.find object).isSome, t.update object fun e => { e with holders := soleHolder owner })

/-- The oldest holder. -/
def ownerOf : Option ObjectId :=
  (t.find object).bind (·.holders.live.head?)

def isHeldBy (object holder : ObjectId) : Bool :=
  (t.find object).any fun e => e.holders.live.contains holder

def addHolder (object holder : ObjectId) : Except KError Unit × MemoryTable cfg :=
  match t.find object with
  | none => (.error .badHandle, t)
  | some entry =>
    if entry.holders.live.contains holder then (.ok (), t)
    else
      match entry.holders.free? with
      | none => (.error .limitExceeded, t)
      | some slot => (.ok (), t.update object fun e => { e with holders := e.holders.put slot holder })

def compacted (holders : List ObjectId) : Slots ObjectId cfg.maxHolders :=
  ⟨(holders.map some ++ List.replicate cfg.maxHolders none).take cfg.maxHolders, by simp⟩

def removeHolder (object holder : ObjectId) : Bool × MemoryTable cfg :=
  match t.find object with
  | none => (false, t)
  | some entry =>
    let kept := entry.holders.live.filter (· ≠ holder)
    (!kept.isEmpty, t.update object fun e => { e with holders := compacted kept })

def objectsHeldBy (holder : ObjectId) : List ObjectId :=
  (t.objects.live.filter fun e => e.holders.live.contains holder).map (·.object)

def attach (a : Attachment) : Except KError Unit × MemoryTable cfg :=
  match t.find object with
  | none => (.error .badHandle, t)
  | some entry =>
    if entry.attached.isSome then (.error .alreadyMapped, t)
    else (.ok (), t.update object fun e =>
      { e with lastAttachment := some (a.device, a.address), attached := some a })

def attachmentOf : Option Attachment :=
  (t.find object).bind (·.attached)

def detach : Option Attachment × MemoryTable cfg :=
  (t.attachmentOf object, t.update object fun e => { e with attached := none })

def rememberedAddress (object device : ObjectId) : Option Nat :=
  (t.find object).bind fun e => e.lastAttachment.bind fun (reached, address) =>
    if reached = device then some address else none

def forgetLastAttachment : MemoryTable cfg :=
  t.update object fun e => { e with lastAttachment := none }

def placementOf : Option Placement := (t.find object).map (·.placement)

def objectsAttachedTo (device : ObjectId) : List ObjectId :=
  (t.objects.live.filter fun e => e.attached.any (·.device = device)).map (·.object)

/-- An object a device can still reach keeps its frames: they leak instead. -/
def destroy (src : σ) : Nat × MemoryTable cfg × σ :=
  match t.objects.index? (named object), t.find object with
  | some slot, some entry =>
    if entry.attached.isSome then (0, t, src)
    else
      let frames := t.framesIn entry.base entry.pages
      (frames.length, { t.freeRun entry.base entry.pages with objects := t.objects.clear slot },
        freeFrames src frames)
  | _, _ => (0, t, src)

end

end MemoryTable
end Tessera
