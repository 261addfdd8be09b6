import Tessera.Kernel.MemoryCalls
import Tessera.Vm.UserCopy

/-!
The call by which a service fills in a page of an object it backs. The page counts
against the budget of the page cache, and a supply that meets the ceiling takes a clean
page back first, or has a dirty one written back and waits for that. What goes on after
such a wait is a call of its own. Whether the request for a write-back goes out is an
argument, and the window through which the service reads the page is left out.
-/
namespace Tessera
open AddressSpace FrameSource List

inductive WriteBackRequest where
  | unsent | refused | sent
  deriving DecidableEq

inductive WriteBackOutcome where
  | clean | failed | waits
  deriving DecidableEq

inductive ReclaimOutcome where
  | freed | failed | waits (object : ObjectId) (offset : Nat)
  deriving DecidableEq

inductive SupplyOutcome where
  | answered (result : Except KError Unit)
  | waits (target : ObjectId) (offset : Nat)

def reclaimWatermark : Nat := 16

def supplyChunk : Nat := 512

/-- The copy of a page out of user memory; every piece is checked again. -/
def AddressSpace.readPage {cfg : Config} (port : ArchPort) (sp : AddressSpace cfg) (source : Nat) : Except KError Unit :=
  forM (range (frameSize / supplyChunk)) fun i =>
    sp.validateUserRange port (source + i * supplyChunk) supplyChunk false

namespace Kernel
variable {cfg : Config} {σ : Type}

def cacheTake (k : Kernel cfg σ) : Option (Kernel cfg σ) :=
  k.cacheBudget.allocOrdinary.map fun cacheBudget => { k with cacheBudget }

def writeBack (k : Kernel cfg σ) (object : ObjectId) (offset : Nat) (request : WriteBackRequest) :
    WriteBackOutcome × Kernel cfg σ :=
  if !k.memory.isDirty object offset then (.clean, k)
  else
    match request with
    | .unsent => (.failed, k)
    | .refused => (.failed, k.setMemory ((k.memory.beginWriteBack object offset).endWriteBack object offset).2)
    | .sent => (.waits, k.setMemory (k.memory.beginWriteBack object offset))

/-- The answer to a write-back: clean only if it was persisted and nothing was stored
    meanwhile. -/
def writtenBack (k : Kernel cfg σ) (object : ObjectId) (offset : Nat) (persisted : Bool) : Bool × Kernel cfg σ :=
  match k.memory.endWriteBack object offset with
  | (rewritten, memory) =>
    if persisted && !rewritten then (true, k.setMemory (memory.markClean object offset)) else (false, k.setMemory memory)

section
variable [FrameSource σ]

section
variable (k : Kernel cfg σ)

def underMemoryPressure : Bool := (framesAvailable k.alloc).any (· ≤ reclaimWatermark)

/-- Every pass empties a slot of the pool, so the slots bound the passes. -/
def reclaimForPressure : (passes : Nat) → Kernel cfg σ → Nat × Kernel cfg σ
  | 0, k => (0, k)
  | passes + 1, k =>
    if !k.underMemoryPressure then (0, k)
    else
      match k.memory.anyEvictable with
      | none => (0, k)
      | some (object, offset) =>
        match k.evictPage object offset with
        | (false, k) => (0, k)
        | (true, k) =>
          match reclaimForPressure passes k with
          | (freed, k) => (freed + 1, k)

def allocAfterReclaim : Option PhysFrame × Kernel cfg σ :=
  match k.memory.anyEvictable with
  | none => (none, k)
  | some (object, offset) =>
    match k.evictPage object offset with
    | (false, k) => (none, k)
    | (true, k) => ((allocFrame k.alloc).1, k.setAlloc (allocFrame k.alloc).2)

def allocFrameReclaiming : Option PhysFrame × Kernel cfg σ :=
  match reclaimForPressure cfg.maxFrameSlots k with
  | (_, k) =>
    match allocFrame k.alloc with
    | (some frame, alloc) => (some frame, k.setAlloc alloc)
    | (none, alloc) => (k.setAlloc alloc).allocAfterReclaim

def evictFor (object : ObjectId) (offset : Nat) : ReclaimOutcome × Kernel cfg σ :=
  match k.evictPage object offset with
  | (true, k) => (.freed, k)
  | (false, k) => (.failed, k)

/-- Clean pages first, dirty ones only through a write-back. -/
def reclaimOnePage (request : WriteBackRequest) : ReclaimOutcome × Kernel cfg σ :=
  match k.memory.anyEvictable with
  | some (object, offset) => k.evictFor object offset
  | none =>
    match k.memory.anyDirty with
    | none => (.failed, k)
    | some (object, offset) =>
      match k.writeBack object offset request with
      | (.clean, k) => k.evictFor object offset
      | (.failed, k) => (.failed, k)
      | (.waits, k) => (.waits object offset, k)

def freeFrame (k : Kernel cfg σ) (frame : PhysFrame) : Kernel cfg σ := k.setAlloc (FrameSource.freeFrame k.alloc frame)

end

variable (port : ArchPort)

section
variable (k : Kernel cfg σ) (slot : Nat)

/-- The rest of a supply that has its place in the budget. A source that cannot be read
    any more is the one refusal that keeps the place. -/
def fillPage (object : ObjectId) (page source : Nat) : Except KError Unit × Kernel cfg σ :=
  match k.allocFrameReclaiming with
  | (none, k) => (.error .outOfMemory, k.cacheGiveBack)
  | (some frame, k) =>
    match k.processes.cell slot with
    | none => (.error .accessDenied, (k.freeFrame frame).cacheGiveBack)
    | some p =>
      match p.space.readPage port source with
      | .error e => (.error e, k.freeFrame frame)
      | .ok () =>
        match k.memory.supply object page frame with
        | (.ok (), memory) => (.ok (), k.setMemory memory)
        | (.error e, memory) => (.error e, ((k.setMemory memory).freeFrame frame).cacheGiveBack)

def takeAndFill (object : ObjectId) (page source : Nat) : Except KError Unit × Kernel cfg σ :=
  match k.cacheTake with
  | none => (.error .outOfMemory, k)
  | some k => k.fillPage port slot object page source

def supplyPage (object : ObjectId) (page source : Nat) (request : WriteBackRequest) : SupplyOutcome × Kernel cfg σ :=
  match k.cacheTake with
  | some k => (.answered (k.fillPage port slot object page source).1, (k.fillPage port slot object page source).2)
  | none =>
    match k.reclaimOnePage request with
    | (.failed, k) => (.answered (.error .outOfMemory), k)
    | (.waits target offset, k) => (.waits target offset, k)
    | (.freed, k) =>
      (.answered (k.takeAndFill port slot object page source).1, (k.takeAndFill port slot object page source).2)

def pageSupply (handle : Handle) (offset source : Nat) (request : WriteBackRequest) : SupplyOutcome × Kernel cfg σ :=
  match k.processes.cell slot with
  | none => (.answered (.error .accessDenied), k)
  | some p =>
    match p.handles.lookup handle with
    | .error e => (.answered (.error e), k)
    | .ok (object, held) =>
      if !held.contains .supply then (.answered (.error .accessDenied), k)
      else
        match k.memory.pagesOf object with
        | none => (.answered (.error .wrongType), k)
        | some pages =>
          if (k.memory.pagerOf object).isNone then (.answered (.error .wrongType), k)
          else if pages ≤ offset / frameSize then (.answered (.error .invalidArgument), k)
          else
            match p.space.validateUserRange port source frameSize false with
            | .error e => (.answered (.error e), k)
            | .ok () => k.supplyPage port slot object (offset / frameSize) source request

/-- A supply whose write-back was answered takes the page that was written back, if it
    is clean now, and goes on. -/
def finishSupply (object : ObjectId) (page source : Nat) (target : ObjectId) (offset : Nat)
    (persisted : Bool) : Except KError Unit × Kernel cfg σ :=
  match k.writtenBack target offset persisted with
  | (false, k) => (.error .outOfMemory, k)
  | (true, k) =>
    match k.evictPage target offset with
    | (false, k) => (.error .outOfMemory, k)
    | (true, k) => k.takeAndFill port slot object page source

end

end

/-! An eviction takes pages out of address spaces and leaves the records of their
mappings, so what a caller may read is the same after it. -/

def SameRecords (k k' : Kernel cfg σ) : Prop :=
  ∀ slot, Option.Rel (fun p p' : Process cfg => p'.space.mappings = p.space.mappings) (k.processes.cell slot)
    (k'.processes.cell slot)

theorem SameRecords.refl (k : Kernel cfg σ) : SameRecords k k := by
  intro slot
  exact Slots.rel_refl (by simp) (k.processes.cell slot)

theorem SameRecords.trans (first : SameRecords k l) (second : SameRecords l m) : SameRecords k m :=
  fun slot => Slots.rel_trans (fun one two => two.trans one) (first slot) (second slot)

theorem SameRecords.of_processes (same : k'.processes = k.processes) : SameRecords k k' := by
  have kept := SameRecords.refl k
  unfold SameRecords at kept ⊢
  rw [same]
  exact kept

theorem readable_of_mappings {sp sp' : AddressSpace cfg} (same : sp'.mappings = sp.mappings)
    {needWrite : Bool} (ok : sp.validateUserRange port ptr len needWrite = .ok ()) :
    sp'.validateUserRange port ptr len needWrite = .ok () := by
  have rights (va : Nat) : sp'.mappingCovering va = sp.mappingCovering va := by
    unfold mappingCovering
    rw [same]
  unfold validateUserRange at ok ⊢
  split
  · rfl
  rename_i nonempty
  rw [if_neg nonempty] at ok
  split
  · rename_i beyond
    rw [beyond] at ok
    exact ok
  rename_i added
  rw [added] at ok
  dsimp only at ok ⊢
  split
  · rename_i above
    rw [if_pos above] at ok
    exact ok
  rename_i below
  rw [if_neg below] at ok
  refine validatePages_of_permits fun j inside => ?_
  rw [rights]
  exact validatePages_ok ok j inside

theorem readPage_ok {sp : AddressSpace cfg}
    (ok : sp.validateUserRange port src frameSize false = .ok ()) : sp.readPage port src = .ok () := by
  have pieces : ∀ turns : List Nat, (∀ i ∈ turns, i < frameSize / supplyChunk) →
      forM turns (fun i => sp.validateUserRange port (src + i * supplyChunk) supplyChunk false) =
        (.ok () : Except KError Unit) := by
    intro turns
    induction turns with
    | nil => exact fun _ => rfl
    | cons i rest ih =>
      intro inside
      have first := inside i mem_cons_self
      have piece : sp.validateUserRange port (src + i * supplyChunk) supplyChunk false = .ok () := by
        refine validateUserRange_within (by decide) ok (Nat.le_add_right _ _) ?_
        simp only [supplyChunk] at first ⊢
        omega
      rw [forM_cons, piece]
      exact ih fun j later => inside j (mem_cons_of_mem _ later)
  exact pieces _ fun i mem => mem_range.mp mem

section
variable [FrameSource σ]

theorem evictAll_mappings (sp : AddressSpace cfg) (src : σ) (addresses : List Nat) :
    (Process.evictAll sp src addresses).2.1.mappings = sp.mappings := by
  induction addresses generalizing sp src with
  | nil => rfl
  | cons va rest ih =>
    have one : (sp.evictPage va src).2.1.mappings = sp.mappings := by
      unfold AddressSpace.evictPage
      split
      · rfl
      · split <;> rfl
    unfold Process.evictAll
    split
    · rename_i evicted
      rw [evicted] at one
      exact (ih _ _).trans one
    rename_i refused
    rw [refused] at one
    exact (ih _ _).trans one

theorem sameRecords_unmapPageIn (obj : ObjectId) (off : Nat) (k : Kernel cfg σ) (slot : Nat) :
    SameRecords k (unmapPageIn obj off k slot) := by
  unfold unmapPageIn
  split
  · exact .refl k
  rename_i p here
  have same := evictAll_mappings p.space k.alloc (p.pageAddresses obj off)
  intro i
  dsimp only [setProcess]
  rw [Slots.put, Slots.cell_assign]
  split
  · rename_i at_slot
    rw [← at_slot.1, here]
    exact .some same
  · exact SameRecords.refl k i

theorem sameRecords_unmapObjectPage (k : Kernel cfg σ) (obj : ObjectId) (off : Nat) :
    SameRecords k (k.unmapObjectPage obj off) := by
  unfold unmapObjectPage
  generalize range cfg.maxProcesses = slots
  induction slots generalizing k with
  | nil => exact .refl k
  | cons slot rest ih => exact (sameRecords_unmapPageIn obj off k slot).trans (ih _)

theorem sameRecords_evictPage (k : Kernel cfg σ) (obj : ObjectId) (off : Nat) :
    SameRecords k (k.evictPage obj off).2 := by
  unfold evictPage
  split
  · exact .refl k
  · rename_i memory _
    exact sameRecords_unmapObjectPage { k with memory } obj off

section
variable {P : Kernel cfg σ → Prop}
  (evict : ∀ k object off, k.memory.anyEvictable = some (object, off) → P k → P (k.evictPage object off).2)
include evict

/-- What evicting a chosen page keeps, reclaiming keeps. -/
theorem reclaimForPressure_rule (passes : Nat) (kept : P k) : P (reclaimForPressure passes k).2 := by
  induction passes generalizing k with
  | zero => exact kept
  | succ passes ih =>
    unfold reclaimForPressure
    split
    · exact kept
    split
    · exact kept
    rename_i chosen
    have evicted := evict _ _ _ chosen kept
    split <;> rename_i done <;> rw [done] at evicted
    · exact evicted
    · exact ih evicted

theorem allocFrameReclaiming_rule (alloc : ∀ k alloc, P k → P (k.setAlloc alloc)) (kept : P k) :
    P k.allocFrameReclaiming.2 := by
  have reclaimed := reclaimForPressure_rule evict cfg.maxFrameSlots kept
  unfold allocFrameReclaiming
  split
  rename_i eased
  rw [eased] at reclaimed
  split
  · exact alloc _ _ reclaimed
  unfold allocAfterReclaim
  split
  · exact alloc _ _ reclaimed
  rename_i chosen
  have evicted := evict _ _ _ chosen (alloc _ _ reclaimed)
  split <;> rename_i done <;> rw [done] at evicted
  · exact evicted
  · exact alloc _ _ evicted

end

theorem sameRecords_allocFrameReclaiming (k : Kernel cfg σ) : SameRecords k k.allocFrameReclaiming.2 :=
  allocFrameReclaiming_rule (fun _ object off _ same => same.trans (sameRecords_evictPage _ object off))
    (fun _ _ same => same.trans (.of_processes rfl)) (.refl k)

end
end Kernel
end Tessera
