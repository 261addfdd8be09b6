import Tessera.Kernel.Kernel

/-!
What becomes of the mappings of a memory object when a handle leaves the process or a
page leaves the object. A process is named by its slot in the process table.
-/
namespace Tessera

namespace Kernel
variable {cfg : Config} {σ : Type}

def setProcess (k : Kernel cfg σ) (slot : Nat) (p : Process cfg) : Kernel cfg σ :=
  { k with processes := k.processes.put slot p }

def setAlloc (k : Kernel cfg σ) (alloc : σ) : Kernel cfg σ := { k with alloc }

def setMemory (k : Kernel cfg σ) (memory : MemoryTable cfg) : Kernel cfg σ := { k with memory }

section
variable [FrameSource σ]

section
variable (k : Kernel cfg σ)

def unmapPageIn (object : ObjectId) (offset : Nat) (k : Kernel cfg σ) (slot : Nat) : Kernel cfg σ :=
  match k.processes.cell slot with
  | none => k
  | some p =>
    match p.unmapObjectPage object offset k.alloc with
    | (_, p, alloc) => (k.setAlloc alloc).setProcess slot p

def unmapObjectPage (object : ObjectId) (offset : Nat) : Kernel cfg σ :=
  (List.range cfg.maxProcesses).foldl (unmapPageIn object offset) k

def cacheGiveBack : Kernel cfg σ := { k with cacheBudget := k.cacheBudget.freeOrdinary }

/-- The page leaves the object first, then every process that maps it. -/
def evictPage (object : ObjectId) (offset : Nat) : Bool × Kernel cfg σ :=
  match k.memory.evict object offset with
  | (none, _) => (false, k)
  | (some frame, memory) =>
    match { k with memory }.unmapObjectPage object offset with
    | k => (true, (k.setAlloc (FrameSource.freeFrame k.alloc frame)).cacheGiveBack)

def revokeMemoryMappings (slot : Nat) (object : ObjectId) : Kernel cfg σ :=
  match k.processes.cell slot with
  | none => k
  | some p =>
    match p.revokeMemoryMappingsUnlessHeld object k.alloc with
    | (_, p, alloc) => (k.setAlloc alloc).setProcess slot p

end

end

end Kernel
end Tessera
