import Tessera.Config
import Tessera.Arch
import Tessera.Lib.Bounded

/-!
The boot frame allocator: a bump cursor over the usable regions of the memory
map, a bounded stack of freed frames that is used first, and a bounded side
table of reference counts for frames with more than one reference. Events and
their records are left out; the overflow counter stays.
-/
namespace Tessera

/-- An entry of the shared table. A frame with one reference is not listed. -/
structure SharedFrame where
  base : Nat
  count : Nat
  atLeastTwo : 2 ≤ count
  deriving DecidableEq

structure BumpFrameAllocator (cfg : Config) where
  map : List MemoryRegion
  region : Nat
  cursor : Nat
  handedOut : Nat
  freeList : Bounded Nat cfg.maxFreeFrames
  shared : Bounded SharedFrame cfg.maxSharedFrames
  reclaimOverflows : Nat
  deriving DecidableEq

namespace BumpFrameAllocator
variable {cfg : Config}

section
variable (s : BumpFrameAllocator cfg) (base : Nat)

def boundsOf (r : MemoryRegion) : Option (Nat × Nat) :=
  if r.kind = .usable then do
    let start ← alignUp r.base
    let stop ← r.end?
    if alignDown stop ≤ start then none else some (start, alignDown stop)
  else none

def usableBounds (map : List MemoryRegion) (index : Nat) : Option (Nat × Nat) :=
  map[index]?.bind boundsOf

def firstUsable (map : List MemoryRegion) (start : Nat) : Nat :=
  start + ((map.drop start).takeWhile fun r => (boundsOf r).isNone).length

def advanceToUsableRegion (start : Nat) : BumpFrameAllocator cfg :=
  { s with
    region := firstUsable s.map start
    cursor := ((usableBounds s.map (firstUsable s.map start)).map Prod.fst).getD s.cursor }

def new (map : List MemoryRegion) : BumpFrameAllocator cfg :=
  advanceToUsableRegion ⟨map, 0, 0, 0, .empty, .empty, 0⟩ 0

/-- One turn of the cursor loop of `alloc`: what it returns, or the state it
    goes round with. -/
def bumpTurn : (Option PhysFrame × BumpFrameAllocator cfg) ⊕ BumpFrameAllocator cfg :=
  match usableBounds s.map s.region with
  | none => .inl (none, s)
  | some (start, stop) =>
    let s := { s with cursor := max s.cursor start }
    match checkedAdd s.cursor frameSize with
    | none => .inl (none, s)
    | some next =>
      if next ≤ stop then
        match PhysFrame.fromBase s.cursor with
        | none => .inl (none, s)
        | some frame => .inl (some frame, { s with cursor := next, handedOut := s.handedOut + 1 })
      else
        let s := s.advanceToUsableRegion (s.region + 1)
        if s.map.length ≤ s.region then .inl (none, s) else .inr s

/-- Every turn moves to a later region, so the regions left bound the turns and
    running out of turns is running out of memory. -/
def bump (s : BumpFrameAllocator cfg) : Nat → Option PhysFrame × BumpFrameAllocator cfg
  | 0 => (none, s)
  | turns + 1 =>
    match s.bumpTurn with
    | .inl out => out
    | .inr s => s.bump turns

def alloc : Option PhysFrame × BumpFrameAllocator cfg :=
  match s.freeList.pop with
  | some (base, rest) => (PhysFrame.fromBase base, { s with freeList := rest })
  | none => s.bump (s.map.length - s.region)

def remaining : Nat :=
  s.freeList.items.length +
    (match usableBounds s.map s.region with
      | some (start, stop) => (stop - max s.cursor start) / frameSize
      | none => 0) +
    ((s.map.drop (s.region + 1)).map fun r =>
      match boundsOf r with
      | some (start, stop) => (stop - start) / frameSize
      | none => 0).sum

/-- The loop of `alloc_contiguous`: a frame that does not follow the one before
    it starts the run over, and the frames of the broken run are not given back. -/
def extendRun (count : Nat) (s : BumpFrameAllocator cfg) (runStart prev : PhysFrame) (runLen : Nat) :
    Nat → Option Nat × BumpFrameAllocator cfg
  | 0 => (if runLen < count then none else some runStart.base, s)
  | turns + 1 =>
    if runLen < count then
      match s.alloc with
      | (none, s) => (none, s)
      | (some frame, s) =>
        if frame.base = prev.base + frameSize then s.extendRun count runStart frame (runLen + 1) turns
        else s.extendRun count frame frame 1 turns
    else (some runStart.base, s)

def allocContiguous (count : Nat) : Option Nat × BumpFrameAllocator cfg :=
  if count = 0 then (none, s)
  else
    match s.alloc with
    | (none, s) => (none, s)
    | (some first, s) => s.extendRun count first first 1 (s.remaining + 1)

def sharedIndex : Option Nat :=
  s.shared.items.findIdx? (·.base = base)

def retain : BumpFrameAllocator cfg :=
  match s.sharedIndex base with
  | some i =>
    match s.shared.items[i]? with
    | some e => { s with shared := s.shared.set i ⟨e.base, e.count + 1, by have := e.atLeastTwo; omega⟩ }
    | none => s
  | none =>
    match s.shared.push ⟨base, 2, by omega⟩ with
    | some shared => { s with shared }
    | none => { s with reclaimOverflows := s.reclaimOverflows + 1 }

def release : BumpFrameAllocator cfg :=
  match s.sharedIndex base with
  | some i =>
    match s.shared.items[i]? with
    | some e =>
      if h : e.count - 1 ≤ 1 then { s with shared := s.shared.swapRemove i }
      else { s with shared := s.shared.set i ⟨e.base, e.count - 1, by omega⟩ }
    | none => s
  | none =>
    match s.freeList.push base with
    | some freeList => { s with freeList }
    | none => { s with reclaimOverflows := s.reclaimOverflows + 1 }

def totalUsableFrames : Nat :=
  (s.map.map fun r =>
    match boundsOf r with
    | some (start, stop) => (stop - start) / frameSize
    | none => 0).sum

instance : FrameSource (BumpFrameAllocator cfg) where
  allocFrame := alloc
  retainFrame s f := s.retain f.base
  freeFrame s f := s.release f.base
  framesAvailable s := some (s.totalUsableFrames - s.handedOut + s.freeList.items.length)

end

end BumpFrameAllocator
end Tessera
