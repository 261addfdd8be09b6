import Tessera.Vm.PageTable

/-!
The x86-64 page tables as they lie in physical memory: tables of 512 entries, four
levels, leaves of 4 KiB at the last level and of 2 MiB one above. The portable layer
sees a space as a map from pages to leaves; here a space is the address of its
top-level table and everything else is reached by walking, so two spaces can share
what lies below an entry. Local invalidations have no effect on this state.
-/
namespace Tessera.X8664
open FrameSource Function

/-- A present entry. A table entry and a leaf look alike; the level tells them apart,
    and the `huge` bit marks a leaf above the last level. -/
structure Entry where
  phys : Nat
  huge : Bool
  flags : PageFlags
  deriving DecidableEq

abbrev Tables := Nat → Nat → Option Entry

def index (virt shift : Nat) : Nat := virt / 2 ^ shift % 512

/-- Intermediate entries are writable, executable and open to user mode: the leaf
    alone decides. -/
def Entry.table (next : Nat) : Entry :=
  ⟨next, false, { PageFlags.rw.user with executable := true }⟩

namespace Tables

def clearFrame (mem : Tables) (phys : Nat) : Tables := update mem phys fun _ => none

def writeEntry (mem : Tables) (table idx : Nat) (value : Option Entry) : Tables :=
  update mem table (update (mem table) idx value)

def copyUpper (mem : Tables) (source target : Nat) : Tables :=
  update mem target fun idx => if 256 ≤ idx ∧ idx < 512 then mem source idx else mem target idx

end Tables

/-- The flags a leaf can have. The hardware has no bit against reading. -/
def leafBits (flags : PageFlags) : Except KError PageFlags :=
  if flags.isWx then .error .wxViolation
  else if !flags.readable then .error .invalidMapping
  else .ok flags

section
variable {σ : Type} [FrameSource σ]

section
variable (mem : Tables)

def new (source : σ) : Except KError Nat × Tables × σ :=
  match allocFrame source with
  | (.none, source) => (.error .outOfMemory, mem, source)
  | (.some root, source) => (.ok root.base, mem.clearFrame root.base, source)

def newUser (kernel : Nat) (source : σ) : Except KError Nat × Tables × σ :=
  match allocFrame source with
  | (.none, source) => (.error .outOfMemory, mem, source)
  | (.some root, source) => (.ok root.base, (mem.clearFrame root.base).copyUpper kernel root.base, source)

/-- Descends from a table, drawing and linking in every table that is missing. -/
def walkTo (mem : Tables) (source : σ) (table virt : Nat) : List Nat → Except KError Nat × Tables × σ
  | [] => (.ok table, mem, source)
  | shift :: rest =>
    match mem table (index virt shift) with
    | .some entry =>
      if entry.huge then (.error .alreadyMapped, mem, source) else walkTo mem source entry.phys virt rest
    | .none =>
      match allocFrame source with
      | (.none, source) => (.error .outOfMemory, mem, source)
      | (.some frame, source) =>
        walkTo ((mem.clearFrame frame.base).writeEntry table (index virt shift) (some (.table frame.base)))
          source frame.base virt rest

def mapLeaf (root virt phys size : Nat) (shifts : List Nat) (shift : Nat) (entry : Entry)
    (source : σ) : Except KError Unit × Tables × σ :=
  if virt % size ≠ 0 ∨ phys % size ≠ 0 then (.error .unaligned, mem, source)
  else
    match walkTo mem source root virt shifts with
    | (.error e, mem, source) => (.error e, mem, source)
    | (.ok table, mem, source) =>
      match mem table (index virt shift) with
      | .some _ => (.error .alreadyMapped, mem, source)
      | .none => (.ok (), mem.writeEntry table (index virt shift) (some entry), source)

def map4k (root virt phys : Nat) (bits : PageFlags) (source : σ) : Except KError Unit × Tables × σ :=
  mapLeaf mem root virt phys 4096 [39, 30, 21] 12 ⟨phys, false, bits⟩ source

def map2m (root virt phys : Nat) (bits : PageFlags) (source : σ) : Except KError Unit × Tables × σ :=
  mapLeaf mem root virt phys 0x200000 [39, 30] 21 ⟨phys, true, bits⟩ source

def map (root virt : Nat) (frame : PhysFrame) (flags : PageFlags) (source : σ) : Except KError Unit × Tables × σ :=
  match leafBits flags with
  | .error e => (.error e, mem, source)
  | .ok bits => map4k mem root virt frame.base bits source

end

end

def findTable (mem : Tables) (table virt : Nat) : List Nat → Except KError Nat
  | [] => .ok table
  | shift :: rest =>
    match mem table (index virt shift) with
    | .none => .error .notMapped
    | .some entry => if entry.huge then .error .notMapped else findTable mem entry.phys virt rest

def find4k (mem : Tables) (root virt : Nat) : Except KError (Nat × Nat) :=
  match findTable mem root virt [39, 30, 21] with
  | .error e => .error e
  | .ok table => .ok (table, index virt 12)

def unmap (mem : Tables) (root virt : Nat) : Except KError PhysFrame × Tables :=
  match find4k mem root virt with
  | .error e => (.error e, mem)
  | .ok (table, idx) =>
    match mem table idx with
    | .none => (.error .notMapped, mem)
    | .some entry =>
      match PhysFrame.fromBase entry.phys with
      | .none => (.error .invalidMapping, mem.writeEntry table idx none)
      | .some frame => (.ok frame, mem.writeEntry table idx none)

def protect (mem : Tables) (root virt : Nat) (flags : PageFlags) : Except KError Unit × Tables :=
  match leafBits flags with
  | .error e => (.error e, mem)
  | .ok bits =>
    match find4k mem root virt with
    | .error e => (.error e, mem)
    | .ok (table, idx) =>
      match mem table idx with
      | .none => (.error .notMapped, mem)
      | .some entry => (.ok (), mem.writeEntry table idx (some ⟨entry.phys, false, bits⟩))

def translate (mem : Tables) (root virt : Nat) : Option (PhysFrame × PageFlags) :=
  match find4k mem root virt with
  | .error _ => none
  | .ok (table, idx) =>
    match mem table idx with
    | .none => none
    | .some entry => (PhysFrame.fromBase entry.phys).map fun frame => (frame, entry.flags)

/-- The entries the processor passes on its way to an address, from the top-level
    table down to the leaf or to the last table in which something is missing. -/
def passed (mem : Tables) (table virt : Nat) : List Nat → List Entry
  | [] => []
  | shift :: rest =>
    match mem table (index virt shift) with
    | .none => []
    | .some entry => if entry.huge then [entry] else entry :: passed mem entry.phys virt rest

def walk (mem : Tables) (root virt : Nat) : List Entry := passed mem root virt [39, 30, 21, 12]

section
variable {σ : Type} [FrameSource σ]

def freeTable (table : Nat) (source : σ) : σ :=
  match PhysFrame.fromBase table with
  | .none => source
  | .some frame => freeFrame source frame

def freeEntry (mem : Tables) (table : Nat) (below : Nat → σ → σ) (source : σ) (idx : Nat) : σ :=
  match mem table idx with
  | .none => source
  | .some entry => if entry.huge then source else below entry.phys source

/-- Frees the table and every table beneath it, children first. A table of level one
    holds leaves, which are not freed here. -/
def freeSubtree (mem : Tables) : (level table : Nat) → σ → σ
  | 0, _, source => source
  | 1, table, source => freeTable table source
  | level + 2, table, source =>
    freeTable table ((List.range 512).foldl (freeEntry mem table (freeSubtree mem (level + 1))) source)

/-- Frees the tables of the lower half and the top-level table. The upper half
    belongs to the kernel. -/
def freeTables (mem : Tables) (root : Nat) (source : σ) : σ :=
  freeTable root ((List.range 256).foldl (freeEntry mem root (freeSubtree mem 3)) source)

end

/-- Among canonical addresses the indices of a walk down to some level, the tables of the
    portable model and the page number tell the same addresses apart. -/
theorem canonical_addresses_by_index {va va' : Nat} (canonical : ArchPort.x8664.Canonical va 1)
    (canonical' : ArchPort.x8664.Canonical va' 1) :
    ((∀ shift ∈ [39, 30, 21], index va shift = index va' shift) ↔ ArchPort.x8664.walk va = ArchPort.x8664.walk va') ∧
      ((∀ shift ∈ [39, 30, 21, 12], index va shift = index va' shift) ↔ va / frameSize = va' / frameSize) := by
  simp only [ArchPort.Canonical, ArchPort.x8664] at canonical canonical'
  simp only [ArchPort.x8664, index, frameSize, List.mem_cons, List.not_mem_nil, or_false, forall_eq_or_imp, forall_eq,
    List.cons.injEq, and_true, Nat.reducePow]
  constructor <;> omega

end Tessera.X8664
