import Tessera.Vm.FundedOperations
import Tessera.Vm.OrderlyRecords

/-!
Address spaces over one memory, and the memory objects whose frames they share. A
store goes to the frame the page table names; a copy-on-write fault copies the page
into the private frame. Every page, page table and object that holds a frame holds a
reference of its own, whatever the spaces do.
-/
namespace Tessera
open Function Tally
variable {cfg : Config} {σ : Type}

structure CowSystem (cfg : Config) (σ : Type) where
  space : Nat → Option (AddressSpace cfg)
  memory : FrameMemory σ (Nat → UInt8)
  object : Nat → Option PhysFrame

inductive CowAction where
  | make (id : Nat)
  | vm (id : Nat) (a : VmAction)
  | store (id va : Nat) (b : UInt8)
  | drawObject (i : Nat) (bytes : Nat → UInt8)
  | dropObject (i : Nat)

namespace AddressSpace
variable [FrameSource σ] (port : ArchPort)

/-- The copy a copy-on-write fault makes: the page's new frame gets what was in its
    old one. -/
def copyPage (sp sp' : AddressSpace cfg) (va : Nat) (m m' : FrameMemory σ (Nat → UInt8)) :
    FrameMemory σ (Nat → UInt8) :=
  match sp.arch.translate va, sp'.arch.translate va with
  | some (shared, _), some (priv, _) => { m' with held := update m'.held priv (m.held shared) }
  | _, _ => m'

def fault (sp : AddressSpace cfg) (va : Nat) (write : Bool) (m : FrameMemory σ (Nat → UInt8)) :
    AddressSpace cfg × FrameMemory σ (Nat → UInt8) :=
  match sp.resolveFault port va write m with
  | (.copied, sp', m') => (sp', sp.copyPage sp' va m m')
  | (_, sp', m') => (sp', m')

def operate (sp : AddressSpace cfg) (m : FrameMemory σ (Nat → UInt8)) :
    VmAction → Option (AddressSpace cfg) × FrameMemory σ (Nat → UInt8)
  | .resolveFault va write => (some (sp.fault port va write m).1, (sp.fault port va write m).2)
  | a => sp.perform port m a

end AddressSpace

namespace CowSystem
variable [FrameSource σ] (port : ArchPort)

section
variable (w : CowSystem cfg σ)

def entry (id p : Nat) : Option (PhysFrame × PageFlags) :=
  (w.space id).bind (·.arch.pages p)

def read (id va : Nat) : Option UInt8 :=
  (w.entry id (va / frameSize)).map fun e => w.memory.held e.1 (va % frameSize)

/-- A store, if the page can be written; otherwise it faults and nothing is stored. -/
def store (id va : Nat) (b : UInt8) : CowSystem cfg σ :=
  match w.entry id (va / frameSize) with
  | some (f, fl) =>
    if fl.writable then
      { w with memory.held := update w.memory.held f (update (w.memory.held f) (va % frameSize) b) }
    else w
  | none => w

def perform : CowAction → Option (CowSystem cfg σ)
  | .make id =>
    if (w.space id).isSome then none
    else
      match AddressSpace.new w.memory with
      | (.error _, memory) => some { w with memory }
      | (.ok sp, memory) => some { w with space := update w.space id (some sp), memory }
  | .vm id a =>
    (w.space id).map fun sp =>
      { w with space := update w.space id (sp.operate port w.memory a).1, memory := (sp.operate port w.memory a).2 }
  | .store id va b => some (w.store id va b)
  | .drawObject i bytes =>
    if (w.object i).isSome then none
    else
      match FrameSource.allocFrame w.memory with
      | (none, memory) => some { w with memory }
      | (some f, memory) =>
        some { w with memory := ⟨memory.source, update memory.held f bytes⟩, object := update w.object i (some f) }
  | .dropObject i =>
    (w.object i).map fun f =>
      { w with memory := FrameSource.freeFrame w.memory f, object := update w.object i none }

def Step (a : CowAction) (w' : CowSystem cfg σ) : Prop := w.perform port a = some w'

def boot (memory : FrameMemory σ (Nat → UInt8)) : CowSystem cfg σ := ⟨fun _ => none, memory, fun _ => none⟩

end

end CowSystem

/-- Whoever can hold a frame: a page or a page table of a space, or an object. -/
inductive Holder where
  | page (id p : Nat)
  | table (id i : Nat)
  | object (i : Nat)
  deriving DecidableEq

namespace Holder

def isPage : Holder → Bool
  | .page _ _ => true
  | _ => false

def inside (id : Nat) (pin : Nat → Option PhysFrame) : Holder → Bool
  | .page j p => decide (j = id) && (pin p).isNone
  | .table j _ => decide (j = id)
  | .object _ => false

def place : Holder → Nat
  | .page _ p => p
  | .table _ i => i
  | .object i => i

end Holder

namespace CowSystem
variable {w w' : CowSystem cfg σ} {id : Nat} {sp sp' : AddressSpace cfg} {f : PhysFrame}

def holds (w : CowSystem cfg σ) : Holder → Option PhysFrame
  | .page id p => (w.space id).bind (·.arch.frameAt p)
  | .table id i => (w.space id).bind (·.arch.tableFrames[i]?)
  | .object i => w.object i

def beside (w : CowSystem cfg σ) (id : Nat) (pin : Nat → Option PhysFrame) (k : Holder) : Option PhysFrame :=
  if k.inside id pin then none else w.holds k

theorem entry_of_space (here : w.space id = some sp) (p : Nat) : w.entry id p = sp.arch.pages p := by
  rw [entry, here, Option.bind_some]

theorem holds_page_eq_some : w.holds (.page id p) = some f ↔ ∃ fl, w.entry id p = some (f, fl) := by
  simp only [holds, entry, Option.bind_eq_some_iff, ArchSpace.frameAt, Option.map_eq_some_iff, Prod.exists]
  constructor
  · rintro ⟨sp,here,_,fl,there,rfl⟩
    exact ⟨fl,sp,here,there⟩
  · rintro ⟨fl,sp,here,there⟩
    exact ⟨sp,here,f,fl,there,rfl⟩

section
variable [FrameSource σ] [CountedSource σ]

/-- No frame has more holders than the source counts references. -/
def Counted (w : CowSystem cfg σ) : Prop :=
  ∃ refs, CountedSource.Counts refs w.memory ∧ ∀ f, AtMost w.holds f (refs f)

theorem Counted.opened (counted : Counted w) (here : w.space id = some sp)
    (pins : ∀ p f, pin p = some f → sp.arch.frameAt p = some f) (given : PhysFrame → Prop) :
    ∃ rest before, ArchSpace.Funded ⟨pin, rest, before, given, w.memory.held⟩ sp.arch [] w.memory ∧
      (∀ f, AtMost (w.beside id pin) f (rest f)) ∧ ∀ f k, (∀ j, w.holds j = some f → j = k) → before f ≤ 1 := by
  obtain ⟨_,counts,most⟩ := counted
  choose keys distinct all tight using fun f => exists_tight (most f)
  choose own rest owns others enough using fun f => (tight f).split (fun k => k.inside id pin = true)
  choose pages tables ofPages ofTables within using fun f => (owns f).split (fun k => k.isPage = true)
  have pagesAt : ∀ f, AtMost (sp.arch.loose pin) f (pages f) := by
    intro f
    refine (ofPages f).rename (Holder.page id) (fun _ _ _ _ same => ?_) fun p loose => ?_
    · cases same
      rfl
    unfold ArchSpace.loose at loose
    split at loose
    · cases loose
    rename_i free
    have unpinned : (pin p).isNone = true := by simpa using free
    simp [Holder.isPage, Holder.inside, unpinned, holds, here, loose]
  have tablesAt : ∀ f, sp.arch.tableFrames.count f ≤ tables f := by
    intro f
    refine count_le ((ofTables f).rename (Holder.table id) (fun _ _ _ _ same => ?_) fun _ there => ?_)
    · cases same
      rfl
    · simp [Holder.isPage, Holder.inside, holds, here, there]
  refine ⟨rest,fun f => (keys f).length,⟨⟨fun f => (keys f).length,?_,fun f => ⟨pages f,pagesAt f,?_⟩,?_⟩,
    fun p f pinned => ⟨pins p f pinned,?_⟩,fun _ _ => rfl⟩,others,fun f k only => ?_⟩
  · exact CountedSource.fewer counts fun f => most f (keys f) (distinct f) (all f)
  · have := tablesAt f
    have := within f
    have := enough f
    simp only [List.count_nil]
    omega
  · exact fun f => Or.inl (Nat.le_max_left _ _)
  · have unmoved : pin p = some f := pinned
    refine (others f).pos (k := .page id p) ?_
    simp [Holder.inside, unmoved, holds, here, pins p f pinned]
  · have atMost : AtMost w.holds f 1 := by
      intro list nodup mem
      rcases list with _ | ⟨x,_ | ⟨y,_⟩⟩
      · exact Nat.zero_le _
      · exact Nat.le_refl _
      have first := only x (mem x (by simp))
      have second := only y (mem y (by simp))
      rw [first, second] at nodup
      simp at nodup
    exact atMost (keys f) (distinct f) (all f)

theorem closed {memory : FrameMemory σ (Nat → UInt8)}
    (funded : ArchSpace.Funded e sp'.arch [] memory) (free : ∀ p, e.pin p = none)
    (others : ∀ f, AtMost (w.beside id e.pin) f (e.rest f)) (space : w'.space = update w.space id (some sp'))
    (obj : w'.object = w.object) : ∃ refs, CountedSource.Counts refs memory ∧ (∀ f, AtMost w'.holds f (refs f)) ∧
      ∀ f, refs f ≤ max (e.before f) 1 ∨ e.given f := by
  obtain ⟨refs,counts,held,grown⟩ := funded.counted
  refine ⟨refs,counts,fun f => ?_,grown⟩
  obtain ⟨n,most,_⟩ := held f
  have elsewhere : AtMost (fun k => if k.inside id e.pin = true then none else w'.holds k) f (e.rest f) := by
    refine (others f).fewer fun k there => ?_
    unfold beside
    split at there
    · cases there
    rename_i out
    rw [if_neg out]
    cases k with
    | page j =>
      have other : j ≠ id := by
        rintro rfl
        simp [Holder.inside, free] at out
      simpa [holds, space, update_of_ne other] using there
    | table j =>
      have other : j ≠ id := by
        rintro rfl
        simp [Holder.inside] at out
      simpa [holds, space, update_of_ne other] using there
    | object => simpa [holds, obj] using there
  have pages : AtMost (fun k => if k.isPage = true then
      (if k.inside id e.pin = true then w'.holds k else none) else none) f n := by
    refine most.rename Holder.place (fun j k _ _ _ => ?_) fun k there => ?_
    · cases j <;> cases k <;> simp_all [Holder.isPage, Holder.inside, Holder.place]
    cases k with
    | page =>
      simp only [Holder.isPage, if_true] at there
      split at there
      · rename_i mine
        simp only [Holder.inside, Bool.and_eq_true, decide_eq_true_eq] at mine
        simpa [holds, space, mine.1, ArchSpace.loose, free, Holder.place] using there
      · cases there
    | table | object => simp [Holder.isPage] at there
  have tables : AtMost (fun k => if k.isPage = true then none else
      (if k.inside id e.pin = true then w'.holds k else none)) f (sp'.arch.tableFrames.count f) := by
    refine (atMost_getElem sp'.arch.tableFrames f).rename Holder.place (fun j k _ _ _ => ?_) fun k there => ?_
    · cases j <;> cases k <;> simp_all [Holder.isPage, Holder.inside, Holder.place]
    cases k with
    | table =>
      simp only [Holder.isPage, Bool.false_eq_true, if_false] at there
      split at there
      · rename_i mine
        simp only [Holder.inside, decide_eq_true_eq] at mine
        simpa [holds, space, mine, Holder.place] using there
      · cases there
    | page => simp [Holder.isPage] at there
    | object => simp [Holder.inside] at there
  have mine := AtMost.join (fun k : Holder => k.isPage = true) pages tables
  refine (AtMost.join (fun k : Holder => k.inside id e.pin = true) mine elsewhere).mono ?_
  omega

omit [FrameSource σ] [CountedSource σ] in
theorem closed_gone {e : ArchSpace.Backdrop (Nat → UInt8)} {refs : PhysFrame → Nat}
    (enough : ∀ f, e.rest f ≤ refs f) (others : ∀ f, AtMost (w.beside id e.pin) f (e.rest f))
    (space : w'.space = update w.space id none) (obj : w'.object = w.object) : ∀ f, AtMost w'.holds f (refs f) := by
  intro f
  refine ((others f).fewer fun k there => ?_).mono (enough f)
  cases k with
  | page j | table j =>
    by_cases same : j = id
    · simp [holds, space, same] at there
    · simpa [beside, Holder.inside, same, holds, space] using there
  | object => simpa [beside, Holder.inside, holds, obj] using there

end
end CowSystem
end Tessera
