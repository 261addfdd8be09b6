import Tessera.Lib.Transition
import Tessera.Memory.Pmem
import Tessera.Vm.PageWrites

/-!
The address spaces of a machine over one frame source, and what every call made in
any of them keeps: no record and no page is both writable and executable, and what
carries the user bit lies below the architecture's boundary as long as snapshots and
changes of rights respect it. A space begins with the leaves the port has mapped in
it; the one the portable constructor makes has none.
-/
namespace Tessera
open Option
variable {σ : Type} {cfg : Config} {port : ArchPort} {sp sp' : AddressSpace cfg} {source source' : σ}

inductive SpaceCall where
  | vm (a : VmAction)
  | supplyPage (va : Nat) (frame : PhysFrame)

structure Spaces (cfg : Config) (σ : Type) where
  space : Nat → Option (AddressSpace cfg)
  source : σ

inductive SpacesAction where
  | make (id : Nat) (leaves : List (Nat × PhysFrame × PageFlags))
  | call (id : Nat) (c : SpaceCall)

namespace ArchSpace
variable [FrameSource σ] (port : ArchPort)

def mapLeaves (a : ArchSpace) (source : σ) : List (Nat × PhysFrame × PageFlags) → Except KError Unit × ArchSpace × σ
  | [] => (.ok (), a, source)
  | (va, frame, flags) :: rest =>
    match a.map port va frame flags source with
    | (.error e, a, source) => (.error e, a, source)
    | (.ok (), a, source) => a.mapLeaves source rest

end ArchSpace

namespace AddressSpace
variable [FrameSource σ] (port : ArchPort)

def wrap (leaves : List (Nat × PhysFrame × PageFlags)) (source : σ) : Except KError (AddressSpace cfg) × σ :=
  match ArchSpace.new source with
  | (.error e, source) => (.error e, source)
  | (.ok arch, source) =>
    match arch.mapLeaves port source leaves with
    | (.error e, _, source) => (.error e, source)
    | (.ok (), arch, source) => (.ok (fromArch arch), source)

def call (sp : AddressSpace cfg) (source : σ) : SpaceCall → Option (AddressSpace cfg) × σ
  | .vm a => sp.perform port source a
  | .supplyPage va frame =>
    match sp.supplyPage port va frame source with
    | (_, sp, source) => (some sp, source)

end AddressSpace

namespace Spaces
variable [FrameSource σ] (port : ArchPort)

def perform (w : Spaces cfg σ) : SpacesAction → Option (Spaces cfg σ)
  | .make id leaves =>
    if (w.space id).isSome then none
    else
      match AddressSpace.wrap port leaves w.source with
      | (.error _, source) => some { w with source }
      | (.ok sp, source) => some ⟨Function.update w.space id (some sp), source⟩
  | .call id c =>
    (w.space id).map fun sp =>
      ⟨Function.update w.space id (sp.call port w.source c).1, (sp.call port w.source c).2⟩

def Step (w : Spaces cfg σ) (a : SpacesAction) (w' : Spaces cfg σ) : Prop := w.perform port a = some w'

def none (source : σ) : Spaces cfg σ := ⟨fun _ => .none, source⟩

variable {port}
open Transition

theorem every_space {allowed : Spaces cfg σ → SpacesAction → Prop} (keep : AddressSpace cfg → Prop)
    (made : ∀ w id leaves sp source', allowed w (.make id leaves) →
      AddressSpace.wrap port leaves w.source = (.ok sp, source') → keep sp)
    (kept : ∀ w id c sp sp' source', keep sp → w.space id = some sp → allowed w (.call id c) →
      sp.call port w.source c = (some sp', source') → keep sp')
    (run : Disciplined (fun _ => allowed) (Step port) (none source) history w) :
    ∀ id sp, w.space id = some sp → keep sp := by
  refine run.invariant (fun _ w => ∀ id sp, w.space id = some sp → keep sp) ?_ ?_
  · intro _ w a _ before ok step id sp there
    cases a with
    | make =>
      simp only [Step, perform] at step
      split at step
      · cases step
      split at step
      · cases step
        exact before id sp there
      rename_i wrapped
      cases step
      dsimp only at there
      rw [Function.update_apply] at there
      split at there
      · cases there
        exact made _ _ _ _ _ ok wrapped
      · exact before id sp there
    | call target c =>
      obtain ⟨old,here,result⟩ := map_eq_some_iff.mp step
      cases result
      dsimp only at there
      rw [Function.update_apply] at there
      split at there
      · exact kept w target c old sp _ (before target old here) here ok (Prod.ext there rfl)
      · exact before id sp there
  · intro _ _ there
    cases there

end Spaces

namespace AddressSpace
variable [FrameSource σ]

def CallPuts (port : ArchPort) (sp : AddressSpace cfg) : SpaceCall → Nat → PageFlags → Prop
  | .vm a => sp.Puts port a
  | .supplyPage va frame => sp.Puts port (.installObjectPage va frame)

def CallMakes (port : ArchPort) (sp : AddressSpace cfg) : SpaceCall → Mapping → Prop
  | .vm a => sp.Makes port a
  | .supplyPage _ _ => fun _ => False

theorem call_writes (done : sp.call port source c = (some sp', source')) :
    Writes (fun p fl => fl.isWx = false ∧ sp.CallPuts port c p fl) (sp.CallMakes port c) sp sp' := by
  cases c with
  | vm => exact perform_writes done
  | supplyPage =>
    cases done
    exact Edits.writes (supplyPage_edits (fun m found plain => ⟨plain,m,found,rfl,rfl⟩) rfl)

theorem wrap_pages (made : AddressSpace.wrap port leaves source = (.ok sp, source')) :
    (∀ i, sp.mappings.cell i = none) ∧ ∀ p f fl, sp.arch.pages p = some (f, fl) →
      fl.isWx = false ∧ ∃ va, (va, f, fl) ∈ leaves ∧ p = va / frameSize := by
  have grows : ∀ {a b : ArchSpace} {source source' : σ} {ls : List (Nat × PhysFrame × PageFlags)}
      {result : Except KError Unit}, a.mapLeaves port source ls = (result, b, source') →
      ∀ p f fl, b.pages p = some (f, fl) → a.pages p = some (f, fl) ∨
        fl.isWx = false ∧ ∃ va, (va, f, fl) ∈ ls ∧ p = va / frameSize := by
    intro a _ source _ ls result mapped
    induction ls generalizing a source with
    | nil =>
      cases mapped
      exact fun _ _ _ => Or.inl
    | cons leaf rest ih =>
      obtain ⟨va,frame,flags⟩ := leaf
      intro p f fl there
      have one : ∀ {result : Except KError Unit} {c : ArchSpace} {left : σ},
          a.map port va frame flags source = (result, c, left) → c.pages p = some (f, fl) →
          a.pages p = some (f, fl) ∨ fl.isWx = false ∧
            ∃ va', (va', f, fl) ∈ (va, frame, flags) :: rest ∧ p = va' / frameSize := by
        intro _ _ _ call here
        rcases ArchSpace.map_cases call with added | same
        · rw [added.2.2.2.2, Function.update_apply] at here
          split at here
          · rename_i place
            cases here
            exact .inr ⟨added.2.2.2.1,va,List.mem_cons_self ..,place⟩
          · exact .inl here
        · exact .inl (same.2 ▸ here)
      unfold ArchSpace.mapLeaves at mapped
      split at mapped
      · rename_i call
        cases mapped
        exact one call there
      rename_i call
      rcases ih mapped p f fl there with here | later
      · exact one call here
      · obtain ⟨plain,va',mem,place⟩ := later
        exact .inr ⟨plain,va',List.mem_cons_of_mem _ mem,place⟩
  unfold AddressSpace.wrap at made
  split at made
  · cases made
  rename_i created
  split at made
  · cases made
  rename_i mapped
  cases made
  refine ⟨fun i => Slots.cell_empty i,fun p f fl there => ?_⟩
  rcases grows mapped p f fl there with old | new
  · unfold ArchSpace.new at created
    split at created
    · cases created
    · cases created
      cases old
  · exact new

structure Plain (sp : AddressSpace cfg) : Prop where
  records : ∀ i m, sp.mappings.cell i = some m → m.rights.isWx = false
  pages : ∀ p f fl, sp.arch.pages p = some (f, fl) → fl.isWx = false

theorem Plain.call (plain : sp.Plain) (done : sp.call port source c = (some sp', source')) : sp'.Plain := by
  have writes := call_writes done
  constructor
  · intro i m there
    rcases writes.records i m there with old | new
    · exact plain.records i m old
    cases c with
    | supplyPage => exact new.elim
    | vm a =>
      cases a with
      | mapAnonymous | mapShared | mapAnonymousDemand | mapObject =>
        obtain ⟨checked,rfl⟩ := new
        exact (checkNew_ok checked).2.2.2.1
      | snapshotCow =>
        obtain ⟨idx,source,_,cell,changed | copied⟩ := new
        · exact changed ▸ plain.records idx source cell
        · exact copied.2.2 ▸ plain.records idx source cell
      | protectRange =>
        obtain ⟨narrow,_,_,_,_,rfl⟩ := new
        exact narrow
      | _ => exact new.elim
  · intro p f fl there
    exact (writes.pages p f fl there).elim (plain.pages p f fl) And.left

end AddressSpace

namespace Spaces
variable [FrameSource σ]
open Transition

variable {history : List SpacesAction}

/-- Whatever is called in whatever space, with whatever rights and however it ends:
    no record and no page-table entry is both writable and executable. -/
theorem writable_xor_executable {source : σ} {w : Spaces cfg σ}
    (run : Run (Step port) (none source) history w) {id : Nat} {sp : AddressSpace cfg} (live : w.space id = some sp) :
    (∀ i m, sp.mappings.cell i = some m → m.rights.isWx = false) ∧
      ∀ p f fl, sp.arch.pages p = some (f, fl) → fl.isWx = false := by
  have plain : sp.Plain := by
    refine every_space AddressSpace.Plain ?_ ?_ run id sp live
    · intro _ _ _ _ _ _ wrapped
      obtain ⟨records,pages⟩ := AddressSpace.wrap_pages wrapped
      refine ⟨fun i m there => ?_,fun p f fl there => (pages p f fl there).1⟩
      rw [records i] at there
      cases there
    · intro _ _ _ _ _ _ before _ _ done
      exact before.call done
  exact ⟨plain.records,plain.pages⟩

def after (history : List SpacesAction) : Option (Spaces Config.default (BumpFrameAllocator Config.default)) :=
  performAll (fun _ _ _ => True) (perform ArchPort.x8664) []
    (none (BumpFrameAllocator.new [⟨0x100000, 0x100000, .usable⟩])) history

/-- Code is written through a writable page that then becomes an executable one, and
    a snapshot of it, in the second of two spaces, is executable as well. -/
theorem loaded_code_is_not_writable :
    ∃ w sp, Run (Step ArchPort.x8664) (none (BumpFrameAllocator.new [⟨0x100000, 0x100000, .usable⟩]) :
        Spaces Config.default (BumpFrameAllocator Config.default))
        [.make 0 [], .make 1 [], .call 1 (.vm (.mapAnonymous 0x40000000 4096 PageFlags.rw.user)),
          .call 1 (.vm (.protectRange 0x40000000 4096 PageFlags.rx.user)),
          .call 1 (.vm (.snapshotCow 0x40000000 0x50000000 4096))] w ∧
      w.space 1 = some sp ∧ ∃ f fl, sp.arch.pages 0x50000 = some (f, fl) ∧ fl.executable = true ∧
        fl.isWx = false := by
  simp only [exists_and_left]
  refine Disciplined.reaches_then (fun w => ∃ sp, w.space 1 = some sp ∧ ∃ e, sp.arch.pages 0x50000 = some e ∧
    e.2.executable = true) (by decide +kernel) ?_
  rintro _ run ⟨sp,live,⟨f,fl⟩,there,executable⟩
  exact ⟨sp,live,f,fl,there,executable,(writable_xor_executable run live).2 _ _ _ there⟩

end Spaces

namespace AddressSpace
variable [FrameSource σ]

/-- Whatever carries the user bit lies below the boundary, records and pages alike. -/
structure Below (port : ArchPort) (sp : AddressSpace cfg) : Prop where
  aligned : ∀ i m, sp.mappings.cell i = some m → m.base % frameSize = 0 ∧ m.len % frameSize = 0
  records : ∀ i m, sp.mappings.cell i = some m → m.rights.isUser = true → m.base + m.len ≤ port.userAddressMax
  pages : ∀ p f fl, sp.arch.pages p = some (f, fl) → fl.isUser = true → (p + 1) * frameSize ≤ port.userAddressMax

/-- The bound the mapping calls check, at the calls that do not check it themselves. -/
def RespectsBoundary (port : ArchPort) (sp : AddressSpace cfg) : SpaceCall → Prop
  | .vm (.snapshotCow src dst len) => ∀ idx ∈ sp.findExact src len, ∀ m ∈ sp.mappings.cell idx,
      m.rights.isUser = true → dst + len ≤ port.userAddressMax
  | .vm (.protectRange base len rights) => (sp.findExact base len).isSome = true → rights.isUser = true →
      base + len ≤ port.userAddressMax
  | .vm (.mapDeviceRange va _ pages reach) => reach = .user → va + pages * frameSize ≤ port.userAddressMax
  | _ => True

instance (port : ArchPort) (sp : AddressSpace cfg) (c : SpaceCall) : Decidable (sp.RespectsBoundary port c) := by
  unfold RespectsBoundary
  split <;> infer_instance

omit [FrameSource σ] in
theorem checkNew_bound (checked : sp.checkNew port base len rights = .ok ())
    (user : rights.isUser = true) : base + len ≤ port.userAddressMax := by
  unfold checkNew at checked
  split at checked
  · cases checked
  split at checked
  · cases checked
  split at checked
  · cases checked
  split at checked
  · cases checked
  rename_i bounded
  unfold checkUserBound at bounded
  rw [if_neg (by simp [user])] at bounded
  split at bounded
  · cases bounded
  rename_i sum
  split at bounded
  · cases bounded
  unfold checkedAdd at sum
  split at sum
  · cases sum
    omega
  · cases sum

theorem below_of_pagesFrom (inside : pagesFrom base 0 pages p)
    (bounded : base + pages * frameSize ≤ bound) : (p + 1) * frameSize ≤ bound := by
  obtain ⟨_,_,_,rfl⟩ := inside
  simp only [pageAt, frameSize] at *
  omega

omit [FrameSource σ] in
theorem Below.covered (below : sp.Below port) (found : sp.mappingCovering va = some m)
    (user : m.rights.isUser = true) : (va / frameSize + 1) * frameSize ≤ port.userAddressMax := by
  obtain ⟨covers,i,cell⟩ := mappingCovering_some found
  have bound := below.records i m cell user
  obtain ⟨_,_⟩ := below.aligned i m cell
  rw [Mapping.covers_iff] at covers
  simp only [frameSize] at *
  omega

theorem below_of_pages (inside : pagesFrom base 0 (len / frameSize) p)
    (bounded : base + len ≤ bound) : (p + 1) * frameSize ≤ bound :=
  below_of_pagesFrom inside (Nat.le_trans (Nat.add_le_add_left (Nat.div_mul_le_self ..) _) bounded)

theorem Below.call (below : sp.Below port) (respects : sp.RespectsBoundary port c)
    (done : sp.call port source c = (some sp', source')) : sp'.Below port := by
  have writes := call_writes done
  have records : ∀ i m, sp'.mappings.cell i = some m → (m.base % frameSize = 0 ∧ m.len % frameSize = 0) ∧
      (m.rights.isUser = true → m.base + m.len ≤ port.userAddressMax) := by
    intro i m there
    rcases writes.records i m there with old | new
    · exact ⟨below.aligned i m old,below.records i m old⟩
    cases c with
    | supplyPage => exact new.elim
    | vm a =>
      cases a with
      | mapAnonymous | mapShared | mapAnonymousDemand | mapObject =>
        obtain ⟨checked,rfl⟩ := new
        exact ⟨⟨(checkNew_ok checked).1,(checkNew_ok checked).2.2.1⟩,checkNew_bound checked⟩
      | snapshotCow =>
        obtain ⟨idx,n,found,cell,rfl | ⟨dst,len,rfl⟩⟩ := new
        · exact ⟨below.aligned idx n cell,below.records idx n cell⟩
        · exact ⟨⟨dst,len⟩,respects idx found n cell⟩
      | protectRange =>
        obtain ⟨_,idx,n,found,cell,rfl⟩ := new
        refine ⟨below.aligned idx n cell,fun user => ?_⟩
        obtain ⟨_,cell',base,len⟩ := findExact_some found
        rw [cell'] at cell
        cases cell
        rw [base, len]
        exact respects (by rw [found]; rfl) user
      | _ => exact new.elim
  refine ⟨fun i m there => (records i m there).1,fun i m there => (records i m there).2,?_⟩
  intro p f fl there user
  rcases writes.pages p f fl there with old | ⟨_,new⟩
  · exact below.pages p f fl old user
  cases c with
  | supplyPage =>
    obtain ⟨_,found,rfl,rfl⟩ := new
    exact below.covered found user
  | vm a =>
    cases a with
    | mapAnonymous =>
      obtain ⟨checked,inside,rfl⟩ := new
      exact below_of_pages inside (checkNew_bound checked user)
    | mapShared =>
      obtain ⟨checked,inside,rfl⟩ := new
      exact below_of_pagesFrom inside (checkNew_bound checked user)
    | mapDeviceRange va first pages reach =>
      obtain ⟨inside,rfl⟩ := new
      refine below_of_pagesFrom inside (respects ?_)
      cases reach
      · rfl
      · cases user
    | installObjectPage | grantWrite | reprotectRo | resolveFault =>
      obtain ⟨_,found,rfl,rfl⟩ := new
      exact below.covered found user
    | snapshotCow =>
      obtain ⟨idx,n,found,cell,rfl,inside⟩ := new
      obtain ⟨_,cell',base,size⟩ := findExact_some found
      rw [cell'] at cell
      cases cell
      rcases inside with source | ⟨_,copy⟩
      · have bound := below.records idx n cell' user
        rw [base, size] at bound
        exact below_of_pages source bound
      · exact below_of_pages copy (respects idx found n cell' user)
    | protectRange =>
      obtain ⟨exact,inside,rfl⟩ := new
      exact below_of_pages inside (respects exact user)
    | _ => exact new.elim

end AddressSpace

namespace Spaces
variable [FrameSource σ]
open Transition

def RespectsBoundary (port : ArchPort) (w : Spaces cfg σ) : SpacesAction → Prop
  | .make _ leaves => ∀ leaf ∈ leaves, leaf.2.2.isUser = true →
      (leaf.1 / frameSize + 1) * frameSize ≤ port.userAddressMax
  | .call id c => ∀ sp ∈ w.space id, sp.RespectsBoundary port c

instance (port : ArchPort) (w : Spaces cfg σ) (a : SpacesAction) : Decidable (w.RespectsBoundary port a) := by
  unfold RespectsBoundary
  split <;> infer_instance

/-- As long as snapshots and changes of rights respect the boundary, no record with the
    user bit covers an address at or above it, and no page-table entry with it a canonical
    one. -/
theorem user_bit_stays_below {source : σ} {w : Spaces cfg σ}
    (run : Disciplined (fun _ => RespectsBoundary port) (Step port) (none source) history w)
    {id : Nat} {sp : AddressSpace cfg} (live : w.space id = some sp) {va : Nat} (above : port.userAddressMax ≤ va) :
    (∀ i m, sp.mappings.cell i = some m → m.covers va = true → m.rights.isUser = false) ∧
      (port.Canonical va 1 → ∀ f fl, sp.arch.translate va = some (f, fl) → fl.isUser = false) := by
  have below : sp.Below port := by
    refine every_space (AddressSpace.Below port) ?_ ?_ run id sp live
    · intro _ _ _ _ _ respects wrapped
      obtain ⟨records,pages⟩ := AddressSpace.wrap_pages wrapped
      refine ⟨fun i m there => ?_,fun i m there => ?_,fun p f fl there user => ?_⟩
      · rw [records i] at there
        cases there
      · rw [records i] at there
        cases there
      · obtain ⟨_,va,mem,rfl⟩ := pages p f fl there
        exact respects (va, f, fl) mem user
    · intro _ _ _ _ _ _ before here respects done
      exact before.call (respects _ here) done
  constructor
  · intro i m there covers
    by_contra user
    have bound := below.records i m there (by simpa using user)
    rw [AddressSpace.Mapping.covers_iff] at covers
    omega
  · intro _ f fl there
    by_contra user
    have bound := below.pages _ f fl there (by simpa using user)
    simp only [frameSize] at bound
    omega

/-- A user page, its snapshot below the boundary, and a kernel page above it. -/
theorem snapshot_below_stays_below :
    ∃ w sp m, Disciplined (fun _ => RespectsBoundary ArchPort.x8664) (Step ArchPort.x8664)
        (none (BumpFrameAllocator.new [⟨0x100000, 0x100000, .usable⟩]) :
          Spaces Config.default (BumpFrameAllocator Config.default))
        [.make 0 [], .call 0 (.vm (.mapAnonymous 0x40000000 4096 PageFlags.rw.user)),
          .call 0 (.vm (.snapshotCow 0x40000000 0x50000000 4096)),
          .call 0 (.vm (.mapAnonymous 0xffff800000000000 4096 PageFlags.rw))] w ∧
      w.space 0 = some sp ∧ sp.mappings.cell 2 = some m ∧ m.covers 0xffff800000000000 = true ∧
        m.rights.isUser = false := by
  simp only [exists_and_left]
  refine Disciplined.reaches_then (fun w => ∃ sp, w.space 0 = some sp ∧ ∃ m, sp.mappings.cell 2 = some m ∧
    m.covers 0xffff800000000000 = true) (by decide +kernel) ?_
  rintro _ run ⟨sp,live,m,cell,covers⟩
  exact ⟨sp,live,m,cell,covers,(user_bit_stays_below run live (by decide)).1 2 m cell covers⟩

def OpenToUser (history : List SpacesAction) (va : Nat) : Prop :=
  ∃ w sp m f fl, Run (Step ArchPort.x8664) (none (BumpFrameAllocator.new [⟨0x100000, 0x100000, .usable⟩]) :
      Spaces Config.default (BumpFrameAllocator Config.default)) history w ∧
    w.space 0 = some sp ∧ sp.mappingCovering va = some m ∧ m.rights.isUser = true ∧
    sp.arch.translate va = some (f, fl) ∧ fl.isUser = true

theorem openToUser_of_after (h : ((after history).any fun w => (w.space 0).any fun sp =>
      (sp.mappingCovering va).any (·.rights.isUser) && (sp.arch.translate va).any (·.2.isUser)) = true) :
    OpenToUser history va := by
  obtain ⟨w,performed,checked⟩ := (any_eq_true _ _).mp h
  obtain ⟨sp,live,checked⟩ := (any_eq_true _ _).mp checked
  rw [Bool.and_eq_true] at checked
  obtain ⟨m,covering,userRecord⟩ := (any_eq_true _ _).mp checked.1
  obtain ⟨⟨f,fl⟩,there,userPage⟩ := (any_eq_true _ _).mp checked.2
  exact ⟨w,sp,m,f,fl,Disciplined.start.performAll performed,live,covering,userRecord,there,userPage⟩

/-- A snapshot of a user page taken to an address above the boundary, and a kernel
    page that is given the user bit. -/
theorem user_pages_above_the_boundary : ArchPort.x8664.userAddressMax ≤ 0xffff800000000000 ∧
    OpenToUser [.make 0 [], .call 0 (.vm (.mapAnonymous 0x40000000 4096 PageFlags.rw.user)),
      .call 0 (.vm (.snapshotCow 0x40000000 0xffff800000000000 4096))] 0xffff800000000000 ∧
    OpenToUser [.make 0 [], .call 0 (.vm (.mapAnonymous 0xffff800000000000 4096 PageFlags.rw)),
      .call 0 (.vm (.protectRange 0xffff800000000000 4096 PageFlags.rw.user))] 0xffff800000000000 :=
  ⟨by decide, openToUser_of_after (by decide +kernel), openToUser_of_after (by decide +kernel)⟩

end Spaces
end Tessera
