import Tessera.Vm.PageEffects

/-!
What the operations of an address space write: the flags they put at which pages,
and the records they make or change. Whatever else is in the page tables or in the
record table afterwards was there before, also when the operation fails half way.
-/
namespace Tessera
open Or

namespace AddressSpace
variable {cfg : Config} {σ : Type} {port : ArchPort} {sp sp' sp'' : AddressSpace cfg}
  {put put' : Nat → PageFlags → Prop} {made made' : Mapping → Prop}
open ArchSpace

structure Writes (put : Nat → PageFlags → Prop) (made : Mapping → Prop) (sp sp' : AddressSpace cfg) : Prop where
  pages : ∀ p f fl, sp'.arch.pages p = some (f, fl) → sp.arch.pages p = some (f, fl) ∨ put p fl
  records : ∀ i m, sp'.mappings.cell i = some m → sp.mappings.cell i = some m ∨ made m

theorem Writes.refl (sp : AddressSpace cfg) : Writes put made sp sp :=
  ⟨fun _ _ _ => inl,fun _ _ => inl⟩

theorem Writes.trans (first : Writes put made sp sp') (second : Writes put made sp' sp'') :
    Writes put made sp sp'' where
  pages p f fl there := (second.pages p f fl there).elim (first.pages p f fl) inr
  records i m there := (second.records i m there).elim (first.records i m) inr

inductive Revised (port : ArchPort) (made : Mapping → Prop) (sp mid : AddressSpace cfg) : AddressSpace cfg → Prop where
  | kept : Revised port made sp mid mid
  | recorded (checked : sp.checkNew port base len rights = .ok ()) (new : made ⟨base, len, rights, backing⟩) :
    Revised port made sp mid (mid.record base len rights backing)
  | dropped (idx : Nat) : Revised port made sp mid (mid.dropRecord idx)
  | reflagged {m : Mapping} (cell : sp.mappings.cell idx = some m) (plain : rights.isWx = false)
    (new : made { m with rights }) : Revised port made sp mid (mid.changeRecord idx fun m => { m with rights })
  | snapshot {m : Mapping} (cell : sp.mappings.cell idx = some m) (base : dst % frameSize = 0)
    (whole : len % frameSize = 0) (apart : sp.overlaps dst len = false) (old : made { m with backing := .cow })
    (new : made ⟨dst, len, m.rights, .cow⟩) :
    Revised port made sp mid
      ((mid.changeRecord idx fun m => { m with backing := .cow }).record dst len m.rights .cow)

variable {va base pages len page src dst idx : Nat} {a : ArchSpace} {result : Except KError Unit}
  {flags rights : PageFlags} {backing : Backing} {frame : PhysFrame} {out : FaultOutcome}

def Laid (put : Nat → PageFlags → Prop) (p : Nat) (entry : Option PageFlags) : Prop := ∀ fl ∈ entry, put p fl

theorem laid_none (p : Nat) : Laid put p none := nofun

theorem laid_some (allowed : put p flags) : Laid put p (some flags) := by
  intro _ mem
  cases mem
  exact allowed

theorem Edits.writes (edits : Edits port (Laid put) sp sp') : Writes put made sp sp' := by
  refine ⟨fun p _ fl there => ?_,fun _ _ there => inl (edits.mappings ▸ there)⟩
  rcases edits.pages p with same | laid
  · exact .inl (same ▸ there)
  · exact .inr (laid fl (by rw [there]; rfl))

theorem assign_writes (arch : sp'.arch = sp.arch)
    (mappings : sp'.mappings = sp.mappings.assign idx c) (acc : ∀ m ∈ c, made m) : Writes put made sp sp' := by
  refine ⟨fun _ _ _ there => inl (arch ▸ there),fun _ m there => ?_⟩
  rw [mappings, Slots.cell_assign] at there
  split at there
  · exact .inr (acc m there)
  · exact .inl there

theorem record_writes (sp : AddressSpace cfg) (new : made ⟨base, len, rights, backing⟩) :
    Writes put made sp (sp.record base len rights backing) := by
  unfold record
  split
  · exact .refl _
  refine assign_writes rfl rfl fun _ mem => ?_
  cases mem
  exact new

theorem changeRecord_writes (cell : sp.mappings.cell idx = some m)
    (new : made (f m)) : Writes put made sp (sp.changeRecord idx f) := by
  refine assign_writes rfl rfl fun _ mem => ?_
  rw [cell] at mem
  cases mem
  exact new

theorem Revised.writes (revised : Revised port made sp mid sp')
    (mappings : mid.mappings = sp.mappings) : Writes put made mid sp' := by
  cases revised with
  | kept => exact .refl _
  | recorded _ new => exact record_writes mid new
  | dropped => exact assign_writes rfl rfl (by simp)
  | reflagged cell _ new => exact changeRecord_writes (mappings ▸ cell) new
  | snapshot cell _ _ _ old new => exact (changeRecord_writes (mappings ▸ cell) old).trans (record_writes _ new)

theorem reflag_edits {flags : PageFlags → PageFlags}
    (allowed : ∀ m, sp.mappingCovering va = some m → (flags m.rights).isWx = false →
      put (va / frameSize) (flags m.rights)) (done : sp.reflag port va flags = (result, sp')) :
    Edits port (Laid put) sp sp' := by
  rcases reflag_cases done with rfl | ⟨m,_,found,changed,rfl⟩
  · exact .refl _
  refine protect_edits (fun plain => laid_some ?_) changed
  rw [alignDown_div]
  exact allowed m found plain

theorem unmapDevicePage_edits (done : sp.unmapDevicePage va = (result, sp')) : Edits port (Laid put) sp sp' := by
  unfold unmapDevicePage at done
  split at done
  · cases done
    exact .refl _
  rename_i unmapped
  cases done
  exact unmap_edits (laid_none _) unmapped

variable [FrameSource σ] {source source' : σ}

section
variable (allowed : ∀ m, sp.mappingCovering va = some m → (readOnly m.rights).isWx = false →
      put (va / frameSize) (readOnly m.rights))
include allowed

theorem supplyPage_edits
    (done : sp.supplyPage port va frame source = (result, sp', source')) : Edits port (Laid put) sp sp' := by
  unfold supplyPage at done
  split at done
  · cases done
    exact .refl _
  rename_i m found
  have place : (readOnly m.rights).isWx = false → Laid put (alignDown va / frameSize) (some (readOnly m.rights)) := by
    rw [alignDown_div]
    exact fun plain => laid_some (allowed m found plain)
  split at done
  · rename_i mapped
    cases done
    exact map_edits place mapped
  rename_i mapped
  cases done
  exact (map_edits place mapped).same rfl rfl

theorem installObjectPage_edits
    (done : sp.installObjectPage port va frame source = (result, sp', source')) : Edits port (Laid put) sp sp' := by
  unfold installObjectPage at done
  split at done
  · rename_i supplied
    cases done
    exact supplyPage_edits allowed supplied
  rename_i supplied
  cases done
  exact supplyPage_edits allowed supplied

end

theorem evictPage_edits (done : sp.evictPage va source = (result, sp', source')) : Edits port (Laid put) sp sp' := by
  rcases evictPage_cases done with ⟨rfl,_⟩ | ⟨_,_,unmapped,rfl,_⟩
  · exact .refl _
  · exact (unmap_edits (laid_none _) unmapped).same rfl rfl

theorem resolveFault_edits
    (allowed : ∀ m, sp.mappingCovering va = some m → m.rights.isWx = false → put (va / frameSize) m.rights)
    (done : sp.resolveFault port va write source = (out, sp', source')) : Edits port (Laid put) sp sp' := by
  rcases resolveFault_cases done with ⟨_,rfl,_⟩ | ⟨m,found,ends⟩
  · exact .refl _
  have place : m.rights.isWx = false → Laid put (alignDown va / frameSize) (some m.rights) := by
    rw [alignDown_div]
    exact fun plain => laid_some (allowed m found plain)
  rcases ends with ⟨_,_,filled⟩ | ⟨_,_,copied⟩
  · rcases demandFill_cases filled with ⟨rfl,_⟩ | ⟨_,_,_,_,_,_,mapped,⟨_,rfl,_⟩ | ⟨_,rfl,_⟩⟩
    · exact .refl _
    · exact map_edits place mapped
    · exact (map_edits place mapped).same rfl rfl
  rcases cowCopy_ends copied with ⟨_,rfl,_⟩ | ⟨_,_,_,_,arch,_,_,_,_,_,unmapped,mapped,rfl,_⟩
  · exact .refl _
  · have taken : Edits port (Laid put) sp (sp.setArch arch) := unmap_edits (laid_none _) unmapped
    exact taken.trans (map_edits place mapped)

section
variable (port : ArchPort) (sp : AddressSpace cfg)

/-- The flags an operation puts into the page tables, and where. A flag set that is
    both writable and executable is turned away by the port whoever asks. -/
def Puts : VmAction → Nat → PageFlags → Prop
  | .mapAnonymous base len rights, p, fl =>
    sp.checkNew port base len rights = .ok () ∧ pagesFrom base 0 (len / frameSize) p ∧ fl = rights
  | .mapShared base rights _ _ frames, p, fl =>
    sp.checkNew port base (frames.length * frameSize) rights = .ok () ∧ pagesFrom base 0 frames.length p ∧ fl = rights
  | .mapDeviceRange va _ pages reach, p, fl => pagesFrom va 0 pages p ∧ fl = reach.flags
  | .installObjectPage va _, p, fl | .reprotectRo va, p, fl =>
    ∃ m, sp.mappingCovering va = some m ∧ p = va / frameSize ∧ fl = readOnly m.rights
  | .grantWrite va, p, fl | .resolveFault va _, p, fl =>
    ∃ m, sp.mappingCovering va = some m ∧ p = va / frameSize ∧ fl = m.rights
  | .snapshotCow src dst len, p, fl =>
    ∃ idx m, sp.findExact src len = some idx ∧ sp.mappings.cell idx = some m ∧ fl = readOnly m.rights ∧
      (pagesFrom src 0 (len / frameSize) p ∨ dst % frameSize = 0 ∧ pagesFrom dst 0 (len / frameSize) p)
  | .protectRange base len rights, p, fl =>
    (sp.findExact base len).isSome = true ∧ pagesFrom base 0 (len / frameSize) p ∧ fl = rights
  | _, _, _ => False

def Makes : VmAction → Mapping → Prop
  | .mapAnonymous base len rights, m =>
    sp.checkNew port base len rights = .ok () ∧ m = ⟨base, len, rights, .anonymous⟩
  | .mapShared base rights object baseOffset frames, m =>
    sp.checkNew port base (frames.length * frameSize) rights = .ok () ∧
      m = ⟨base, frames.length * frameSize, rights, .shared object baseOffset⟩
  | .mapAnonymousDemand base len rights, m =>
    sp.checkNew port base len rights = .ok () ∧ m = ⟨base, len, rights, .anonymousDemand⟩
  | .mapObject base len rights object baseOffset, m =>
    sp.checkNew port base len rights = .ok () ∧ m = ⟨base, len, rights, .object object baseOffset⟩
  | .snapshotCow src dst len, m' =>
    ∃ idx m, sp.findExact src len = some idx ∧ sp.mappings.cell idx = some m ∧
      (m' = { m with backing := .cow } ∨ dst % frameSize = 0 ∧ len % frameSize = 0 ∧ m' = ⟨dst, len, m.rights, .cow⟩)
  | .protectRange base len rights, m' =>
    rights.isWx = false ∧ ∃ idx m, sp.findExact base len = some idx ∧ sp.mappings.cell idx = some m ∧
      m' = { m with rights }
  | _, _ => False

abbrev Edited (port : ArchPort) (sp : AddressSpace cfg) (a : VmAction) (mid : AddressSpace cfg) : Prop :=
  Edits port (Laid fun p fl => fl.isWx = false ∧ sp.Puts port a p fl) sp mid

/-- The loops of an operation edit the pages, and the records are then revised, if at all,
    in one of a few ways. -/
def Outline (a : VmAction) (sp' : AddressSpace cfg) : Prop :=
  ∃ mid last, sp.Edited port a mid ∧
    Revised port (sp.Makes port a) sp mid last ∧ sp'.arch = last.arch ∧ sp'.mappings = last.mappings

end

omit [FrameSource σ] in
theorem Edits.outline {a : VmAction} (edits : sp.Edited port a sp') : sp.Outline port a sp' :=
  ⟨sp',sp',edits,.kept,rfl,rfl⟩

theorem mapAnonymous_outline (done : sp.mapAnonymous port base len rights source = (result, sp', source')) :
    sp.Outline port (.mapAnonymous base len rights) sp' := by
  rcases mapAnonymous_cases done with ⟨rfl,_⟩ | ⟨checked,mid,filled,ends⟩
  · exact (Edits.refl sp).outline
  have edits : sp.Edited port (.mapAnonymous base len rights) mid := (fillPages_fills filled).edits
    (fun _ _ _ => laid_none _) fun plain j lower upper => laid_some ⟨plain,checked,⟨j,lower,upper,rfl⟩,rfl⟩
  rcases ends with ⟨_,rfl⟩ | ⟨_,rfl⟩
  · exact edits.outline
  · exact ⟨mid,_,edits,.recorded checked ⟨checked,rfl⟩,rfl,rfl⟩

theorem mapShared_outline
    (done : sp.mapShared port base rights obj baseOffset frames source = (result, sp', source')) :
    sp.Outline port (.mapShared base rights obj baseOffset frames) sp' := by
  rcases mapShared_cases done with ⟨rfl,_⟩ | ⟨checked,mid,shared,ends⟩
  · exact (Edits.refl sp).outline
  have edits : sp.Edited port (.mapShared base rights obj baseOffset frames) mid := (sharePages_fills shared).edits
    (fun _ _ _ => laid_none _) fun plain j lower upper => laid_some ⟨plain,checked,⟨j,lower,upper,rfl⟩,rfl⟩
  rcases ends with ⟨_,rfl⟩ | ⟨_,rfl⟩
  · exact edits.outline
  · exact ⟨mid,_,edits,.recorded checked ⟨checked,rfl⟩,rfl,rfl⟩

omit [FrameSource σ] in
theorem mapLazy_outline {a : VmAction} (new : sp.checkNew port base len rights = .ok () →
      sp.Makes port a ⟨base, len, rights, backing⟩) (done : sp.mapLazy port base len rights backing = (result, sp')) :
    sp.Outline port a sp' := by
  rcases mapLazy_cases done with rfl | ⟨checked,rfl⟩
  · exact (Edits.refl sp).outline
  · exact ⟨sp,_,.refl sp,.recorded checked (new checked),rfl,rfl⟩

theorem snapshotCow_outline (done : sp.snapshotCow port src dst len source = (result, sp', source')) :
    sp.Outline port (.snapshotCow src dst len) sp' := by
  rcases snapshotCow_cases done with ⟨_,rfl,_⟩ | ⟨_,dstAligned,whole,apart,_,idx,m,mid,found,cell,copied,ends⟩
  · exact (Edits.refl sp).outline
  have edits : sp.Edited port (.snapshotCow src dst len) mid := snapshotPages_edits
    (fun plain j lower upper => laid_some ⟨plain,idx,m,found,cell,rfl,inl ⟨j,lower,upper,rfl⟩⟩)
    (fun plain j lower upper => laid_some ⟨plain,idx,m,found,cell,rfl,inr ⟨dstAligned,j,lower,upper,rfl⟩⟩) copied
  rcases ends with ⟨_,rfl⟩ | ⟨_,rfl⟩
  · exact edits.outline
  · exact ⟨mid,_,edits,.snapshot cell dstAligned whole apart ⟨idx,m,found,cell,inl rfl⟩
      ⟨idx,m,found,cell,inr ⟨dstAligned,whole,rfl⟩⟩,rfl,rfl⟩

section
omit [FrameSource σ]

theorem protectRange_outline (done : sp.protectRange port base len rights = (result, sp')) :
    sp.Outline port (.protectRange base len rights) sp' := by
  rcases protectRange_cases done with rfl | ⟨plain,idx,mid,found,changed,ends⟩
  · exact (Edits.refl sp).outline
  obtain ⟨m,cell,_⟩ := findExact_some found
  have edits : sp.Edited port (.protectRange base len rights) mid := protectPages_edits
    (fun plain j lower upper => laid_some ⟨plain,by rw [found]; rfl,⟨j,lower,upper,rfl⟩,rfl⟩) changed
  rcases ends with ⟨_,rfl⟩ | ⟨_,rfl⟩
  · exact edits.outline
  · exact ⟨mid,_,edits,.reflagged cell plain ⟨plain,idx,m,found,cell,rfl⟩,rfl,rfl⟩

theorem unmapRange_outline (done : sp.unmapRange base len = (result, sp')) :
    sp.Outline port (.unmapRange base len) sp' := by
  rcases unmapRange_cases done with rfl | ⟨idx,mid,_,_,unmapped,ends⟩
  · exact (Edits.refl sp).outline
  have edits : sp.Edited port (.unmapRange base len) mid := unmapPages_edits (fun _ _ _ => laid_none _) unmapped
  rcases ends with ⟨_,rfl⟩ | ⟨_,rfl⟩
  · exact edits.outline
  · exact ⟨mid,_,edits,.dropped idx,rfl,rfl⟩

end

theorem reclaimRange_outline (done : sp.reclaimRange base len source = (result, sp', source')) :
    sp.Outline port (.reclaimRange base len) sp' := by
  rcases reclaimRange_cases done with ⟨rfl,_⟩ | ⟨idx,_,mid,_,loop,rfl⟩
  · exact (Edits.refl sp).outline
  · exact ⟨mid,_,unmapAndFree_edits (fun _ _ _ => laid_none _) loop,.dropped idx,rfl,rfl⟩

theorem perform_outline {a : VmAction} (done : sp.perform port source a = (some sp', source')) :
    sp.Outline port a sp' := by
  cases a with cases done
  | mapAnonymous => exact mapAnonymous_outline rfl
  | mapShared => exact mapShared_outline rfl
  | mapAnonymousDemand | mapObject => exact mapLazy_outline (fun checked => ⟨checked,rfl⟩) rfl
  | mapDeviceRange va first pages reach =>
    have plain : reach.flags.isWx = false := by cases reach <;> rfl
    exact Edits.outline ((windowPages_fills rfl).edits (fun _ _ _ => laid_none _)
      fun _ j lower upper => laid_some ⟨plain,⟨j,lower,upper,rfl⟩,rfl⟩)
  | unmapDevicePages => exact Edits.outline (closeWindow_edits sp fun _ _ _ => laid_none _)
  | unmapDevicePage => exact Edits.outline (unmapDevicePage_edits rfl)
  | installObjectPage =>
    exact Edits.outline (installObjectPage_edits (fun m found plain => ⟨plain,m,found,rfl,rfl⟩) rfl)
  | grantWrite | reprotectRo => exact Edits.outline (reflag_edits (fun m found plain => ⟨plain,m,found,rfl,rfl⟩) rfl)
  | evictPage => exact Edits.outline (evictPage_edits rfl)
  | resolveFault => exact Edits.outline (resolveFault_edits (fun m found plain => ⟨plain,m,found,rfl,rfl⟩) rfl)
  | snapshotCow => exact snapshotCow_outline rfl
  | unmapRange => exact unmapRange_outline rfl
  | reclaimRange => exact reclaimRange_outline rfl
  | protectRange => exact protectRange_outline rfl

theorem perform_writes {a : VmAction} (done : sp.perform port source a = (some sp', source')) :
    Writes (fun p fl => fl.isWx = false ∧ sp.Puts port a p fl) (sp.Makes port a) sp sp' := by
  obtain ⟨_,last,edits,revised,arch,mappings⟩ := perform_outline done
  have writes : Writes (fun p fl => fl.isWx = false ∧ sp.Puts port a p fl) (sp.Makes port a) sp last :=
    edits.writes.trans (revised.writes edits.mappings)
  exact ⟨arch ▸ writes.pages,mappings ▸ writes.records⟩

end AddressSpace
end Tessera
