import Tessera.Vm.AddressSpace

/-!
The ways out of each operation of an address space, once for all that is proved about
them: an operation is refused before it has touched anything, or its page loop has run
and its records are changed if the loop has got to its end.
-/
namespace Tessera
open FrameSource Or
variable {cfg : Config} {σ : Type}

inductive VmAction where
  | mapAnonymous (base len : Nat) (rights : PageFlags)
  | mapShared (base : Nat) (rights : PageFlags) (object : ObjectId) (baseOffset : Nat) (frames : List PhysFrame)
  | mapAnonymousDemand (base len : Nat) (rights : PageFlags)
  | mapObject (base len : Nat) (rights : PageFlags) (object : ObjectId) (baseOffset : Nat)
  | mapDeviceRange (va : Nat) (first : PhysFrame) (pages : Nat) (reach : DeviceReach)
  | unmapDevicePages (va pages : Nat)
  | unmapDevicePage (va : Nat)
  | installObjectPage (va : Nat) (frame : PhysFrame)
  | grantWrite (va : Nat)
  | reprotectRo (va : Nat)
  | evictPage (va : Nat)
  | resolveFault (va : Nat) (write : Bool)
  | snapshotCow (src dst len : Nat)
  | unmapRange (base len : Nat)
  | reclaimRange (base len : Nat)
  | protectRange (base len : Nat) (rights : PageFlags)
  | teardown

namespace VmAction

/-- The ranges of addresses a call names, each by its base and its length. -/
def ranges : VmAction → List (Nat × Nat)
  | .mapAnonymous base len _ | .mapAnonymousDemand base len _ | .mapObject base len _ _ _ | .unmapRange base len
  | .reclaimRange base len | .protectRange base len _ => [(base, len)]
  | .mapShared base _ _ _ frames => [(base, frames.length * frameSize)]
  | .mapDeviceRange va _ pages _ | .unmapDevicePages va pages => [(va, pages * frameSize)]
  | .unmapDevicePage va | .installObjectPage va _ | .grantWrite va | .reprotectRo va | .evictPage va
  | .resolveFault va _ => [(va, 1)]
  | .snapshotCow src dst len => [(src, len), (dst, len)]
  | .teardown => []

def Canonical (port : ArchPort) (a : VmAction) : Prop := ∀ r ∈ a.ranges, port.Canonical r.1 r.2

instance (port : ArchPort) (a : VmAction) : Decidable (a.Canonical port) :=
  inferInstanceAs (Decidable (∀ r ∈ _, _))

end VmAction

/-- One address space over a frame source. A space that has been torn down is
    gone: the port's contract says that it is never used again. -/
structure VmWorld (cfg : Config) (σ : Type) where
  space : Option (AddressSpace cfg)
  source : σ

namespace AddressSpace
variable [FrameSource σ] (port : ArchPort)

def perform (sp : AddressSpace cfg) (source : σ) : VmAction → Option (AddressSpace cfg) × σ
  | .mapAnonymous base len rights =>
    match sp.mapAnonymous port base len rights source with
    | (_, sp, source) => (some sp, source)
  | .mapShared base rights object baseOffset frames =>
    match sp.mapShared port base rights object baseOffset frames source with
    | (_, sp, source) => (some sp, source)
  | .mapAnonymousDemand base len rights => (some (sp.mapAnonymousDemand port base len rights).2, source)
  | .mapObject base len rights object baseOffset =>
    (some (sp.mapObject port base len rights object baseOffset).2, source)
  | .mapDeviceRange va first pages reach =>
    match sp.mapDeviceRange port va first pages reach source with
    | (_, sp, source) => (some sp, source)
  | .unmapDevicePages va pages => (some (sp.unmapDevicePages va pages), source)
  | .unmapDevicePage va => (some (sp.unmapDevicePage va).2, source)
  | .installObjectPage va frame =>
    match sp.installObjectPage port va frame source with
    | (_, sp, source) => (some sp, source)
  | .grantWrite va => (some (sp.grantWrite port va).2, source)
  | .reprotectRo va => (some (sp.reprotectRo port va).2, source)
  | .evictPage va =>
    match sp.evictPage va source with
    | (_, sp, source) => (some sp, source)
  | .resolveFault va write =>
    match sp.resolveFault port va write source with
    | (_, sp, source) => (some sp, source)
  | .snapshotCow src dst len =>
    match sp.snapshotCow port src dst len source with
    | (_, sp, source) => (some sp, source)
  | .unmapRange base len => (some (sp.unmapRange base len).2, source)
  | .reclaimRange base len =>
    match sp.reclaimRange base len source with
    | (_, sp, source) => (some sp, source)
  | .protectRange base len rights => (some (sp.protectRange port base len rights).2, source)
  | .teardown => (none, sp.teardown port source)

end AddressSpace

namespace VmWorld
variable [FrameSource σ] (port : ArchPort)

def perform (w : VmWorld cfg σ) (a : VmAction) : Option (VmWorld cfg σ) :=
  w.space.map fun sp =>
    match sp.perform port w.source a with
    | (space, source) => ⟨space, source⟩

def Step (w : VmWorld cfg σ) (a : VmAction) (w' : VmWorld cfg σ) : Prop := w.perform port a = some w'

end VmWorld

namespace AddressSpace
variable [FrameSource σ] {port : ArchPort} {sp sp' : AddressSpace cfg} {source source' : σ}
  {result : Except KError Unit} {out : FaultOutcome} {base len va : Nat} {rights : PageFlags}

theorem mapAnonymous_cases (done : sp.mapAnonymous port base len rights source = (result, sp', source')) :
    (sp = sp' ∧ source = source') ∨ sp.checkNew port base len rights = .ok () ∧
      ∃ mid, sp.fillPages port base rights source (len / frameSize) 0 = (result, mid, source') ∧
        ((∃ e, result = .error e) ∧ sp' = mid ∨
          result = .ok () ∧ sp' = mid.recordMapped base len rights .anonymous) := by
  unfold mapAnonymous at done
  split at done
  · cases done
    exact .inl ⟨rfl,rfl⟩
  rename_i ok
  refine .inr ⟨ok,?_⟩
  split at done
  · rename_i filled
    cases done
    exact ⟨_,filled,inl ⟨⟨_,rfl⟩,rfl⟩⟩
  rename_i filled
  cases done
  exact ⟨_,filled,inr ⟨rfl,rfl⟩⟩

theorem mapShared_cases (done : sp.mapShared port base rights obj baseOffset frames source = (result, sp', source')) :
    (sp = sp' ∧ source = source') ∨ sp.checkNew port base (frames.length * frameSize) rights = .ok () ∧
      ∃ mid, sp.sharePages port base rights source [] frames = (result, mid, source') ∧
        ((∃ e, result = .error e) ∧ sp' = mid ∨ result = .ok () ∧
          sp' = mid.recordMapped base (frames.length * frameSize) rights (.shared obj baseOffset)) := by
  unfold mapShared at done
  split at done
  · cases done
    exact .inl ⟨rfl,rfl⟩
  rename_i ok
  refine .inr ⟨ok,?_⟩
  split at done
  · rename_i shared
    cases done
    exact ⟨_,shared,inl ⟨⟨_,rfl⟩,rfl⟩⟩
  rename_i shared
  cases done
  exact ⟨_,shared,inr ⟨rfl,rfl⟩⟩

omit [FrameSource σ] in
theorem mapLazy_cases (done : sp.mapLazy port base len rights backing = (result, sp')) :
    sp = sp' ∨ sp.checkNew port base len rights = .ok () ∧ sp' = sp.record base len rights backing := by
  unfold mapLazy at done
  split at done
  · cases done
    exact .inl rfl
  rename_i ok
  cases done
  exact .inr ⟨ok,rfl⟩

/-- The one page is put under the record that covers its address, with a reference of
    its own, which is given back if it cannot be put there. -/
theorem installObjectPage_cases (done : sp.installObjectPage port va frame source = (result, sp', source')) :
    (sp = sp' ∧ source' = freeFrame (retainFrame source frame) frame) ∨
      ∃ m arch rest, sp.mappingCovering va = some m ∧
        sp.arch.map port (alignDown va) frame (readOnly m.rights) (retainFrame source frame) = (result, arch, rest) ∧
        ((∃ e, result = .error e) ∧ sp' = sp.setArch arch ∧ source' = freeFrame rest frame ∨
          result = .ok () ∧ sp' = { sp.setArch arch with mappedBytes := sp.mappedBytes + frameSize } ∧
            source' = rest) := by
  unfold installObjectPage supplyPage at done
  cases found : sp.mappingCovering va with
  | none =>
    rw [found] at done
    cases done
    exact .inl ⟨rfl,rfl⟩
  | some m =>
    rw [found] at done
    dsimp only at done
    cases mapped : sp.arch.map port (alignDown va) frame (readOnly m.rights) (retainFrame source frame) with
    | mk out rest =>
      obtain ⟨arch,rest⟩ := rest
      rw [mapped] at done
      cases out with
      | ok =>
        cases done
        exact .inr ⟨m,arch,_,rfl,mapped,inr ⟨rfl,rfl,rfl⟩⟩
      | error =>
        cases done
        exact .inr ⟨m,arch,_,rfl,mapped,inl ⟨⟨_,rfl⟩,rfl,rfl⟩⟩

omit [FrameSource σ] in
theorem reflag_cases (done : sp.reflag port va flags = (result, sp')) :
    sp = sp' ∨ ∃ m arch, sp.mappingCovering va = some m ∧
      sp.arch.protect port (alignDown va) (flags m.rights) = (result, arch) ∧ sp' = sp.setArch arch := by
  unfold reflag at done
  split at done
  · cases done
    exact .inl rfl
  rename_i m found
  cases done
  exact .inr ⟨m,_,found,rfl,rfl⟩

theorem evictPage_cases (done : sp.evictPage va source = (result, sp', source')) :
    (sp = sp' ∧ source = source') ∨ ∃ frame arch, sp.arch.unmap (alignDown va) = (.ok frame, arch) ∧
      sp' = { sp.setArch arch with mappedBytes := sp.mappedBytes - frameSize } ∧
      source' = freeFrame source frame := by
  unfold evictPage at done
  split at done
  · cases done
    exact .inl ⟨rfl,rfl⟩
  rename_i frame _ there
  split at done
  · cases done
    exact .inl ⟨rfl,rfl⟩
  rename_i arch unmapped
  cases done
  obtain ⟨_,same⟩ := ArchSpace.unmap_ok unmapped
  rw [there] at same
  cases same
  exact .inr ⟨frame,arch,unmapped,rfl,rfl⟩

theorem demandFill_cases (done : sp.demandFill port page rights source = (out, sp', source')) :
    (sp = sp' ∧ allocFrame source = (none, source')) ∨
      ∃ frame drawn arch rest result, allocFrame source = (some frame, drawn) ∧
        sp.arch.map port page frame rights drawn = (result, arch, rest) ∧
        ((∃ e, result = .error e) ∧ sp' = sp.setArch arch ∧ source' = freeFrame rest frame ∨
          result = .ok () ∧ sp' = { sp.setArch arch with mappedBytes := sp.mappedBytes + frameSize } ∧
            source' = rest) := by
  unfold demandFill at done
  split at done
  · rename_i empty
    cases done
    exact .inl ⟨rfl,empty⟩
  rename_i frame drawn got
  split at done
  · rename_i mapped
    cases done
    exact .inr ⟨frame,drawn,_,_,_,got,mapped,inl ⟨⟨_,rfl⟩,rfl,rfl⟩⟩
  rename_i mapped
  cases done
  exact .inr ⟨frame,drawn,_,_,_,got,mapped,inr ⟨rfl,rfl,rfl⟩⟩

theorem resolveFault_cases (done : sp.resolveFault port va write source = (out, sp', source')) :
    (out ≠ .copied ∧ sp = sp' ∧ source = source') ∨ ∃ m, sp.mappingCovering va = some m ∧
      (m.backing = .anonymousDemand ∧ sp.arch.translate (alignDown va) = none ∧
          sp.demandFill port (alignDown va) m.rights source = (out, sp', source') ∨ m.backing = .cow ∧ write = true ∧
          sp.cowCopy port (alignDown va) m.rights source = (out, sp', source')) := by
  unfold resolveFault at done
  split at done
  · cases done
    exact .inl ⟨nofun,rfl,rfl⟩
  rename_i m found
  split at done
  · rename_i lazy
    split at done
    · cases done
      exact .inl ⟨nofun,rfl,rfl⟩
    · rename_i missing
      exact .inr ⟨m,found,inl ⟨lazy,Option.not_isSome_iff_eq_none.mp missing,done⟩⟩
  · rename_i cow
    split at done
    · rename_i writes
      exact .inr ⟨m,found,inr ⟨cow,writes,done⟩⟩
    · cases done
      exact .inl ⟨nofun,rfl,rfl⟩
  · split at done
    · cases done
      exact .inl ⟨nofun,rfl,rfl⟩
    · split at done <;>
      · cases done
        exact .inl ⟨nofun,rfl,rfl⟩
  · cases done
    exact .inl ⟨nofun,rfl,rfl⟩
  · cases done
    exact .inl ⟨nofun,rfl,rfl⟩

/-- A copy that is not refused has taken the shared page down, whether or not the new
    frame can then be put in its place. -/
theorem cowCopy_ends (done : sp.cowCopy port page rights source = (out, sp', source')) :
    (out = .unresolvable ∧ sp = sp' ∧ (source = source' ∨ allocFrame source = (none, source'))) ∨
      ∃ shared flags priv drawn arch arch' rest result, sp.arch.translate page = some (shared, flags) ∧
        allocFrame source = (some priv, drawn) ∧ sp.arch.unmap page = (.ok shared, arch) ∧
        arch.map port page priv rights drawn = (result, arch', rest) ∧ sp' = sp.setArch arch' ∧
        ((∃ e, result = .error e) ∧ out = .unresolvable ∧ source' = freeFrame rest priv ∨
          result = .ok () ∧ out = .copied ∧ source' = freeFrame rest shared) := by
  unfold cowCopy at done
  split at done
  · cases done
    exact .inl ⟨rfl,rfl,inl rfl⟩
  rename_i there
  split at done
  · cases done
    exact .inl ⟨rfl,rfl,inl rfl⟩
  split at done
  · rename_i empty
    cases done
    exact .inl ⟨rfl,rfl,inr empty⟩
  rename_i got
  split at done
  · rename_i failed
    rw [ArchSpace.unmap, there] at failed
    cases failed
  rename_i unmapped
  obtain ⟨_,same⟩ := ArchSpace.unmap_ok unmapped
  rw [there] at same
  cases same
  split at done
  · rename_i mapped
    cases done
    exact .inr ⟨_,_,_,_,_,_,_,_,there,got,unmapped,mapped,rfl,inl ⟨⟨_,rfl⟩,rfl,rfl⟩⟩
  rename_i mapped
  cases done
  exact .inr ⟨_,_,_,_,_,_,_,_,there,got,unmapped,mapped,rfl,inr ⟨rfl,rfl,rfl⟩⟩

theorem cowCopy_records (done : sp.cowCopy port page rights source = (out, sp', source')) :
    sp'.mappings = sp.mappings ∧ sp'.mappingCount = sp.mappingCount := by
  rcases cowCopy_ends done with ⟨_,rfl,_⟩ | ⟨_,_,_,_,_,_,_,_,_,_,_,_,rfl,_⟩
  · exact ⟨rfl,rfl⟩
  · exact ⟨rfl,rfl⟩

theorem resolveFault_records (done : sp.resolveFault port va write source = (out, sp', source')) :
    sp'.mappings = sp.mappings ∧ sp'.mappingCount = sp.mappingCount := by
  rcases resolveFault_cases done with ⟨_,rfl,_⟩ | ⟨_,_,⟨_,_,filled⟩ | ⟨_,_,copied⟩⟩
  · exact ⟨rfl,rfl⟩
  · rcases demandFill_cases filled with ⟨rfl,_⟩ | ⟨_,_,_,_,_,_,_,⟨_,rfl,_⟩ | ⟨_,rfl,_⟩⟩
    · exact ⟨rfl,rfl⟩
    · exact ⟨rfl,rfl⟩
    · exact ⟨rfl,rfl⟩
  · exact cowCopy_records copied

theorem snapshotCow_cases (done : sp.snapshotCow port src dst len source = (result, sp', source')) :
    ((∃ e, result = .error e) ∧ sp = sp' ∧ source = source') ∨
      src % frameSize = 0 ∧ dst % frameSize = 0 ∧ len % frameSize = 0 ∧ sp.overlaps dst len = false ∧
        sp.mappingCount < cfg.maxMappings ∧ ∃ idx m mid, sp.findExact src len = some idx ∧
          sp.mappings.cell idx = some m ∧
          sp.snapshotPages port src dst (readOnly m.rights) source (len / frameSize) 0 = (result, mid, source') ∧
          ((∃ e, result = .error e) ∧ sp' = mid ∨ result = .ok () ∧
            sp' = (mid.changeRecord idx fun m => { m with backing := .cow }).recordMapped dst len m.rights .cow) := by
  unfold snapshotCow at done
  split at done
  · cases done
    exact .inl ⟨⟨_,rfl⟩,rfl,rfl⟩
  rename_i bases
  split at done
  · cases done
    exact .inl ⟨⟨_,rfl⟩,rfl,rfl⟩
  rename_i whole
  split at done
  · cases done
    exact .inl ⟨⟨_,rfl⟩,rfl,rfl⟩
  rename_i idx found
  split at done
  · cases done
    exact .inl ⟨⟨_,rfl⟩,rfl,rfl⟩
  rename_i overlap
  split at done
  · cases done
    exact .inl ⟨⟨_,rfl⟩,rfl,rfl⟩
  rename_i room
  split at done
  · cases done
    exact .inl ⟨⟨_,rfl⟩,rfl,rfl⟩
  rename_i m cell
  rw [not_or, not_not, not_not] at bases
  rw [not_or, not_not] at whole
  refine .inr ⟨bases.1,bases.2,whole.2,Bool.eq_false_of_not_eq_true overlap,Nat.lt_of_not_le room,idx,m,?_⟩
  split at done
  · rename_i copied
    cases done
    exact ⟨_,found,cell,copied,inl ⟨⟨_,rfl⟩,rfl⟩⟩
  rename_i copied
  cases done
  exact ⟨_,found,cell,copied,inr ⟨rfl,rfl⟩⟩

omit [FrameSource σ] in
theorem unmapRange_cases (done : sp.unmapRange base len = (result, sp')) :
    sp = sp' ∨ ∃ idx mid, sp.findExact base len = some idx ∧
      ((sp.mappings.cell idx).any (Backing.isShared ·.backing)) = false ∧
      sp.unmapPages base (len / frameSize) 0 = (result, mid) ∧ ((∃ e, result = .error e) ∧ sp' = mid ∨
        result = .ok () ∧ sp' = { mid.dropRecord idx with mappedBytes := mid.mappedBytes - len }) := by
  unfold unmapRange at done
  split at done
  · cases done
    exact .inl rfl
  rename_i idx found
  split at done
  · cases done
    exact .inl rfl
  rename_i own
  refine .inr ⟨idx,?_⟩
  split at done
  · rename_i unmapped
    cases done
    exact ⟨_,found,Bool.eq_false_of_not_eq_true own,unmapped,inl ⟨⟨_,rfl⟩,rfl⟩⟩
  rename_i unmapped
  cases done
  exact ⟨_,found,Bool.eq_false_of_not_eq_true own,unmapped,inr ⟨rfl,rfl⟩⟩

theorem reclaimRange_cases (done : sp.reclaimRange base len source = (result, sp', source')) :
    (sp = sp' ∧ source = source') ∨ ∃ idx reclaimed mid, sp.findExact base len = some idx ∧
      sp.unmapAndFree base source (len / frameSize) 0 [] 0 = (reclaimed, mid, source') ∧
      sp' = { mid with mappedBytes := mid.mappedBytes - reclaimed }.dropRecord idx := by
  unfold reclaimRange at done
  split at done
  · cases done
    exact .inl ⟨rfl,rfl⟩
  rename_i idx found
  split at done
  rename_i loop
  cases done
  exact .inr ⟨idx,_,_,found,loop,rfl⟩

omit [FrameSource σ] in
theorem protectRange_cases (done : sp.protectRange port base len rights = (result, sp')) :
    sp = sp' ∨ rights.isWx = false ∧ ∃ idx mid, sp.findExact base len = some idx ∧
      sp.protectPages port base rights (len / frameSize) 0 = (result, mid) ∧ ((∃ e, result = .error e) ∧ sp' = mid ∨
        result = .ok () ∧ sp' = mid.changeRecord idx fun m => { m with rights }) := by
  unfold protectRange at done
  split at done
  · cases done
    exact .inl rfl
  rename_i plain
  split at done
  · cases done
    exact .inl rfl
  rename_i idx found
  refine .inr ⟨Bool.eq_false_of_not_eq_true plain,idx,?_⟩
  split at done
  · rename_i changed
    cases done
    exact ⟨_,found,changed,inl ⟨⟨_,rfl⟩,rfl⟩⟩
  rename_i changed
  cases done
  exact ⟨_,found,changed,inr ⟨rfl,rfl⟩⟩

end AddressSpace
end Tessera
