import Tessera.Process.HandleTable
import Tessera.Vm.AddressSpace

/-!
A process as the device and memory calls see it: its handles, its address space
and its two tables of what it has mapped, the registers of devices and the pages
of memory objects. Both tables exist to be revoked from. The threads of a process,
its state and its job are not kept here.
-/
namespace Tessera
open List
variable {cfg : Config}

/-- A register window; it has at least one page. -/
structure DeviceWindow where
  object : ObjectId
  va : Nat
  pages : Nat
  nonempty : 0 < pages
  deriving DecidableEq

structure MemoryMapping where
  object : ObjectId
  va : Nat
  pages : Nat
  deriving DecidableEq

structure Process (cfg : Config) where
  id : ObjectId
  handles : HandleTable cfg
  space : AddressSpace cfg
  deviceWindows : Slots DeviceWindow cfg.maxDeviceWindows
  memoryMappings : Slots MemoryMapping cfg.maxMemoryMappings

namespace AddressSpace

/-- The first page of a window goes by a call of its own, which may find nothing. -/
def closeDeviceWindow (sp : AddressSpace cfg) (w : DeviceWindow) : AddressSpace cfg :=
  (sp.unmapDevicePage w.va).2.unmapDevicePages (w.va + frameSize) (w.pages - 1)

end AddressSpace

def DeviceWindow.Spans (w : DeviceWindow) (page : Nat) : Prop :=
  w.va / frameSize ≤ page ∧ page < w.va / frameSize + w.pages

instance (w : DeviceWindow) (page : Nat) : Decidable (w.Spans page) := by
  unfold DeviceWindow.Spans
  infer_instance

namespace Process
variable {σ : Type} [FrameSource σ] (port : ArchPort)

section
variable (p : Process cfg) (object : ObjectId)

def new (id : ObjectId) (space : AddressSpace cfg) : Process cfg := ⟨id, .new, space, .empty, .empty⟩

def takeDeviceWindows : List DeviceWindow × Process cfg :=
  (p.deviceWindows.live.filter (·.object = object),
    { p with deviceWindows := p.deviceWindows.discard (·.object = object) })

def revokeDeviceWindowsUnlessHeld : Bool × Process cfg :=
  if p.handles.holds object then (false, p)
  else (true, { (p.takeDeviceWindows object).2 with
    space := (p.takeDeviceWindows object).1.foldl AddressSpace.closeDeviceWindow p.space })

def pageAddresses (offset : Nat) : List Nat :=
  (p.memoryMappings.live.filter fun m => m.object = object ∧ offset < m.pages * frameSize).map (·.va + offset)

def evictAll (sp : AddressSpace cfg) (source : σ) : List Nat → Bool × AddressSpace cfg × σ
  | [] => (false, sp, source)
  | va :: rest =>
    match sp.evictPage va source with
    | (.ok (), sp, source) => (true, (evictAll sp source rest).2)
    | (.error _, sp, source) => evictAll sp source rest

def unmapObjectPage (offset : Nat) (source : σ) : Bool × Process cfg × σ :=
  match evictAll p.space source (p.pageAddresses object offset) with
  | (any, space, source) => (any, { p with space }, source)

/-- One slot of a revocation: the record goes only if the range did. -/
def revokeMapping (object : ObjectId) (p : Process cfg) (source : σ) (slot : Nat) : Process cfg × σ :=
  match p.memoryMappings.cell slot with
  | none => (p, source)
  | some m =>
    if m.object = object then
      match p.space.reclaimRange m.va (m.pages * frameSize) source with
      | (.ok (), space, source) => ({ p with space, memoryMappings := p.memoryMappings.clear slot }, source)
      | (.error _, space, source) => ({ p with space }, source)
    else (p, source)

def revokeMappings (object : ObjectId) (p : Process cfg) (source : σ) : List Nat → Process cfg × σ
  | [] => (p, source)
  | slot :: rest =>
    match p.revokeMapping object source slot with
    | (p, source) => p.revokeMappings object source rest

def revokeMemoryMappingsUnlessHeld (source : σ) : Bool × Process cfg × σ :=
  if p.handles.holds object then (false, p, source)
  else (true, p.revokeMappings object source (range cfg.maxMemoryMappings))

end

end Process

namespace AddressSpace

section
variable (sp : AddressSpace cfg)

theorem closeWindow_pages (va pages i p : Nat) : (sp.closeWindow va pages i).arch.pages p =
      if va / frameSize + i ≤ p ∧ p < va / frameSize + i + pages then none else sp.arch.pages p := by
  induction pages generalizing sp i with
  | zero =>
    rw [if_neg (by omega)]
    rfl
  | succ pages ih =>
    have page : pageAt va i / frameSize = va / frameSize + i := by
      simp only [pageAt, frameSize]
      omega
    rw [closeWindow, ih, setArch]
    rw [ArchSpace.unmap_pages, page]
    by_cases first : p = va / frameSize + i
    · rw [if_pos first, ite_self, if_pos (by omega)]
    rw [if_neg first]
    by_cases later : va / frameSize + (i + 1) ≤ p ∧ p < va / frameSize + (i + 1) + pages
    · rw [if_pos later, if_pos (by omega)]
    · rw [if_neg later, if_neg (by omega)]

theorem closeWindow_rest (va pages i : Nat) : (sp.closeWindow va pages i).mappings = sp.mappings ∧
      (sp.closeWindow va pages i).mappingCount = sp.mappingCount ∧
      (sp.closeWindow va pages i).mappedBytes = sp.mappedBytes := by
  induction pages generalizing sp i with
  | zero => exact ⟨rfl,rfl,rfl⟩
  | succ pages ih => exact ih _ _

theorem unmapDevicePage_snd (va : Nat) : (sp.unmapDevicePage va).2 = sp.closeWindow va 1 0 := by
  have first : pageAt va 0 = va := by simp [pageAt]
  unfold unmapDevicePage
  rw [closeWindow, closeWindow, first]
  split
  · rename_i refused
    unfold ArchSpace.unmap at refused ⊢
    split at refused
    · rfl
    · cases refused
  · rename_i unmapped
    rw [unmapped]

theorem closeDeviceWindow_pages (w : DeviceWindow) (p : Nat) :
    (sp.closeDeviceWindow w).arch.pages p = if w.Spans p then none else sp.arch.pages p := by
  have next : (w.va + frameSize) / frameSize = w.va / frameSize + 1 := by
    simp only [frameSize]
    omega
  have some_page := w.nonempty
  rw [closeDeviceWindow, unmapDevicePages, closeWindow_pages, unmapDevicePage_snd, closeWindow_pages]
  by_cases inside : w.Spans p
  · rw [if_pos inside]
    unfold DeviceWindow.Spans at inside
    split
    · rfl
    · rw [if_pos (by omega)]
  rw [if_neg inside]
  unfold DeviceWindow.Spans at inside
  rw [if_neg (by omega), if_neg (by omega)]

theorem closeDeviceWindows_pages (ws : List DeviceWindow) (p : Nat) : (ws.foldl closeDeviceWindow sp).arch.pages p =
      if ∃ w ∈ ws, w.Spans p then none else sp.arch.pages p :=
  Slots.foldl_cleared (g := (·.arch.pages p)) (fun sp w => closeDeviceWindow_pages sp w p) ws sp

theorem closeDeviceWindows_rest (ws : List DeviceWindow) : (ws.foldl closeDeviceWindow sp).mappings = sp.mappings ∧
      (ws.foldl closeDeviceWindow sp).mappingCount = sp.mappingCount ∧
      (ws.foldl closeDeviceWindow sp).mappedBytes = sp.mappedBytes := by
  induction ws generalizing sp with
  | nil => exact ⟨rfl,rfl,rfl⟩
  | cons w rest ih =>
    obtain ⟨mappings,count,bytes⟩ := ih (sp.closeDeviceWindow w)
    have others := closeWindow_rest (sp.closeWindow w.va 1 0) (w.va + frameSize) (w.pages - 1) 0
    have same : sp.closeDeviceWindow w =
        (sp.closeWindow w.va 1 0).closeWindow (w.va + frameSize) (w.pages - 1) 0 := by
      rw [closeDeviceWindow, unmapDevicePages, unmapDevicePage_snd]
    rw [same, others.1] at mappings
    rw [same, others.2.1] at count
    rw [same, others.2.2] at bytes
    rw [foldl_cons, same]
    exact ⟨mappings,count,bytes⟩

end

end AddressSpace
end Tessera
