import Mathlib.Algebra.Group.Nat.Defs
import Mathlib.Data.List.Basic

/-!
What the portable kernel assumes of its architecture port: frame-aligned
physical memory, the boot memory map, and a source of frames. Addresses are
u64 values written as naturals; checked additions say so. Plain additions
trap on overflow in the kernel's build, so a run that overflows ends there and
unbounded naturals only admit more runs.
-/
namespace Tessera

def frameSize : Nat := 4096

def checkedAdd (a b : Nat) : Option Nat :=
  if a + b < 2 ^ 64 then some (a + b) else none

def alignDown (a : Nat) : Nat := a - a % frameSize

def alignUp (a : Nat) : Option Nat := (checkedAdd a (frameSize - 1)).map alignDown

structure PhysFrame where
  base : Nat
  aligned : base % frameSize = 0
  deriving DecidableEq

def PhysFrame.fromBase (a : Nat) : Option PhysFrame :=
  if h : a % frameSize = 0 then some ⟨a, h⟩ else none

inductive MemoryKind where
  | usable | bootloaderReclaimable | kernelAndModules | framebuffer
  | acpiReclaimable | acpiNvs | reserved | bad
  deriving DecidableEq

structure MemoryRegion where
  base : Nat
  len : Nat
  kind : MemoryKind
  deriving DecidableEq

def MemoryRegion.end? (r : MemoryRegion) : Option Nat := checkedAdd r.base r.len

/-- A source of physical frames that counts references: a frame comes out with
    one, `retainFrame` adds one and `freeFrame` gives one back. -/
class FrameSource (σ : Type) where
  allocFrame : σ → Option PhysFrame × σ
  retainFrame : σ → PhysFrame → σ
  freeFrame : σ → PhysFrame → σ
  framesAvailable : σ → Option Nat

@[ext] theorem PhysFrame.ext {f g : PhysFrame} (h : f.base = g.base) : f = g := by
  cases f
  simp_all

theorem fromBase_eq_some : PhysFrame.fromBase a = some f ↔ f.base = a := by
  constructor
  · intro h
    unfold PhysFrame.fromBase at h
    split at h
    · cases h
      rfl
    · cases h
  · intro h
    subst h
    simp [PhysFrame.fromBase, f.aligned]

theorem checkedAdd_eq_some (h : checkedAdd a b = some c) : c = a + b := by
  unfold checkedAdd at h
  split at h
  · exact (Option.some.inj h).symm
  · cases h

theorem alignDown_dvd (a : Nat) : alignDown a % frameSize = 0 := by
  simp only [alignDown, frameSize]
  omega

theorem alignUp_dvd (h : alignUp a = some b) : b % frameSize = 0 := by
  unfold alignUp at h
  cases sum : checkedAdd a (frameSize - 1) with
  | none => simp [sum] at h
  | some c =>
    simp [sum] at h
    exact h ▸ alignDown_dvd c

end Tessera
