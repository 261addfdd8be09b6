import Tessera.Arch
import Mathlib.Data.List.Count

/-!
A frame source that writes down what is asked of it. The log is the whole of what
a client does to the source, in order, so what a client may give back can be
stated of the log alone.
-/
namespace Tessera
open List FrameSource

inductive FrameUse where
  | obtained (f : PhysFrame)
  | retained (f : PhysFrame)
  | freed (f : PhysFrame)
  deriving DecidableEq

structure FrameLedger (σ : Type) where
  source : σ
  uses : List FrameUse

namespace FrameLedger
variable {σ : Type}

/-- The frame came out of the source or a reference to it was added there. -/
def Known (l : FrameLedger σ) (f : PhysFrame) : Prop := .obtained f ∈ l.uses ∨ .retained f ∈ l.uses

def Traced (l : FrameLedger σ) : Prop :=
  ∀ earlier f later, l.uses = earlier ++ .freed f :: later → .obtained f ∈ earlier ∨ .retained f ∈ earlier

def Extends (l l' : FrameLedger σ) : Prop := ∃ more, l'.uses = l.uses ++ more

theorem Extends.refl (l : FrameLedger σ) : l.Extends l := ⟨[],by simp⟩

variable {l l' : FrameLedger σ} {f : PhysFrame}

theorem Known.mono (known : l.Known f) (more : l.Extends l') : l'.Known f := by
  obtain ⟨_,same⟩ := more
  unfold Known
  rw [same]
  rcases known with obtained | retained
  · exact .inl (mem_append_left _ obtained)
  · exact .inr (mem_append_left _ retained)

theorem Traced.snoc {u : FrameUse} (traced : l.Traced) (same : l'.uses = l.uses ++ [u])
    (known : ∀ f, u = .freed f → l.Known f) : l'.Traced := by
  intro earlier f later split
  rw [same] at split
  rcases eq_nil_or_concat later with last | more
  · subst last
    obtain ⟨front,rear⟩ := append_inj' split rfl
    cases rear
    rw [← front]
    exact known f rfl
  obtain ⟨rest,_,shape⟩ := more
  subst shape
  rw [concat_eq_append, ← cons_append, ← append_assoc] at split
  exact traced earlier f rest (append_inj' split rfl).1

variable [FrameSource σ]

instance : FrameSource (FrameLedger σ) where
  allocFrame l :=
    match allocFrame l.source with
    | (none, source) => (none, { l with source })
    | (some f, source) => (some f, { source, uses := l.uses ++ [.obtained f] })
  retainFrame l f := ⟨retainFrame l.source f, l.uses ++ [.retained f]⟩
  freeFrame l f := ⟨freeFrame l.source f, l.uses ++ [.freed f]⟩
  framesAvailable l := framesAvailable l.source

theorem allocFrame_none (h : allocFrame l = (none, l')) : l'.uses = l.uses := by
  simp only [allocFrame] at h
  split at h <;> cases h
  rfl

theorem allocFrame_some (h : allocFrame l = (some f, l')) : l'.uses = l.uses ++ [.obtained f] := by
  simp only [allocFrame] at h
  split at h <;> cases h
  rfl

def taken (l : FrameLedger σ) (f : PhysFrame) : Nat := l.uses.count (.obtained f) + l.uses.count (.retained f)

def returned (l : FrameLedger σ) (f : PhysFrame) : Nat := l.uses.count (.freed f)

theorem taken_alloc_none (h : allocFrame l = (none, l')) (f : PhysFrame) :
    l'.taken f = l.taken f ∧ l'.returned f = l.returned f := by
  rw [taken, returned, allocFrame_none h]
  exact ⟨rfl,rfl⟩

theorem taken_alloc_some {g : PhysFrame} (h : allocFrame l = (some g, l')) (f : PhysFrame) :
    l'.taken f = l.taken f + [g].count f ∧ l'.returned f = l.returned f := by
  rw [taken, returned, allocFrame_some h]
  simp only [taken, returned, count_append, count_singleton, beq_iff_eq, FrameUse.obtained.injEq, reduceCtorEq,
    if_false]
  omega

section
variable (l : FrameLedger σ)

@[simp] theorem retainFrame_uses (f : PhysFrame) : (retainFrame l f).uses = l.uses ++ [.retained f] := rfl

@[simp] theorem freeFrame_uses (f : PhysFrame) : (freeFrame l f).uses = l.uses ++ [.freed f] := rfl

theorem taken_retain (g f : PhysFrame) : (retainFrame l g).taken f = l.taken f + [g].count f ∧
      (retainFrame l g).returned f = l.returned f := by
  rw [taken, returned, retainFrame_uses]
  simp only [taken, returned, count_append, count_singleton, beq_iff_eq, FrameUse.retained.injEq, reduceCtorEq,
    if_false]
  omega

theorem taken_free (g f : PhysFrame) : (freeFrame l g).taken f = l.taken f ∧
      (freeFrame l g).returned f = l.returned f + [g].count f := by
  rw [taken, returned, freeFrame_uses]
  simp [taken, returned, count_singleton, beq_iff_eq, FrameUse.freed.injEq, reduceCtorEq, if_false, Nat.add_zero,
    and_self]

end

end FrameLedger
end Tessera
