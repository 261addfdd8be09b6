import Tessera.Memory.PmemCursor
import Tessera.Lib.Transition

/-!
Reference accounting of the frame allocator over whole runs. A run is a list of
calls with their results; the references of a frame are counted from it and
compared with what the free list, the shared table and the cursor record. The
shared table is bounded, and a reference it cannot record is forgotten.
-/
namespace Tessera.BumpFrameAllocator
open Transition List Bounded
variable {cfg : Config}

def entryExtra (base : Nat) (e : SharedFrame) : Nat :=
  if e.base = base then e.count - 1 else 0

def extra (s : BumpFrameAllocator cfg) (base : Nat) : Nat :=
  (s.shared.items.map (entryExtra base)).sum

def Listed (s : BumpFrameAllocator cfg) (base : Nat) : Prop :=
  ∃ e ∈ s.shared.items, e.base = base

instance (s : BumpFrameAllocator cfg) (base : Nat) : Decidable (Listed s base) :=
  inferInstanceAs (Decidable (∃ e ∈ s.shared.items, e.base = base))

variable {s t : BumpFrameAllocator cfg} {base count : Nat} {f : PhysFrame} {r : Option PhysFrame}

theorem sharedIndex_eq_some (h : s.sharedIndex base = some i) :
    ∃ inside : i < s.shared.items.length, (s.shared.items[i]).base = base := by
  obtain ⟨inside,found,_⟩ := findIdx?_eq_some_iff_getElem.mp h
  exact ⟨inside,by simpa using found⟩

theorem sharedIndex_eq_none : s.sharedIndex base = none ↔ ¬ Listed s base := by
  simp [sharedIndex, Listed]

theorem listed_of_extra (h : 0 < extra s base) : Listed s base := by
  by_contra absent
  have zero : extra s base = 0 := by
    apply sum_eq_zero
    intro _ mem
    obtain ⟨e,he,rfl⟩ := mem_map.mp mem
    have other : e.base ≠ base := fun same => absent ⟨e,he,same⟩
    simp [entryExtra, other]
  omega

/-- The parts of the allocator that `retain` and `release` may leave alone. -/
structure SamePosition (s t : BumpFrameAllocator cfg) : Prop where
  map_eq : t.map = s.map
  region_eq : t.region = s.region
  cursor_eq : t.cursor = s.cursor

theorem SamePosition.drawn (same : SamePosition s t) (base : Nat) : Drawn t base ↔ Drawn s base := by
  simp only [Drawn, same.map_eq, same.region_eq, same.cursor_eq]

theorem SamePosition.positioned (same : SamePosition s t) : Positioned t ↔ Positioned s := by
  simp [Positioned, same.map_eq, same.region_eq, same.cursor_eq]

section
variable (s : BumpFrameAllocator cfg)

theorem retain_position (base : Nat) : SamePosition s (s.retain base) := by
  unfold retain
  split <;> split <;> exact ⟨rfl,rfl,rfl⟩

theorem retain_freeList (base : Nat) : (s.retain base).freeList = s.freeList := by
  unfold retain
  split <;> split <;> rfl

theorem release_position (base : Nat) : SamePosition s (s.release base) := by
  unfold release
  split
  · split
    · split <;> exact ⟨rfl,rfl,rfl⟩
    · exact ⟨rfl,rfl,rfl⟩
  · split <;> exact ⟨rfl,rfl,rfl⟩

end

theorem retain_extra (tracked : Listed s base ∨ s.shared.items.length < cfg.maxSharedFrames) (g : Nat) :
    extra (s.retain base) g = extra s g + if base = g then 1 else 0 := by
  cases found : s.sharedIndex base with
  | some i =>
    obtain ⟨inside,same⟩ := sharedIndex_eq_some found
    have two := (s.shared.items[i]).atLeastTwo
    have sum := sum_set (entryExtra g) s.shared inside
      ⟨(s.shared.items[i]).base,(s.shared.items[i]).count + 1,by omega⟩
    simp only [retain, found, getElem?_eq_getElem inside, extra]
    simp only [entryExtra, same] at sum ⊢
    split_ifs at sum ⊢ <;> omega
  | none =>
    have room : s.shared.items.length < cfg.maxSharedFrames :=
      tracked.resolve_left (sharedIndex_eq_none.mp found)
    cases pushed : s.shared.push ⟨base,2,by omega⟩ with
    | none =>
      have full := push_eq_none.mp pushed
      omega
    | some =>
      simp [retain, found, pushed, extra, (push_eq_some.mp pushed).2, entryExtra]

theorem release_listed (listed : Listed s base) : (s.release base).freeList = s.freeList ∧
    ∀ g, extra (s.release base) g + (if base = g then 1 else 0) = extra s g := by
  cases found : s.sharedIndex base with
  | none => exact absurd listed (sharedIndex_eq_none.mp found)
  | some i =>
    obtain ⟨inside,same⟩ := sharedIndex_eq_some found
    have two := (s.shared.items[i]).atLeastTwo
    by_cases last : (s.shared.items[i]).count - 1 ≤ 1
    · simp only [release, found, getElem?_eq_getElem inside, last, dite_true, extra, true_and]
      intro g
      have sum := sum_swapRemove (entryExtra g) s.shared inside
      simp only [entryExtra, same] at sum ⊢
      split_ifs at sum ⊢ <;> omega
    simp only [release, found, getElem?_eq_getElem inside, last, dite_false, extra, true_and]
    intro g
    have sum := sum_set (entryExtra g) s.shared inside
      ⟨(s.shared.items[i]).base,(s.shared.items[i]).count - 1,by omega⟩
    simp only [entryExtra, same] at sum ⊢
    split_ifs at sum ⊢ <;> omega

theorem release_unlisted (unlisted : ¬ Listed s base) : (s.release base).shared = s.shared ∧
    ((s.release base).freeList.items = s.freeList.items ++ [base] ∨
      (s.release base).freeList.items = s.freeList.items) := by
  have found := sharedIndex_eq_none.mpr unlisted
  cases pushed : s.freeList.push base with
  | none => simp [release, found, pushed]
  | some => simp [release, found, pushed, (push_eq_some.mp pushed).2]

/-- Neither the free list nor the cursor can hand this frame out again. -/
def Held (s : BumpFrameAllocator cfg) (f : PhysFrame) : Prop :=
  f.base ∉ s.freeList.items ∧ Drawn s f.base

def InRun (base count : Nat) (f : PhysFrame) : Prop :=
  base ≤ f.base ∧ f.base < base + count * frameSize

instance (base count : Nat) (f : PhysFrame) : Decidable (InRun base count f) :=
  inferInstanceAs (Decidable (_ ∧ _))

theorem inRun_succ (last : g.base = base + len * frameSize) (f : PhysFrame) :
    InRun base (len + 1) f ↔ InRun base len f ∨ g = f := by
  have hf := f.aligned
  have hg := g.aligned
  simp only [InRun, PhysFrame.ext_iff]
  simp only [frameSize] at *
  omega

theorem inRun_one (g f : PhysFrame) : InRun g.base 1 f ↔ g = f := by
  have hf := f.aligned
  have hg := g.aligned
  simp only [InRun, PhysFrame.ext_iff]
  simp only [frameSize] at *
  omega

theorem alloc_map (ok : Positioned s) (apart : RegionsApart s.map) (h : s.alloc = (r, t)) :
    t.map = s.map ∧ Positioned t := by
  rcases alloc_cases ok apart h with ⟨_,_,_,_,rfl⟩ | ⟨_,moved,_⟩
  · exact ⟨rfl,ok⟩
  · exact ⟨moved.map_eq,moved.positioned⟩

theorem alloc_held (ok : Positioned s) (apart : RegionsApart s.map) (h : s.alloc = (r, t)) (held : Held s f) :
    Held t f ∧ r ≠ some f := by
  obtain ⟨absent,drawn⟩ := held
  rcases alloc_cases ok apart h with ⟨_,_,items,hr,rfl⟩ | ⟨_,moved,fresh⟩
  · rw [items, mem_append, mem_singleton] at absent
    refine ⟨⟨fun mem => absent (Or.inl mem),drawn⟩,?_⟩
    intro same
    rw [hr] at same
    exact absent (Or.inr (fromBase_eq_some.mp same))
  refine ⟨⟨?_,moved.drawn _ drawn⟩,fun same => (fresh f same).1 drawn⟩
  rw [moved.freeList_eq]
  exact absent

section
variable {F : BumpFrameAllocator cfg → Prop} {I : Nat → Nat → BumpFrameAllocator cfg → Prop} {result : Option Nat}
  (forget : ∀ {base len v}, I base len v → F v) (fails : ∀ v u, F v → v.alloc = (none, u) → F u)
  (begins : ∀ v frame u, F v → v.alloc = (some frame, u) → I frame.base 1 u)
  (grows : ∀ base len v frame u, I base len v → v.alloc = (some frame, u) →
    frame.base = base + len * frameSize → I base (len + 1) u)
include forget fails begins grows

theorem extendRun_rule {first prev : PhysFrame} (run : I first.base len s) (short : len ≤ count)
    (last : prev.base + frameSize = first.base + len * frameSize)
    (h : s.extendRun count first prev len turns = (result, t)) :
    result = none ∧ F t ∨ ∃ base, result = some base ∧ I base count t := by
  induction turns generalizing s first prev len with
  | zero =>
    cases h
    split
    · exact .inl ⟨rfl,forget run⟩
    · obtain rfl : len = count := by omega
      exact .inr ⟨_,rfl,run⟩
  | succ turns ih =>
    unfold extendRun at h
    split at h
    · rcases taken : s.alloc with ⟨_ | frame,u⟩
      · rw [taken] at h
        cases h
        exact .inl ⟨rfl,fails s _ (forget run) taken⟩
      rw [taken] at h
      dsimp only at h
      split at h
      · have behind : frame.base = first.base + len * frameSize := by omega
        refine ih (grows _ _ s frame u run taken behind) (by omega) ?_ h
        rw [Nat.succ_mul]
        omega
      · exact ih (begins s frame u (forget run) taken) (by omega) (by simp) h
    · obtain rfl : len = count := by omega
      cases h
      exact .inr ⟨_,rfl,run⟩

/-- What each frame drawn for a run keeps, while the run goes on or starts over, holds of the
    run returned; and what every draw keeps holds when there is none. -/
theorem allocContiguous_rule (init : F s) (h : s.allocContiguous count = (result, t)) :
    result = none ∧ F t ∨ ∃ base, result = some base ∧ I base count t := by
  unfold allocContiguous at h
  split at h
  · cases h
    exact .inl ⟨rfl,init⟩
  rcases taken : s.alloc with ⟨_ | first,u⟩
  · rw [taken] at h
    cases h
    exact .inl ⟨rfl,fails s _ init taken⟩
  rw [taken] at h
  exact extendRun_rule forget fails begins grows (begins s first u init taken) (by omega) (by simp) h

end

theorem allocContiguous_held (ok : Positioned s) (apart : RegionsApart s.map) (held : Held s f)
    (h : s.allocContiguous count = (some base, t)) : ¬ InRun base count f := by
  let F (v : BumpFrameAllocator cfg) : Prop := Positioned v ∧ RegionsApart v.map ∧ Held v f
  have draw (v : BumpFrameAllocator cfg) (got : Option PhysFrame) (u : BumpFrameAllocator cfg) (kept : F v)
      (drawn : v.alloc = (got, u)) : F u ∧ got ≠ some f := by
    obtain ⟨ok,apart,held⟩ := kept
    obtain ⟨same,ok'⟩ := alloc_map ok apart drawn
    obtain ⟨held',other⟩ := alloc_held ok apart drawn held
    exact ⟨⟨ok',same ▸ apart,held'⟩,other⟩
  have run := allocContiguous_rule (F := F) (I := fun base len v => F v ∧ ¬ InRun base len f) And.left
    (fun v u kept drawn => (draw v none u kept drawn).1) ?_ ?_ ⟨ok,apart,held⟩ h
  · obtain ⟨_,⟨⟩,clear⟩ := run.resolve_left nofun
    exact clear.2
  · intro v frame u kept drawn
    obtain ⟨kept',other⟩ := draw v _ u kept drawn
    exact ⟨kept',fun inside => other (congrArg some ((inRun_one frame f).mp inside))⟩
  intro _ _ v _ u kept drawn behind
  obtain ⟨kept',other⟩ := draw v _ u kept.1 drawn
  refine ⟨kept',fun inside => ?_⟩
  rcases (inRun_succ behind f).mp inside with old | new
  · exact kept.2 old
  · exact other (congrArg some new)

end Tessera.BumpFrameAllocator
