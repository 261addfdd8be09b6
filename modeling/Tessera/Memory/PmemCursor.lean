import Tessera.Memory.Pmem

/-!
What the bump cursor has passed. A frame is drawn once the cursor is behind it;
`alloc` either takes the top of the free list or draws a frame that was not
drawn before, provided that the usable regions of the map do not overlap.
-/
namespace Tessera.BumpFrameAllocator
variable {cfg : Config}

/-- The usable regions have no frame in common: the contract of the boot map. -/
def RegionsApart (map : List MemoryRegion) : Prop :=
  ∀ i j lo hi lo' hi', i ≠ j → usableBounds map i = some (lo, hi) →
    usableBounds map j = some (lo', hi') → hi ≤ lo' ∨ hi' ≤ lo

def Drawn (s : BumpFrameAllocator cfg) (base : Nat) : Prop :=
  ∃ i lo hi, usableBounds s.map i = some (lo, hi) ∧ lo ≤ base ∧ base < hi ∧
    (i < s.region ∨ i = s.region ∧ base < s.cursor)

def Positioned (s : BumpFrameAllocator cfg) : Prop :=
  ∀ lo hi, usableBounds s.map s.region = some (lo, hi) → lo ≤ s.cursor ∧ s.cursor % frameSize = 0

structure Moved (s t : BumpFrameAllocator cfg) : Prop where
  map_eq : t.map = s.map
  freeList_eq : t.freeList = s.freeList
  shared_eq : t.shared = s.shared
  positioned : Positioned t
  drawn : ∀ base, Drawn s base → Drawn t base

variable {s t : BumpFrameAllocator cfg} {r : Option PhysFrame} {lo hi : Nat}

theorem Moved.rfl' (ok : Positioned s) : Moved s s :=
  ⟨rfl,rfl,rfl,ok,fun _ h => h⟩

theorem Moved.trans (first : Moved s t) (second : Moved t u) : Moved s u :=
  ⟨second.map_eq.trans first.map_eq, second.freeList_eq.trans first.freeList_eq,
    second.shared_eq.trans first.shared_eq, second.positioned,
    fun base h => second.drawn base (first.drawn base h)⟩

theorem boundsOf_aligned {r : MemoryRegion} (h : boundsOf r = some (lo, hi)) : lo % frameSize = 0 := by
  unfold boundsOf at h
  split at h
  · simp only [Option.bind_eq_bind, Option.bind_eq_some_iff] at h
    obtain ⟨_,up,_,_,h⟩ := h
    split at h
    · cases h
    · cases h
      exact alignUp_dvd up
  · cases h

theorem usableBounds_aligned {map : List MemoryRegion} (h : usableBounds map i = some (lo, hi)) :
    lo % frameSize = 0 := by
  obtain ⟨_,_,hr⟩ := Option.bind_eq_some_iff.mp h
  exact boundsOf_aligned hr

theorem advance_positioned (s : BumpFrameAllocator cfg) (start : Nat) :
    Positioned (s.advanceToUsableRegion start) := by
  intro lo hi bounds
  change usableBounds s.map (firstUsable s.map start) = some (lo, hi) at bounds
  simp [advanceToUsableRegion, bounds, usableBounds_aligned bounds]

theorem advance_moved (s : BumpFrameAllocator cfg) (later : s.region < start) :
    Moved s (s.advanceToUsableRegion start) := by
  refine ⟨rfl,rfl,rfl,advance_positioned s start,?_⟩
  rintro _ ⟨i,lo,hi,bounds,above,below,behind⟩
  refine ⟨i,lo,hi,bounds,above,below,Or.inl ?_⟩
  have far : start ≤ (s.advanceToUsableRegion start).region := Nat.le_add_right _ _
  rcases behind with h | ⟨h,_⟩ <;> omega

theorem cursor_not_drawn (apart : RegionsApart s.map) (bounds : usableBounds s.map s.region = some (lo, hi))
    (above : lo ≤ s.cursor) (below : s.cursor < hi) : ¬ Drawn s s.cursor := by
  rintro ⟨i,lo',hi',bounds',_,_,behind⟩
  rcases behind with _ | ⟨_,_⟩
  · rcases apart i s.region lo' hi' lo hi (by omega) bounds' bounds with h | h <;> omega
  · omega

theorem draw_moved {next : Nat} (ok : Positioned s) (step : next = s.cursor + frameSize) :
    Moved s { s with cursor := next, handedOut := s.handedOut + 1 } := by
  refine ⟨rfl,rfl,rfl,?_,?_⟩
  · intro lo' hi' bounds'
    obtain ⟨above,dvd⟩ := ok lo' hi' bounds'
    simp only [step, frameSize] at dvd ⊢
    omega
  · rintro _ ⟨i,lo',hi',bounds',above,below,behind⟩
    refine ⟨i,lo',hi',bounds',above,below,?_⟩
    rcases behind with h | ⟨h,_⟩
    · exact .inl h
    · exact .inr ⟨h,by simp only [step]; omega⟩

def Fresh (s t : BumpFrameAllocator cfg) (r : Option PhysFrame) : Prop :=
  ∀ f, r = some f → ¬ Drawn s f.base ∧ Drawn t f.base

theorem fresh_none (s t : BumpFrameAllocator cfg) : Fresh s t none := by
  intro _ h
  cases h

theorem bumpTurn_cases (ok : Positioned s) (apart : RegionsApart s.map) :
    (∃ r t, s.bumpTurn = .inl (r, t) ∧ Moved s t ∧ Fresh s t r) ∨ ∃ t, s.bumpTurn = .inr t ∧ Moved s t := by
  cases bounds : usableBounds s.map s.region with
  | none =>
    exact .inl ⟨none,s,by simp [bumpTurn, bounds],.rfl' ok,fresh_none s s⟩
  | some pair =>
    obtain ⟨lo,hi⟩ := pair
    obtain ⟨above,aligned⟩ := ok lo hi bounds
    -- a positioned cursor is never below its region, so the raise changes nothing
    have raise : max s.cursor lo = s.cursor := Nat.max_eq_left above
    cases sum : checkedAdd s.cursor frameSize with
    | none =>
      exact .inl ⟨none,s,by simp [bumpTurn, bounds, raise, sum],.rfl' ok,fresh_none s s⟩
    | some next =>
      have hnext := checkedAdd_eq_some sum
      have frame : PhysFrame.fromBase s.cursor = some ⟨s.cursor,aligned⟩ := fromBase_eq_some.mpr rfl
      by_cases inside : next ≤ hi
      · refine .inl ⟨some ⟨s.cursor,aligned⟩,{ s with cursor := next, handedOut := s.handedOut + 1 },
          by simp [bumpTurn, bounds, raise, sum, inside, frame],draw_moved ok hnext,?_⟩
        have below : s.cursor < next := by
          simp only [hnext, frameSize]
          omega
        have inRegion : s.cursor < hi := by omega
        rintro _ ⟨⟩
        exact ⟨cursor_not_drawn apart bounds above inRegion, s.region,lo,hi,bounds,above,inRegion,Or.inr ⟨rfl,below⟩⟩
      · have moved := advance_moved s (Nat.lt_succ_self s.region)
        by_cases past : s.map.length ≤ (s.advanceToUsableRegion (s.region + 1)).region
        · have past' : s.map.length ≤ firstUsable s.map (s.region + 1) := past
          exact .inl ⟨none,_,by
            simp [bumpTurn, bounds, raise, sum, inside, advanceToUsableRegion, past'],moved,fresh_none s _⟩
        · have past' : ¬ s.map.length ≤ firstUsable s.map (s.region + 1) := past
          exact .inr ⟨_,by simp [bumpTurn, bounds, raise, sum, inside, advanceToUsableRegion, past'],moved⟩

theorem bump_spec (ok : Positioned s) (apart : RegionsApart s.map) (h : s.bump turns = (r, t)) :
    Moved s t ∧ Fresh s t r := by
  induction turns generalizing s with
  | zero =>
    cases h
    exact ⟨.rfl' ok,fresh_none _ _⟩
  | succ turns ih =>
    rcases bumpTurn_cases ok apart with ⟨_,_,turn,moved,fresh⟩ | ⟨_,turn,moved⟩
    · simp only [bump, turn] at h
      cases h
      exact ⟨moved,fresh⟩
    simp only [bump, turn] at h
    obtain ⟨onward,fresh⟩ := ih moved.positioned (moved.map_eq ▸ apart) h
    refine ⟨moved.trans onward,fun f hf => ⟨?_,(fresh f hf).2⟩⟩
    exact fun before => (fresh f hf).1 (moved.drawn _ before)

theorem alloc_cases (ok : Positioned s) (apart : RegionsApart s.map) (h : s.alloc = (r, t)) :
    (∃ base rest, s.freeList.items = rest.items ++ [base] ∧ r = PhysFrame.fromBase base ∧
      t = { s with freeList := rest }) ∨
    (s.freeList.items = [] ∧ Moved s t ∧ Fresh s t r) := by
  unfold alloc at h
  cases popped : s.freeList.pop with
  | none =>
    simp only [popped] at h
    exact .inr ⟨Bounded.pop_eq_none.mp popped,bump_spec ok apart h⟩
  | some pair =>
    obtain ⟨base,rest⟩ := pair
    simp only [popped] at h
    cases h
    exact .inl ⟨base,rest,Bounded.pop_eq_some.mp popped,rfl,rfl⟩

section
variable (map : List MemoryRegion)

theorem new_positioned : Positioned (new map : BumpFrameAllocator cfg) :=
  advance_positioned _ 0

@[simp] theorem new_map : (new map : BumpFrameAllocator cfg).map = map :=
  rfl

@[simp] theorem new_freeList : (new map : BumpFrameAllocator cfg).freeList.items = [] := rfl

@[simp] theorem new_shared : (new map : BumpFrameAllocator cfg).shared.items = [] := rfl

end

end Tessera.BumpFrameAllocator
