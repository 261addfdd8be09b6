import Tessera.Memory.FrameReferences

/-!
Reference safety of the frame allocator over every sequence of calls. The
counts of a run bound what the free list may hold as long as every `retain` is
of a frame that still has a reference and finds its entry or a free one in the
shared table. Without the second condition the reference is forgotten and the
next `release` puts a referenced frame on the free list.
-/
namespace Tessera.BumpFrameAllocator
open Transition List
variable {cfg : Config}

section
variable (h : List FrameEvent) (s : BumpFrameAllocator cfg)

inductive FrameEvent where
  | alloc (result : Option PhysFrame)
  | allocContiguous (count : Nat) (result : Option Nat)
  | retain (frame : PhysFrame)
  | release (frame : PhysFrame)
  deriving DecidableEq

def perform (s : BumpFrameAllocator cfg) : FrameEvent → Option (BumpFrameAllocator cfg)
  | .alloc result => if s.alloc.1 = result then some s.alloc.2 else none
  | .allocContiguous count result =>
    if (s.allocContiguous count).1 = result then some (s.allocContiguous count).2 else none
  | .retain frame => some (s.retain frame.base)
  | .release frame => some (s.release frame.base)

def Step (s : BumpFrameAllocator cfg) (e : FrameEvent) (t : BumpFrameAllocator cfg) : Prop :=
  s.perform e = some t

def FrameEvent.allocations (f : PhysFrame) : FrameEvent → Nat
  | .alloc result => if result = some f then 1 else 0
  | .allocContiguous count (some base) => if InRun base count f then 1 else 0
  | _ => 0

def FrameEvent.retains (f : PhysFrame) : FrameEvent → Nat
  | .retain g => if g = f then 1 else 0
  | _ => 0

def FrameEvent.releases (f : PhysFrame) : FrameEvent → Nat
  | .release g => if g = f then 1 else 0
  | _ => 0

def allocations (h : List FrameEvent) (f : PhysFrame) : Nat := (h.map (·.allocations f)).sum

def retains (h : List FrameEvent) (f : PhysFrame) : Nat := (h.map (·.retains f)).sum

def releases (h : List FrameEvent) (f : PhysFrame) : Nat := (h.map (·.releases f)).sum

/-- Fewer references have been given back than were handed out and added. -/
def Referenced (f : PhysFrame) : Prop :=
  0 < allocations h f ∧ releases h f < retains h f + allocations h f

instance (h : List FrameEvent) (f : PhysFrame) : Decidable (Referenced h f) :=
  inferInstanceAs (Decidable (_ ∧ _))

/-- No referenced frame is free, and none can be handed out by the next call. -/
def ReferenceSafe : Prop :=
  ∀ f, Referenced h f → f.base ∉ s.freeList.items ∧ s.alloc.1 ≠ some f ∧
    ∀ count base, (s.allocContiguous count).1 = some base → ¬ InRun base count f

/-- A `retain` is of a referenced frame, and the shared table can record it. -/
def Tracked : FrameEvent → Prop
  | .retain f => Referenced h f ∧ (Listed s f.base ∨ s.shared.items.length < cfg.maxSharedFrames)
  | _ => True

/-- The allocator's records against the counts `a` of allocations, `k` of
    retains and `r` of releases of each frame. -/
structure Accounted (a k r : PhysFrame → Nat) (s : BumpFrameAllocator cfg) : Prop where
  positioned : Positioned s
  apart : RegionsApart s.map
  balance : ∀ f : PhysFrame, a f + k f + s.freeList.items.count f.base ≤ r f + extra s f.base + 1
  undrawn : ∀ f : PhysFrame, ¬ Drawn s f.base → a f + k f + s.freeList.items.count f.base ≤ r f + extra s f.base
  listed : ∀ f : PhysFrame, 0 < extra s f.base → Held s f

end

variable {a k r : PhysFrame → Nat} {s t : BumpFrameAllocator cfg} {map : List MemoryRegion} {g : PhysFrame}
  {count : Nat} {result : Option Nat}

theorem Accounted.held (acc : Accounted a k r s) (referenced : r f < k f + a f) : Held s f := by
  by_cases shared : 0 < extra s f.base
  · exact acc.listed f shared
  have drawn : Drawn s f.base := by
    by_contra none
    have := acc.undrawn f none
    omega
  have balance := acc.balance f
  exact ⟨count_eq_zero.mp (by omega),drawn⟩

theorem accounted_new (apart : RegionsApart map) :
    Accounted (fun _ => 0) (fun _ => 0) (fun _ => 0) (new map : BumpFrameAllocator cfg) := by
  refine ⟨new_positioned map,by simpa using apart,?_,?_,?_⟩
  · simp
  · simp
  · intro _ shared
    simp [extra] at shared

/-- The cursor stays, and for no frame do the references that are counted gain on the recorded ones. -/
theorem Accounted.shift {a' k' r' : PhysFrame → Nat} (acc : Accounted a k r s) (same : SamePosition s t)
    (shift : ∀ f, a' f + k' f + t.freeList.items.count f.base + (r f + extra s f.base) ≤
      a f + k f + s.freeList.items.count f.base + (r' f + extra t f.base))
    (listed : ∀ f : PhysFrame, 0 < extra t f.base → Held t f) : Accounted a' k' r' t := by
  refine ⟨same.positioned.mpr acc.positioned,same.map_eq ▸ acc.apart,fun f => ?_,fun f none => ?_,listed⟩
  · have := acc.balance f
    have := shift f
    omega
  · have := acc.undrawn f fun drawn => none ((same.drawn _).mpr drawn)
    have := shift f
    omega

theorem Accounted.fewer (acc : Accounted a k r s) (le : ∀ f, b f ≤ a f) : Accounted b k r s := by
  refine acc.shift ⟨rfl,rfl,rfl⟩ (fun f => ?_) acc.listed
  have := le f
  omega

section
variable (acc : Accounted a k r s)
include acc

theorem Accounted.alloc (h : s.alloc = (got, t)) :
    Accounted (fun f => a f + if got = some f then 1 else 0) k r t := by
  obtain ⟨same_map,ok⟩ := alloc_map acc.positioned acc.apart h
  have keeps_listed : (∀ g, extra t g = extra s g) → ∀ f : PhysFrame, 0 < extra t f.base → Held t f := by
    intro same f shared
    rw [same] at shared
    exact (alloc_held acc.positioned acc.apart h (acc.listed f shared)).1
  rcases alloc_cases acc.positioned acc.apart h with ⟨base,rest,items,hgot,rfl⟩ | ⟨_,moved,fresh⟩
  · have count : ∀ f : PhysFrame, rest.items.count f.base + (if got = some f then 1 else 0) =
        s.freeList.items.count f.base := by
      intro f
      rw [items, count_append, count_singleton, hgot]
      simp [fromBase_eq_some, eq_comm (a := base)]
    refine acc.shift ⟨rfl,rfl,rfl⟩ (fun f => ?_) (keeps_listed fun _ => rfl)
    have := count f
    change _ + k f + rest.items.count f.base + _ ≤ _ + (r f + extra s f.base)
    omega
  · have same_extra : ∀ g, extra t g = extra s g := fun g => by rw [extra, extra, moved.shared_eq]
    refine ⟨ok,same_map ▸ acc.apart,?_,?_,keeps_listed same_extra⟩
    · intro f
      rw [same_extra, moved.freeList_eq]
      by_cases taken : got = some f
      · have := acc.undrawn f (fresh f taken).1
        simp only [taken, if_true]
        omega
      have := acc.balance f
      simp only [taken, if_false]
      omega
    · intro f none
      have other : got ≠ some f := fun taken => none (fresh f taken).2
      have := acc.undrawn f (fun drawn => none (moved.drawn _ drawn))
      rw [same_extra, moved.freeList_eq]
      simp only [other, if_false]
      omega

theorem Accounted.allocContiguous (h : s.allocContiguous count = (result, t)) :
    Accounted (fun f => a f + (FrameEvent.allocContiguous count result).allocations f) k r t := by
  have run := allocContiguous_rule (F := Accounted a k r)
    (I := fun base len => Accounted (fun f => a f + if InRun base len f then 1 else 0) k r)
    (fun acc => acc.fewer fun _ => Nat.le_add_right _ _) ?_ ?_ ?_ acc h
  · rcases run with ⟨rfl,left⟩ | ⟨base,rfl,full⟩
    · exact left
    · exact full
  · exact fun v u acc refused => (acc.alloc refused).fewer fun _ => Nat.le_add_right _ _
  · refine fun v frame u acc taken => (acc.alloc taken).fewer fun f => ?_
    simp [inRun_one]
  · refine fun base len v frame u acc taken behind => (acc.alloc taken).fewer fun f => ?_
    have split_run := inRun_succ behind f
    by_cases new : frame = f <;> by_cases old : InRun base len f <;> simp [split_run, old]

omit acc in
theorem hbase (f : PhysFrame) : (if g.base = f.base then 1 else 0) = if g = f then 1 else 0 := by
  simp [PhysFrame.ext_iff]

theorem Accounted.retain (referenced : r g < k g + a g)
    (tracked : Listed s g.base ∨ s.shared.items.length < cfg.maxSharedFrames) :
    Accounted a (fun f => k f + if g = f then 1 else 0) r (s.retain g.base) := by
  have same := retain_position s g.base
  have more := retain_extra tracked
  refine acc.shift same (fun f => ?_) fun f shared => ?_
  · rw [more, hbase, retain_freeList]
    omega
  · rw [Held, retain_freeList, same.drawn]
    by_cases own : g = f
    · exact own ▸ acc.held referenced
    · rw [more, hbase, if_neg own] at shared
      exact acc.listed f shared

theorem Accounted.release (g : PhysFrame) :
    Accounted a k (fun f => r f + if g = f then 1 else 0) (s.release g.base) := by
  have same := release_position s g.base
  by_cases listed : Listed s g.base
  · obtain ⟨free,less⟩ := release_listed listed
    have less' : ∀ f : PhysFrame, extra (s.release g.base) f.base + (if g = f then 1 else 0) =
        extra s f.base := by
      intro f
      rw [← hbase]
      exact less f.base
    refine acc.shift same (fun f => ?_) fun f shared => ?_ <;> have := less' f
    · rw [free]
      omega
    · rw [Held, free, same.drawn]
      exact acc.listed f (by omega)
  · obtain ⟨shared_eq,free⟩ := release_unlisted listed
    have same_extra : ∀ b, extra (s.release g.base) b = extra s b := fun b => by
      rw [extra, extra, shared_eq]
    have count : ∀ f : PhysFrame, (s.release g.base).freeList.items.count f.base ≤
        s.freeList.items.count f.base + if g = f then 1 else 0 := by
      intro f
      rcases free with pushed | lost
      · rw [pushed, count_append, count_singleton, ← hbase]
        simp
      · rw [lost]
        omega
    refine acc.shift same (fun f => ?_) fun f shared => ?_
    · have := count f
      rw [same_extra]
      omega
    · rw [same_extra] at shared
      obtain ⟨absent,drawn⟩ := acc.listed f shared
      have other : ¬ g = f := fun own => listed (own ▸ listed_of_extra shared)
      refine ⟨?_,(same.drawn _).mpr drawn⟩
      have := count f
      rw [if_neg other, count_eq_zero.mpr absent] at this
      exact count_eq_zero.mp (by omega)

end

theorem accounted_run (apart : RegionsApart map)
    (run : Disciplined Tracked Step (new map) h s) : Accounted (allocations h) (retains h) (releases h) s := by
  refine run.invariant (fun h s => Accounted (allocations h) (retains h) (releases h) s) ?_
    (accounted_new apart)
  intro h _ e _ acc ok step
  have ha : allocations (h ++ [e]) = fun f => allocations h f + e.allocations f := by
    funext f
    simp [allocations]
  have hk : retains (h ++ [e]) = fun f => retains h f + e.retains f := by
    funext f
    simp [retains]
  have hr : releases (h ++ [e]) = fun f => releases h f + e.releases f := by
    funext f
    simp [releases]
  rw [ha, hk, hr]
  cases e with
  | alloc =>
    simp only [Step, perform] at step
    split at step
    · rename_i same
      cases step
      exact acc.alloc (Prod.ext same rfl)
    · cases step
  | allocContiguous =>
    simp only [Step, perform] at step
    split at step
    · rename_i same
      cases step
      exact acc.allocContiguous (Prod.ext same rfl)
    · cases step
  | retain =>
    cases step
    exact acc.retain ok.1.2 ok.2
  | release g =>
    cases step
    exact acc.release g

/-- In every run over a map with disjoint regions in which each `retain` is of a
    referenced frame the shared table can record, no referenced frame is free
    or handed out again. -/
theorem referenced_frames_stay_out {map : List MemoryRegion} (apart : RegionsApart map)
    {h : List FrameEvent} {s : BumpFrameAllocator cfg}
    (run : Disciplined Tracked Step (new map) h s) : ReferenceSafe h s := by
  intro _ referenced
  have acc := accounted_run apart run
  have held := acc.held referenced.2
  refine ⟨held.1,?_,?_⟩
  · exact (alloc_held acc.positioned acc.apart rfl held).2
  · intro _ _ returned
    exact allocContiguous_held acc.positioned acc.apart held (Prod.ext returned rfl)

def frameNumber (n : Nat) : PhysFrame := ⟨n * frameSize, Nat.mul_mod_left n frameSize⟩

theorem single_region_apart (r : MemoryRegion) : RegionsApart [r] := by
  intro i j _ hi _ _ _ first second
  have hi : i = 0 := by
    by_contra other
    simp [usableBounds, other] at first
  have hj : j = 0 := by
    by_contra other
    simp [usableBounds, other] at second
  omega

instance (h : List FrameEvent) (s : BumpFrameAllocator cfg) (e : FrameEvent) : Decidable (Tracked h s e) :=
  match e with
  | .retain f => inferInstanceAs (Decidable (Referenced h f ∧ (Listed s f.base ∨ _)))
  | .alloc _ | .allocContiguous _ _ | .release _ => inferInstanceAs (Decidable True)

def sharedOnce : List FrameEvent :=
  [.alloc (some (frameNumber 0)), .retain (frameNumber 0), .alloc (some (frameNumber 1)),
    .release (frameNumber 0), .allocContiguous 2 (some (2 * frameSize))]

theorem shared_once_stays_out :
    ∃ s : BumpFrameAllocator .default, ReferenceSafe sharedOnce s ∧ Referenced sharedOnce (frameNumber 0) := by
  have done : (performAll Tracked perform [] (new [⟨0, 8 * frameSize, .usable⟩] :
      BumpFrameAllocator .default) sharedOnce).isSome := by decide
  obtain ⟨s,hs⟩ := Option.isSome_iff_exists.mp done
  exact ⟨s,referenced_frames_stay_out (single_region_apart _) (Disciplined.start.performAll hs),by decide⟩

/-- Hand out one frame more than the shared table holds, retaining each, and
    give the last reference of the last one back once. -/
def oneTooMany : List FrameEvent :=
  (List.range 257).flatMap (fun n => [.alloc (some (frameNumber n)), .retain (frameNumber n)]) ++
    [.release (frameNumber 256)]

theorem untracked_reference_is_freed : ∃ (h : List FrameEvent) (s : BumpFrameAllocator .default),
      Run Step (new [⟨0, 300 * frameSize, .usable⟩]) h s ∧
      RegionsApart [⟨0, 300 * frameSize, .usable⟩] ∧ ¬ ReferenceSafe h s := by
  obtain ⟨s,run,freed⟩ : ∃ s : BumpFrameAllocator .default, Run Step (new [⟨0, 300 * frameSize, .usable⟩]) oneTooMany s ∧
      (frameNumber 256).base ∈ s.freeList.items := Disciplined.reaches (by decide +kernel)
  refine ⟨oneTooMany,s,run,single_region_apart _,fun safe => ?_⟩
  have referenced : Referenced oneTooMany (frameNumber 256) := by decide +kernel
  exact (safe _ referenced).1 freed

end Tessera.BumpFrameAllocator
