import Tessera.Memory.FrameSafety

/-!
What a client of a frame source may rely on, stated with a count of the references
the client knows of. A frame that comes out had no reference; an added reference
counts if the source can record it; a reference given back is gone. The boot
allocator keeps its side as long as the regions of its map are apart.
-/
namespace Tessera
open Function FrameSource

class CountedSource (σ : Type) [FrameSource σ] where
  /-- Every frame has at least these references, as far as the source is concerned. -/
  Counts : (PhysFrame → Nat) → σ → Prop
  /-- The source can record one more reference to the frame. -/
  Tracks : σ → PhysFrame → Prop
  fewer {refs less : PhysFrame → Nat} {s : σ} : Counts refs s → (∀ f, less f ≤ refs f) → Counts less s
  alloc_none {refs : PhysFrame → Nat} {s t : σ} : Counts refs s → allocFrame s = (none, t) → Counts refs t
  alloc_some {refs : PhysFrame → Nat} {s t : σ} {f : PhysFrame} : Counts refs s →
    allocFrame s = (some f, t) → refs f = 0 ∧ Counts (update refs f 1) t
  retain {refs : PhysFrame → Nat} {s : σ} {f : PhysFrame} : Counts refs s → 0 < refs f → Tracks s f →
    Counts (update refs f (refs f + 1)) (retainFrame s f)
  free {refs : PhysFrame → Nat} {s : σ} {f : PhysFrame} : Counts refs s → 0 < refs f →
    Counts (update refs f (refs f - 1)) (freeFrame s f)
  /-- That many further references can be recorded, whatever frames they are to. -/
  Room : σ → Nat → Prop
  room_tracks {s : σ} {n : Nat} (f : PhysFrame) : Room s (n + 1) → Tracks s f
  room_retain {s : σ} {n : Nat} (f : PhysFrame) : Room s (n + 1) → Room (retainFrame s f) n
  room_alloc {refs : PhysFrame → Nat} {s t : σ} {r : Option PhysFrame} {n : Nat} : Counts refs s → Room s n →
    allocFrame s = (r, t) → Room t n

namespace BumpFrameAllocator
variable {cfg : Config} {refs less : PhysFrame → Nat} {s t : BumpFrameAllocator cfg} {f : PhysFrame}

theorem Accounted.settle (acc : Accounted refs (fun _ => 0) (fun g => if f = g then 1 else 0) s)
    (counted : 0 < refs f) : Accounted (update refs f (refs f - 1)) (fun _ => 0) (fun _ => 0) s := by
  have total : ∀ g, update refs f (refs f - 1) g + (if f = g then 1 else 0) = refs g := by
    intro g
    by_cases same : f = g
    · subst same
      rw [update_self, if_pos rfl]
      omega
    · rw [update_of_ne (Ne.symm same), if_neg same]
      rfl
  refine acc.shift ⟨rfl,rfl,rfl⟩ (fun g => ?_) acc.listed
  have := total g
  omega

theorem Accounted.absorb (acc : Accounted refs (fun g => if f = g then 1 else 0) (fun _ => 0) s) :
    Accounted (update refs f (refs f + 1)) (fun _ => 0) (fun _ => 0) s := by
  have total : ∀ g, update refs f (refs f + 1) g = refs g + if f = g then 1 else 0 := by
    intro g
    by_cases same : f = g
    · subst same
      simp
    · simp [update_of_ne (Ne.symm same), same]
  refine acc.shift ⟨rfl,rfl,rfl⟩ (fun g => ?_) acc.listed
  rw [total]
  omega

theorem retain_shared_length (s : BumpFrameAllocator cfg) (base : Nat) :
    (s.retain base).shared.items.length ≤ s.shared.items.length + 1 := by
  unfold retain
  split
  · split
    · rw [Bounded.set_items, List.length_set]
      omega
    · omega
  split
  · rename_i pushed
    rw [(Bounded.push_eq_some.mp pushed).2, List.length_append]
    exact Nat.le_refl _
  · exact Nat.le_succ _

theorem alloc_shared {r : Option PhysFrame} (ok : Positioned s) (apart : RegionsApart s.map)
    (h : s.alloc = (r, t)) : t.shared = s.shared := by
  rcases alloc_cases ok apart h with ⟨_,_,_,_,rfl⟩ | ⟨_,moved,_⟩
  · rfl
  · exact moved.shared_eq

instance : CountedSource (BumpFrameAllocator cfg) where
  Counts refs s := Accounted refs (fun _ => 0) (fun _ => 0) s
  Tracks s f := Listed s f.base ∨ s.shared.items.length < cfg.maxSharedFrames
  fewer acc le := acc.fewer le
  alloc_none acc h := by simpa using acc.alloc h
  alloc_some {refs s t f} acc h := by
    have unheld : refs f = 0 := by
      by_contra counted
      have held := acc.held (f := f) (by omega)
      exact (alloc_held acc.positioned acc.apart h held).2 rfl
    refine ⟨unheld,(acc.alloc h).fewer fun g => ?_⟩
    by_cases same : f = g
    · subst same
      simp
    · simp [update_of_ne (Ne.symm same), same]
  retain {refs s f} acc counted tracked := by
    have retained := acc.retain (by simpa using counted) tracked
    simp only [Nat.zero_add] at retained
    exact retained.absorb
  free {refs s f} acc counted := by
    have released := acc.release f
    simp only [Nat.zero_add] at released
    exact released.settle counted
  Room s n := s.shared.items.length + n ≤ cfg.maxSharedFrames
  room_tracks _ room := Or.inr (by omega)
  room_retain {s n} f room := by
    have := retain_shared_length s f.base
    show (s.retain f.base).shared.items.length + n ≤ cfg.maxSharedFrames
    omega
  room_alloc acc room h := by
    rw [alloc_shared acc.positioned acc.apart h]
    exact room

theorem counts_new {map : List MemoryRegion} (apart : RegionsApart map) :
    CountedSource.Counts (fun _ => 0) (new map : BumpFrameAllocator cfg) := accounted_new apart

end BumpFrameAllocator

end Tessera
