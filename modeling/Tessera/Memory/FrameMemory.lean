import Tessera.Memory.CountedSource

/-!
A frame source together with what is in the frames. The kernel writes over a frame
as soon as it has drawn it, with zeros or with a copy, so a drawn frame is cleared
here and a copy is made by whoever asked for the frame.
-/
namespace Tessera
open Function CountedSource FrameSource

structure FrameMemory (σ α : Type) where
  source : σ
  held : PhysFrame → α

namespace FrameMemory
variable {σ α : Type} [FrameSource σ] [Inhabited α] {m m' : FrameMemory σ α} {f g : PhysFrame}

instance : FrameSource (FrameMemory σ α) where
  allocFrame m :=
    match allocFrame m.source with
    | (none, source) => (none, { m with source })
    | (some f, source) => (some f, ⟨source, update m.held f default⟩)
  retainFrame m f := { m with source := retainFrame m.source f }
  freeFrame m f := { m with source := freeFrame m.source f }
  framesAvailable m := framesAvailable m.source

theorem allocFrame_none (drawn : allocFrame m = (none, m')) :
    allocFrame m.source = (none, m'.source) ∧ m'.held = m.held := by
  simp only [allocFrame] at drawn
  split at drawn
  · rename_i empty
    cases drawn
    exact ⟨empty,rfl⟩
  · cases drawn

theorem allocFrame_some (drawn : allocFrame m = (some f, m')) :
    allocFrame m.source = (some f, m'.source) ∧ m'.held = update m.held f default := by
  simp only [allocFrame] at drawn
  split at drawn
  · cases drawn
  rename_i got
  cases drawn
  exact ⟨got,rfl⟩

instance [CountedSource σ] : CountedSource (FrameMemory σ α) where
  Counts refs m := CountedSource.Counts refs m.source
  Tracks m f := CountedSource.Tracks m.source f
  Room m n := CountedSource.Room m.source n
  fewer counts le := fewer counts le
  alloc_none counts drawn := alloc_none counts (allocFrame_none drawn).1
  alloc_some counts drawn := alloc_some counts (allocFrame_some drawn).1
  retain counts held tracked := retain counts held tracked
  free counts held := free counts held
  room_tracks f room := room_tracks f room
  room_retain f room := room_retain f room
  room_alloc {_ _ _ r _} counts room drawn := by
    cases r with
    | none => exact room_alloc counts room (allocFrame_none drawn).1
    | some => exact room_alloc counts room (allocFrame_some drawn).1

end FrameMemory
end Tessera
