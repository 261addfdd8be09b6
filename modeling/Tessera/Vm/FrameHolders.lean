import Tessera.Lib.Tally
import Tessera.Memory.FrameMemory
import Tessera.Vm.FrameAccount

/-!
Who holds which frame. Every page that maps a frame, every page table and every
reference an operation has in its hands is a reference of its own with the frame
source, beside the ones others hold. From this follows that a frame the source
hands out is mapped nowhere, and how many references an operation can add.
-/
namespace Tessera
open CountedSource List FrameSource Option
open Function Tally

namespace ArchSpace

def loose (a : ArchSpace) (pin : Nat → Option PhysFrame) (p : Nat) : Option PhysFrame :=
  if (pin p).isSome then none else a.frameAt p

/-- What stands still while an operation works on a space. `rest` counts the
    references that others hold and those of the pinned pages, `before` the ones there
    were when it began; `given` are the frames it may add references to, and `kept` is
    what was in the frames. -/
structure Backdrop (α : Type) where
  pin : Nat → Option PhysFrame
  rest : PhysFrame → Nat
  before : PhysFrame → Nat
  given : PhysFrame → Prop
  kept : PhysFrame → α

variable {σ α : Type} [FrameSource σ] [CountedSource σ] [Inhabited α] {port : ArchPort} {e : Backdrop α}
  {a b : ArchSpace} {hand : List PhysFrame} {s t : FrameMemory σ α} {g : PhysFrame}

/-- The references of a space in the middle of an operation: no frame is referenced
    more often than the source knows, only the frames it was given can have come to
    more than one reference by its doing, and the pinned pages are as they were. -/
structure Funded (e : Backdrop α) (a : ArchSpace) (hand : List PhysFrame) (s : FrameMemory σ α) : Prop where
  counted : ∃ refs, CountedSource.Counts refs s ∧
    (∀ f, ∃ n, AtMost (a.loose e.pin) f n ∧ n + a.tableFrames.count f + hand.count f + e.rest f ≤ refs f) ∧
    ∀ f, refs f ≤ max (e.before f) 1 ∨ e.given f
  pinned : ∀ p f, e.pin p = some f → a.frameAt p = some f ∧ 0 < e.rest f
  unwritten : ∀ f, 0 < e.rest f → s.held f = e.kept f

theorem Funded.congr (funded : Funded e a hand s) (pages : b.frameAt = a.frameAt)
    (tables : b.tableFrames = a.tableFrames) : Funded e b hand s := by
  have same : b.loose e.pin = a.loose e.pin := by
    funext p
    simp only [loose, pages]
  refine ⟨?_,?_,funded.unwritten⟩
  · rw [same, tables]
    exact funded.counted
  · rw [pages]
    exact funded.pinned

variable {p n va : Nat} {flags : PageFlags} {result : Except KError Unit}

theorem Funded.perm (funded : Funded e a hand s) (same : ∀ f, hand'.count f ≤ hand.count f) : Funded e a hand' s := by
  obtain ⟨refs,counts,held,grown⟩ := funded.counted
  refine ⟨⟨refs,counts,fun f => ?_,grown⟩,funded.pinned,funded.unwritten⟩
  obtain ⟨n,most,_⟩ := held f
  have := same f
  exact ⟨n,most,by omega⟩

section
variable (funded : Funded e a (g :: hand) s)
include funded

theorem Funded.drop : Funded e a hand s :=
  funded.perm fun _ => count_le_count_cons

theorem Funded.free : Funded e a hand (FrameSource.freeFrame s g) := by
  obtain ⟨refs,counts,held,grown⟩ := funded.counted
  have some : 0 < refs g := by
    obtain ⟨n,_,enough⟩ := held g
    rw [count_cons_self] at enough
    omega
  refine ⟨⟨_,CountedSource.free counts some,fun f => ?_,fun f => ?_⟩,funded.pinned,funded.unwritten⟩
  · obtain ⟨n,most,enough⟩ := held f
    refine ⟨n,most,?_⟩
    by_cases same : f = g
    · subst same
      rw [count_cons_self] at enough
      rw [update_self]
      omega
    rw [count_cons_of_ne (Ne.symm same)] at enough
    rw [update_of_ne same]
    exact enough
  · by_cases same : f = g
    · subst same
      rw [update_self]
      exact (grown f).imp_left fun le => Nat.le_trans (Nat.sub_le _ _) le
    · rw [update_of_ne same]
      exact grown f

theorem Funded.addTable (key : Nat) : Funded e { a with tables := (key, g) :: a.tables } hand s := by
  obtain ⟨refs,counts,held,grown⟩ := funded.counted
  refine ⟨⟨refs,counts,fun f => ?_,grown⟩,funded.pinned,funded.unwritten⟩
  obtain ⟨n,most,enough⟩ := held f
  refine ⟨n,most,?_⟩
  simp only [tableFrames, map_cons, count_cons] at enough ⊢
  omega

theorem Funded.install (vacant : a.pages p = none)
    (pages : b.pages = update a.pages p (some (g, flags))) (tables : b.tableFrames = a.tableFrames) :
    Funded e b hand s := by
  have elsewhere : ∀ q, q ≠ p → b.frameAt q = a.frameAt q := by
    intro q other
    simp [frameAt, pages, update_of_ne other]
  have elsewhere' : ∀ q, q ≠ p → b.loose e.pin q = a.loose e.pin q := by
    intro q other
    simp [loose, elsewhere q other]
  obtain ⟨refs,counts,held,grown⟩ := funded.counted
  refine ⟨⟨refs,counts,fun f => ?_,grown⟩,fun q f pinned => ?_,funded.unwritten⟩
  · obtain ⟨n,most,enough⟩ := held f
    by_cases same : f = g
    · subst same
      rw [count_cons_self] at enough
      refine ⟨n + 1,most.gain p fun q other here => (elsewhere' q other).symm.trans here,?_⟩
      rw [tables]
      omega
    rw [count_cons_of_ne (Ne.symm same)] at enough
    refine ⟨n,most.fewer fun q here => ?_,by rw [tables]; exact enough⟩
    by_cases there : q = p
    · subst there
      simp only [loose, frameAt, pages, update_self] at here
      split at here
      · cases here
      · exact absurd (some.inj here).symm same
    · exact (elsewhere' q there).symm.trans here
  · obtain ⟨there,some⟩ := funded.pinned q f pinned
    refine ⟨?_,some⟩
    rw [elsewhere q, there]
    rintro rfl
    simp only [frameAt, vacant] at there
    cases there

end

section
variable (funded : Funded e a hand s)
include funded

theorem Funded.counts_mapped {refs : PhysFrame → Nat}
    (here : a.frameAt p = some g) (most : AtMost (a.loose e.pin) g n)
    (enough : n + a.tableFrames.count g + hand.count g + e.rest g ≤ refs g) : 0 < refs g := by
  cases pin : e.pin p with
  | some f =>
    obtain ⟨there,_⟩ := funded.pinned p f pin
    obtain rfl := Option.some.inj (here.symm.trans there)
    omega
  | none =>
    have := most.pos (k := p) (by simp [loose, pin, here])
    omega

theorem Funded.allocNone (drawn : allocFrame s = (none, t)) : Funded e a hand t := by
  obtain ⟨refs,counts,held,grown⟩ := funded.counted
  refine ⟨⟨refs,alloc_none counts drawn,held,grown⟩,funded.pinned,?_⟩
  rw [(FrameMemory.allocFrame_none drawn).2]
  exact funded.unwritten

theorem Funded.fresh (drawn : allocFrame s = (some g, t)) :
    (∀ p, a.frameAt p ≠ some g) ∧ e.rest g = 0 ∧ g ∉ hand ∧ g ∉ a.tableFrames := by
  obtain ⟨_,counts,held,_⟩ := funded.counted
  have none := (alloc_some counts drawn).1
  obtain ⟨_,most,enough⟩ := held g
  refine ⟨fun p here => ?_,by omega,?_,?_⟩
  · have := funded.counts_mapped here most enough
    omega
  · exact count_eq_zero.mp (by omega)
  · exact count_eq_zero.mp (by omega)

theorem Funded.allocSome (drawn : allocFrame s = (some g, t)) : Funded e a (g :: hand) t := by
  have nobody := (funded.fresh drawn).2.1
  obtain ⟨_,counts,held,grown⟩ := funded.counted
  obtain ⟨_,counted⟩ := alloc_some counts drawn
  refine ⟨⟨_,counted,fun f => ?_,fun f => ?_⟩,funded.pinned,fun f some => ?_⟩
  · obtain ⟨n,most,enough⟩ := held f
    refine ⟨n,most,?_⟩
    by_cases same : f = g
    · subst same
      rw [update_self, count_cons_self]
      omega
    · rw [update_of_ne same, count_cons_of_ne (Ne.symm same)]
      exact enough
  · by_cases same : f = g
    · subst same
      rw [update_self]
      omega
    · rw [update_of_ne same]
      exact grown f
  · rw [(FrameMemory.allocFrame_some drawn).2, update_of_ne]
    · exact funded.unwritten f some
    · rintro rfl
      omega

theorem Funded.retain (ours : e.given g)
    (held : (∃ p, a.frameAt p = some g) ∨ 0 < e.rest g) (tracked : CountedSource.Tracks s g) :
    Funded e a (g :: hand) (retainFrame s g) := by
  obtain ⟨refs,counts,bound,grown⟩ := funded.counted
  have some : 0 < refs g := by
    obtain ⟨n,most,enough⟩ := bound g
    rcases held with ⟨_,here⟩ | _
    · exact funded.counts_mapped here most enough
    · omega
  refine ⟨⟨_,CountedSource.retain counts some tracked,fun f => ?_,fun f => ?_⟩,funded.pinned,funded.unwritten⟩
  · obtain ⟨n,most,enough⟩ := bound f
    refine ⟨n,most,?_⟩
    by_cases same : f = g
    · subst same
      rw [update_self, count_cons_self]
      omega
    · rw [update_of_ne same, count_cons_of_ne (Ne.symm same)]
      exact enough
  · by_cases same : f = g
    · subst same
      exact .inr ours
    · rw [update_of_ne same]
      exact grown f

theorem Funded.leak (held : ∃ p, a.frameAt p = some g)
    (tracked : CountedSource.Tracks s g) : Funded e a hand (retainFrame s g) := by
  obtain ⟨refs,counts,bound,grown⟩ := funded.counted
  have some : 0 < refs g := by
    obtain ⟨_,most,enough⟩ := bound g
    obtain ⟨_,here⟩ := held
    exact funded.counts_mapped here most enough
  have more := CountedSource.retain counts some tracked
  refine ⟨⟨refs,fewer more fun f => ?_,bound,grown⟩,funded.pinned,funded.unwritten⟩
  by_cases same : f = g
  · subst same
    rw [update_self]
    omega
  · rw [update_of_ne same]

theorem Funded.unmapOk (unpinned : e.pin (va / frameSize) = none)
    (done : a.unmap va = (.ok g, b)) : Funded e b (g :: hand) s := by
  obtain ⟨flags,here⟩ := unmap_ok done
  have pages := pages_of_unmap done
  have tables := tableFrames_of_unmap done
  have fewer : ∀ f p, b.loose e.pin p = some f → a.loose e.pin p = some f := by
    intro f p there
    simp only [loose, frameAt, pages] at there ⊢
    split at there
    · cases there
    rename_i free
    rw [if_neg free]
    split at there
    · cases there
    · exact there
  obtain ⟨refs,counts,held,grown⟩ := funded.counted
  refine ⟨⟨refs,counts,fun f => ?_,grown⟩,fun p f pinned => ?_,funded.unwritten⟩
  · obtain ⟨n,most,enough⟩ := held f
    rw [tables]
    by_cases same : f = g
    · subst same
      have had : a.loose e.pin (va / frameSize) = some f := by
        simp only [loose, unpinned, frameAt]
        rw [show a.pages (va / frameSize) = some (f, flags) from here]
        rfl
      have some := most.pos had
      refine ⟨n - 1,most.lose had ?_ (fewer f),?_⟩
      · simp [loose, frameAt, pages]
      · rw [count_cons_self]
        omega
    · refine ⟨n,most.fewer (fewer f),?_⟩
      rw [count_cons_of_ne (Ne.symm same)]
      exact enough
  · obtain ⟨there,some⟩ := funded.pinned p f pinned
    refine ⟨?_,some⟩
    simp only [frameAt, pages]
    rw [if_neg]
    · exact there
    · rintro rfl
      rw [unpinned] at pinned
      cases pinned

theorem Funded.unmapped (unpinned : e.pin (va / frameSize) = none) : Funded e (a.unmap va).2 hand s := by
  cases done : a.unmap va with
  | mk result =>
    cases result with
    | ok => exact (funded.unmapOk unpinned done).drop
    | error => exact unmap_error done ▸ funded

end

theorem drawTables_room {keys : List Nat} (funded : Funded e a hand s) (room : CountedSource.Room s n)
    (drawn : a.drawTables s keys = (result, b, t)) : CountedSource.Room t n := by
  induction keys generalizing a s with
  | nil =>
    cases drawn
    exact room
  | cons key keys ih =>
    unfold ArchSpace.drawTables at drawn
    obtain ⟨_,counts,_⟩ := funded.counted
    split at drawn
    · exact ih funded room drawn
    split at drawn
    · rename_i empty
      cases drawn
      exact room_alloc counts room empty
    · rename_i got
      exact ih ((funded.allocSome got).addTable key) (room_alloc counts room got) drawn

theorem map_room (funded : Funded e a hand s) (room : CountedSource.Room s n)
    (done : a.map port va g flags s = (result, b, t)) : CountedSource.Room t n := by
  rcases map_parts done with ⟨_,rfl,_⟩ | ⟨_,_,walked,_⟩
  · exact room
  · exact drawTables_room funded room walked

def fundedAccount (e : Backdrop α) : FrameAccount (FrameMemory σ α) where
  Kept := Funded e
  Movable p := e.pin p = none
  Flagged _ := True
  Allows fs s := (∀ f ∈ fs, e.given f ∧ 0 < e.rest f) ∧ CountedSource.Room s fs.length
  perm funded same := funded.perm fun f => (same f).le
  protect funded _ done := funded.congr (protect_frameAt done) (protect_tableFrames done)
  vacant funded none := by
    rename_i a _ _ p
    cases pin : e.pin p with
    | none => rfl
    | some f =>
      have there := (funded.pinned p f pin).1
      simp only [frameAt, none, map_none] at there
      cases there
  allocNone funded drawn := funded.allocNone drawn
  allocSome funded drawn := funded.allocSome drawn
  free funded := funded.free
  retain funded allows := by
    obtain ⟨others,room⟩ := allows
    obtain ⟨ours,held⟩ := others _ mem_cons_self
    refine ⟨funded.retain ours (Or.inr held) (room_tracks _ room),?_,room_retain _ room⟩
    exact fun f member => others f (mem_cons_of_mem _ member)
  allowed funded allows drawn := by
    obtain ⟨refs,counts,_⟩ := funded.counted
    exact ⟨allows.1,room_alloc counts allows.2 drawn⟩
  addTable key funded := funded.addTable key
  install funded vacant pages tables := funded.install vacant pages tables
  unmap funded unpinned done := funded.unmapOk unpinned done

end ArchSpace

end Tessera
