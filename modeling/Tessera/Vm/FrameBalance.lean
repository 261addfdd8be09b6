import Tessera.Lib.Tally
import Tessera.Memory.FrameLedger
import Tessera.Vm.FrameAccount

/-!
The balance of a space: of every frame, the references taken are those given back, those
handed on to somebody else, and those the space still has in its pages, its tables and
its hands. Taking a range down without giving its frames back is the one operation that
hands references on.
-/
namespace Tessera
open ArchSpace List AddressSpace FrameLedger
open Tally

section
variable {σ : Type}

def Balanced (gone : List PhysFrame) (a : ArchSpace) (hand : List PhysFrame) (l : FrameLedger σ) : Prop :=
  ∀ f, ∃ n, Exactly a.frameAt f n ∧ l.taken f = l.returned f + gone.count f + n + a.tableFrames.count f + hand.count f

variable [FrameSource σ] {gone hand : List PhysFrame} {a b : ArchSpace} {l m : FrameLedger σ} {g : PhysFrame}

theorem count_head (g : PhysFrame) (hand : List PhysFrame) (f : PhysFrame) :
    (g :: hand).count f = [g].count f + hand.count f := by
  rw [← singleton_append, count_append]

theorem Balanced.retain (balanced : Balanced gone a hand l) (g : PhysFrame) :
    Balanced gone a (g :: hand) (FrameSource.retainFrame l g) := by
  intro f
  obtain ⟨n,exactly,_⟩ := balanced f
  obtain ⟨_,_⟩ := taken_retain l g f
  have head := count_head g hand f
  exact ⟨n,exactly,by omega⟩

section
omit [FrameSource σ]

theorem Balanced.install (balanced : Balanced gone a (g :: hand) l)
    (vacant : a.pages p = none) (pages : b.pages = Function.update a.pages p (some (g, flags)))
    (tables : b.tableFrames = a.tableFrames) : Balanced gone b hand l := by
  intro f
  obtain ⟨n,exactly,equal⟩ := balanced f
  have before : a.frameAt p = none := by rw [frameAt, vacant]; rfl
  have here : b.frameAt p = some g := by rw [frameAt, pages, Function.update_self]; rfl
  have others : ∀ q, q ≠ p → b.frameAt q = a.frameAt q := by
    intro q other
    rw [frameAt, frameAt, pages, Function.update_of_ne other]
  rw [tables]
  by_cases same : g = f
  · subst same
    rw [count_cons_self] at equal
    exact ⟨n + 1,exactly.gain (by rw [before]; simp) here others,by omega⟩
  rw [count_cons_of_ne same] at equal
  refine ⟨n,exactly.congr fun q => ?_,equal⟩
  by_cases there : q = p
  · subst there
    rw [here, before]
    constructor
    · intro is
      exact absurd (Option.some.inj is) same
    · simp
  · rw [others q there]

theorem Balanced.unmap (balanced : Balanced gone a hand l) (done : a.unmap va = (.ok g, b)) :
    Balanced gone b (g :: hand) l := by
  obtain ⟨flags,there⟩ := unmap_ok done
  have before : a.frameAt (va / frameSize) = some g := by
    rw [frameAt, show a.pages (va / frameSize) = some (g, flags) from there]
    rfl
  have pages := pages_of_unmap done
  have tables := tableFrames_of_unmap done
  have after : b.frameAt (va / frameSize) = none := by rw [frameAt, pages, if_pos rfl]; rfl
  have others : ∀ q, q ≠ va / frameSize → b.frameAt q = a.frameAt q := by
    intro q other
    rw [frameAt, frameAt, pages, if_neg other]
  intro f
  obtain ⟨n,exactly,equal⟩ := balanced f
  rw [tables]
  by_cases same : g = f
  · subst same
    obtain ⟨m,rfl,fewer⟩ := exactly.lose before (by rw [after]; simp) others
    rw [count_cons_self]
    exact ⟨m,fewer,by omega⟩
  rw [count_cons_of_ne same]
  refine ⟨n,exactly.congr fun q => ?_,equal⟩
  by_cases here : q = va / frameSize
  · subst here
    rw [after, before]
    constructor
    · simp
    · intro is
      exact absurd (Option.some.inj is) same
  · rw [others q here]

theorem Balanced.addTable (key : Nat) (balanced : Balanced gone a (g :: hand) l) :
    Balanced gone { a with tables := (key, g) :: a.tables } hand l := by
  intro f
  obtain ⟨n,exactly,equal⟩ := balanced f
  refine ⟨n,exactly,?_⟩
  simp only [tableFrames, map_cons, count_cons, beq_iff_eq] at equal ⊢
  omega

end

def balanceAccount (gone : List PhysFrame) : FrameAccount (FrameLedger σ) where
  Kept := Balanced gone
  Movable _ := True
  Flagged _ := True
  Allows _ _ := True
  perm balanced same f := by
    obtain ⟨n,exactly,equal⟩ := balanced f
    exact ⟨n,exactly,by rw [same]; exact equal⟩
  protect balanced _ done f := by
    obtain ⟨n,exactly,equal⟩ := balanced f
    rw [protect_frameAt done, protect_tableFrames done]
    exact ⟨n,exactly,equal⟩
  vacant _ _ := trivial
  allocNone balanced drawn f := by
    obtain ⟨n,exactly,equal⟩ := balanced f
    obtain ⟨taken,returned⟩ := taken_alloc_none drawn f
    exact ⟨n,exactly,by omega⟩
  allocSome {_ hand _ _ g} balanced drawn f := by
    obtain ⟨n,exactly,equal⟩ := balanced f
    obtain ⟨taken,returned⟩ := taken_alloc_some drawn f
    have head := count_head g hand f
    exact ⟨n,exactly,by omega⟩
  free {_ hand s g} balanced f := by
    obtain ⟨n,exactly,equal⟩ := balanced f
    obtain ⟨taken,returned⟩ := taken_free s g f
    have head := count_head g hand f
    exact ⟨n,exactly,by omega⟩
  retain balanced _ := ⟨balanced.retain _,trivial⟩
  allowed _ _ _ := trivial
  addTable key balanced := balanced.addTable key
  install balanced vacant pages tables := balanced.install vacant pages tables
  unmap balanced _ done := balanced.unmap done

section
omit [FrameSource σ]

theorem Balanced.passOn (balanced : Balanced gone a (g :: hand) l) : Balanced (gone ++ [g]) a hand l := by
  intro f
  obtain ⟨n,exactly,_⟩ := balanced f
  refine ⟨n,exactly,?_⟩
  have head := count_head g hand f
  rw [count_append]
  omega

theorem Balanced.nothing (balanced : Balanced gone a hand l) : Balanced (gone ++ []) a hand l := by
  rwa [append_nil]

end

theorem freeAll_counts (l : FrameLedger σ) (frames : List PhysFrame) (f : PhysFrame) :
    (freeAll l frames).taken f = l.taken f ∧ (freeAll l frames).returned f = l.returned f + frames.count f := by
  induction frames generalizing l with
  | nil => exact ⟨rfl,rfl⟩
  | cons g frames ih =>
    obtain ⟨taken,returned⟩ := ih (FrameSource.freeFrame l g)
    obtain ⟨taken',_⟩ := taken_free l g f
    have head := count_head g frames f
    exact ⟨taken.trans taken',returned.trans (by omega)⟩

def ArchSpace.commonTables (port : ArchPort) (a : ArchSpace) : List PhysFrame :=
  (a.tables.filter (!port.owned ·.1)).map Prod.snd

theorem Balanced.freeTables (balanced : Balanced gone a [] l) (empty : ∀ p, a.pages p = none)
    (f : PhysFrame) : (a.freeTables port l).taken f =
      (a.freeTables port l).returned f + (gone ++ a.commonTables port).count f := by
  obtain ⟨n,exactly,equal⟩ := balanced f
  have none : n = 0 := exactly.eq_zero fun _ => by
    rw [frameAt, empty]
    simp
  rw [freeTables_eq]
  obtain ⟨_,returned⟩ :=
    freeAll_counts l ((a.tables.filter (port.owned ·.1)).map Prod.snd ++ [a.root]) f
  have parts := (filter_append_perm (fun t : Nat × PhysFrame => port.owned t.1) a.tables).map Prod.snd
  have counts := parts.count_eq f
  rw [map_append, count_append] at counts
  simp only [tableFrames, count_cons, count_nil] at equal
  rw [returned, count_append, count_append, commonTables, count_cons, count_nil]
  omega

namespace AddressSpace
variable {cfg : Config} {port : ArchPort} {sp sp' : AddressSpace cfg} {l' : FrameLedger σ}

def leadingFrames (sp : AddressSpace cfg) (base : Nat) : (pages i : Nat) → List PhysFrame
  | 0, _ => []
  | pages + 1, i =>
    match sp.arch.translate (pageAt base i) with
    | .none => []
    | .some (frame, _) => frame :: sp.leadingFrames base pages (i + 1)

theorem leadingFrames_congr {base pages i : Nat}
    (same : ∀ j, i ≤ j → sp'.arch.translate (pageAt base j) = sp.arch.translate (pageAt base j)) :
    sp'.leadingFrames base pages i = sp.leadingFrames base pages i := by
  induction pages generalizing i with
  | zero => rfl
  | succ pages ih =>
    unfold leadingFrames
    rw [same i (Nat.le_refl i), ih fun j _ => same j (by omega)]

omit [FrameSource σ] in
theorem unmapPages_balanced {base pages i : Nat} (balanced : Balanced gone sp.arch [] l)
    (done : sp.unmapPages base pages i = (result, sp')) :
    Balanced (gone ++ sp.leadingFrames base pages i) sp'.arch [] l := by
  induction pages generalizing sp i gone with
  | zero =>
    cases done
    rwa [leadingFrames, append_nil]
  | succ pages ih =>
    unfold unmapPages at done
    unfold leadingFrames
    split at done
    · rename_i failed
      obtain ⟨_,rfl⟩ := Prod.mk.inj done
      cases there : sp.arch.translate (pageAt base i) with
      | none => rwa [append_nil]
      | some =>
        rw [ArchSpace.unmap, there] at failed
        cases failed
    · rename_i arch unmapped
      obtain ⟨_,there⟩ := unmap_ok unmapped
      rw [there]
      have rest := ih (balanced.unmap unmapped).passOn done
      rw [append_assoc] at rest
      have later : (sp.setArch arch).leadingFrames base pages (i + 1) = sp.leadingFrames base pages (i + 1) := by
        refine leadingFrames_congr fun _ _ => ?_
        exact (pages_of_unmap unmapped _).trans (if_neg fun same => by have := pageAt_div_inj same; omega)
      rw [later] at rest
      exact rest

end AddressSpace

end
end Tessera
