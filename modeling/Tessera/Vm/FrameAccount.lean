import Tessera.Vm.PageEffects

/-!
Accounts of the frames a space refers to. A page, a page table and what an operation has
in its hands are each a reference. An account is any relation between these references
and a frame source that survives what an operation does one step at a time: a reference
is drawn, added, given back, or passes between the hand, the tables and the pages. Every
operation of a space keeps an account, because it is made of such steps on every way out.
-/
namespace Tessera
open List Option AddressSpace ArchSpace FrameSource Function Prod
variable {τ : Type} {port : ArchPort} {a b : ArchSpace} {s t : τ} {g : PhysFrame} {result : Except KError Unit}
  {cfg : Config}

namespace ArchSpace

def frameAt (a : ArchSpace) (p : Nat) : Option PhysFrame := (a.pages p).map fst

def tableFrames (a : ArchSpace) : List PhysFrame := a.root :: a.tables.map snd

variable {va : Nat} {flags : PageFlags}

theorem tableFrames_of_unmap (done : a.unmap va = (.ok g, b)) : b.tableFrames = a.tableFrames := by
  obtain ⟨tables,root⟩ := unmap_tables a va
  rw [done] at tables root
  simp [tableFrames, ← tables, ← root]

variable [FrameSource τ]

theorem map_parts (done : a.map port va g flags s = (result, b, t)) : (a = b ∧ s = t ∧ ∃ e, result = .error e) ∨
      ∃ drawn mid, a.drawTables s (port.walk va) = (drawn, mid, t) ∧ ((∃ e, result = .error e) ∧ b = mid ∨
          result = .ok () ∧ b = { mid with pages := update mid.pages (va / frameSize) (some (g, flags)) } ∧
            mid.pages (va / frameSize) = none) := by
  unfold map at done
  split at done
  · cases done
    exact .inl ⟨rfl,rfl,_,rfl⟩
  split at done
  · cases done
    exact .inl ⟨rfl,rfl,_,rfl⟩
  split at done
  · cases done
    exact .inl ⟨rfl,rfl,_,rfl⟩
  split at done
  · rename_i walked
    cases done
    exact .inr ⟨_,_,walked,Or.inl ⟨⟨_,rfl⟩,rfl⟩⟩
  rename_i walked
  split at done
  · cases done
    exact .inr ⟨_,_,walked,Or.inl ⟨⟨_,rfl⟩,rfl⟩⟩
  rename_i vacant
  cases done
  exact .inr ⟨_,_,walked,Or.inr ⟨rfl,rfl,vacant⟩⟩

section
omit [FrameSource τ]

theorem protect_frameAt (done : a.protect port va flags = (result, b)) : b.frameAt = a.frameAt := by
  funext p
  rcases protect_pages done with ⟨_,_,frame,old,here,pages⟩ | ⟨_,rfl⟩
  · by_cases same : p = va / frameSize
    · subst same
      simp only [frameAt, pages, update_self]
      rw [show a.pages (va / frameSize) = some (frame, old) from here]
      rfl
    · simp [frameAt, pages, update_of_ne same]
  · rfl

theorem protect_tableFrames (done : a.protect port va flags = (result, b)) : b.tableFrames = a.tableFrames := by
  have tables := protect_tables done
  simp [tableFrames, tables.1, tables.2]

end

end ArchSpace

namespace AddressSpace

theorem recordMapped_arch (sp : AddressSpace cfg) (base len : Nat) (rights : PageFlags) (backing : Backing) :
    (sp.recordMapped base len rights backing).arch = sp.arch := by
  unfold recordMapped record
  split <;> rfl

theorem record_arch (sp : AddressSpace cfg) (base len : Nat) (rights : PageFlags) (backing : Backing) :
    (sp.record base len rights backing).arch = sp.arch := by
  unfold record
  split <;> rfl

theorem freeTables_eq {τ : Type} [FrameSource τ] (a : ArchSpace) (source : τ) :
    a.freeTables port source = freeAll source ((a.tables.filter (port.owned ·.1)).map snd ++ [a.root]) := by
  simp [freeTables, freeAll, List.foldl_map, List.foldl_cons, List.foldl_nil]

theorem teardownSlot_cell {τ : Type} [FrameSource τ] {sp sp' : AddressSpace cfg} {source source' : τ}
    (done : sp.teardownSlot source idx = (sp', source')) (j : Nat) :
    sp'.mappings.cell j = if j = idx then none else sp.mappings.cell j := by
  unfold teardownSlot at done
  split at done
  · rename_i empty
    cases done
    split
    · rename_i same
      rw [same, empty]
    · rfl
  split at done
  rename_i mid _ loop
  cases done
  have touched : Touches .x8664 (fun _ => True) (sp.dropRecord idx) mid :=
    (unmapAndFree_edits (fun _ _ _ => trivial) loop).touches
  rw [show mid.mappings = sp.mappings.clear idx from touched.mappings, Slots.cell_clear]
  simp [eq_comm]

end AddressSpace

/-- A relation between the references of a space and a frame source, with the steps it
    survives. Only pages that are `Movable` may be taken down, only those that are
    `Flagged` may change their flags, and references are added only to frames the account
    `Allows`. -/
structure FrameAccount (τ : Type) [FrameSource τ] where
  Kept : ArchSpace → List PhysFrame → τ → Prop
  Movable : Nat → Prop
  Flagged : Nat → Prop
  Allows : List PhysFrame → τ → Prop
  perm {a : ArchSpace} {hand hand' : List PhysFrame} {s : τ} : Kept a hand s →
    (∀ f, hand'.count f = hand.count f) → Kept a hand' s
  protect {a b : ArchSpace} {hand : List PhysFrame} {s : τ} {port : ArchPort} {va : Nat} {flags : PageFlags}
    {result : Except KError Unit} : Kept a hand s → Flagged (va / frameSize) →
    a.protect port va flags = (result, b) → Kept b hand s
  vacant {a : ArchSpace} {hand : List PhysFrame} {s : τ} {p : Nat} : Kept a hand s → a.pages p = none → Movable p
  allocNone {a : ArchSpace} {hand : List PhysFrame} {s t : τ} : Kept a hand s →
    allocFrame s = (none, t) → Kept a hand t
  allocSome {a : ArchSpace} {hand : List PhysFrame} {s t : τ} {g : PhysFrame} : Kept a hand s →
    allocFrame s = (some g, t) → Kept a (g :: hand) t
  free {a : ArchSpace} {hand : List PhysFrame} {s : τ} {g : PhysFrame} : Kept a (g :: hand) s →
    Kept a hand (freeFrame s g)
  retain {a : ArchSpace} {hand fs : List PhysFrame} {s : τ} {g : PhysFrame} : Kept a hand s → Allows (g :: fs) s →
    Kept a (g :: hand) (retainFrame s g) ∧ Allows fs (retainFrame s g)
  allowed {a : ArchSpace} {hand fs : List PhysFrame} {s t : τ} {r : Option PhysFrame} : Kept a hand s →
    Allows fs s → allocFrame s = (r, t) → Allows fs t
  addTable {a : ArchSpace} {hand : List PhysFrame} {s : τ} {g : PhysFrame} (key : Nat) : Kept a (g :: hand) s →
    Kept { a with tables := (key, g) :: a.tables } hand s
  install {a b : ArchSpace} {hand : List PhysFrame} {s : τ} {g : PhysFrame} {p : Nat} {flags : PageFlags} :
    Kept a (g :: hand) s → a.pages p = none → b.pages = update a.pages p (some (g, flags)) →
    b.tableFrames = a.tableFrames → Kept b hand s
  unmap {a b : ArchSpace} {hand : List PhysFrame} {s : τ} {g : PhysFrame} {va : Nat} : Kept a hand s →
    Movable (va / frameSize) → a.unmap va = (.ok g, b) → Kept b (g :: hand) s

namespace FrameAccount
open AddressSpace
variable [FrameSource τ] (acc : FrameAccount τ) {hand : List PhysFrame} {sp sp' : AddressSpace cfg}
  {source source' : τ}

variable {keys : List Nat} {fs frames : List PhysFrame} {va base pages i page len : Nat} {flags rights : PageFlags}
  {out : FaultOutcome}

section
variable (kept : acc.Kept a hand s)
include kept

theorem drawTables (drawn : a.drawTables s keys = (result, b, t)) : acc.Kept b hand t := by
  induction keys generalizing a s with
  | nil =>
    cases drawn
    exact kept
  | cons key keys ih =>
    unfold drawTables at drawn
    split at drawn
    · exact ih kept drawn
    split at drawn
    · rename_i empty
      cases drawn
      exact acc.allocNone kept empty
    · rename_i got
      exact ih (acc.addTable key (acc.allocSome kept got)) drawn

theorem allows_drawTables (allows : acc.Allows fs s)
    (drawn : a.drawTables s keys = (result, b, t)) : acc.Allows fs t := by
  induction keys generalizing a s with
  | nil =>
    cases drawn
    exact allows
  | cons key keys ih =>
    unfold ArchSpace.drawTables at drawn
    split at drawn
    · exact ih kept allows drawn
    split at drawn
    · rename_i empty
      cases drawn
      exact acc.allowed kept allows empty
    · rename_i got
      exact ih (acc.addTable key (acc.allocSome kept got)) (acc.allowed kept allows got) drawn

theorem allows_map (allows : acc.Allows fs s)
    (done : a.map port va g flags s = (result, b, t)) : acc.Allows fs t := by
  rcases map_parts done with ⟨_,rfl,_⟩ | ⟨_,_,walked,_⟩
  · exact allows
  · exact acc.allows_drawTables kept allows walked

theorem movable_of_map (done : a.map port va g flags s = (.ok (), b, t)) : acc.Movable (va / frameSize) := by
  rcases map_parts done with ⟨_,_,_,failed⟩ | ⟨_,_,walked,⟨⟨_,failed⟩,_⟩ | ⟨_,_,vacant⟩⟩
  · cases failed
  · cases failed
  · exact acc.vacant (acc.drawTables kept walked) vacant

end

theorem mapOk (kept : acc.Kept a (g :: hand) s) (done : a.map port va g flags s = (.ok (), b, t)) :
    acc.Kept b hand t := by
  rcases map_parts done with ⟨_,_,_,failed⟩ | ⟨_,_,walked,⟨⟨_,failed⟩,_⟩ | ⟨_,rfl,vacant⟩⟩
  · cases failed
  · cases failed
  · exact acc.install (acc.drawTables kept walked) vacant rfl rfl

theorem mapError (kept : acc.Kept a hand s)
    (done : a.map port va g flags s = (.error err, b, t)) : acc.Kept b hand t := by
  rcases map_parts done with ⟨rfl,rfl,_⟩ | ⟨_,_,walked,⟨_,rfl⟩ | ⟨ok,_⟩⟩
  · exact kept
  · exact acc.drawTables kept walked
  · cases ok

theorem freeAll (kept : acc.Kept a (frames ++ more) source) : acc.Kept a more (freeAll source frames) := by
  induction frames generalizing source with
  | nil => exact kept
  | cons frame frames ih => exact ih (acc.free kept)

theorem unmapAndFree (kept : acc.Kept sp.arch batch source) (movable : Holds acc.Movable base i pages)
    (done : sp.unmapAndFree base source pages i batch reclaimed = (r, sp', source')) :
    acc.Kept sp'.arch [] source' := by
  induction pages generalizing sp source i batch reclaimed with
  | zero =>
    cases done
    refine acc.freeAll ?_
    rwa [append_nil]
  | succ pages ih =>
    unfold unmapAndFree at done
    split at done
    · exact ih kept movable.tail done
    rename_i frame arch unmapped
    have taken : acc.Kept arch (batch ++ [frame]) source :=
      acc.perm (acc.unmap kept movable.head unmapped) fun f => by simp [count_cons]
    split at done
    · have released : acc.Kept arch [] (AddressSpace.freeAll source (batch ++ [frame])) :=
        acc.freeAll (by rwa [append_nil])
      exact ih released movable.tail done
    · exact ih taken movable.tail done

theorem rollback (kept : acc.Kept sp.arch [] source) (movable : Holds acc.Movable base 0 n)
    (done : sp.rollback base n source = (sp', source')) : acc.Kept sp'.arch [] source' := by
  have loop : sp.unmapAndFree base source n 0 [] 0 = (_, sp', source') := Prod.ext rfl done
  exact acc.unmapAndFree kept movable loop

/-- The page loop of a snapshot. Where it fails it has a reference in its hand that it
    gives to nobody. -/
theorem snapshotPages (kept : acc.Kept sp.arch [] source)
    (flagged : Holds acc.Flagged src i pages) (allows : ∀ fs s, acc.Allows fs s) (movable : Holds acc.Movable dst 0 i)
    (loses : result ≠ .ok () → ∀ a g s, acc.Kept a [g] s → acc.Kept a [] s)
    (done : sp.snapshotPages port src dst ro source pages i = (result, sp', source')) :
    acc.Kept sp'.arch [] source' ∧ (result = .ok () → Holds acc.Movable dst 0 (i + pages)) := by
  induction pages generalizing sp source i with
  | zero =>
    cases done
    exact ⟨kept,fun _ => movable⟩
  | succ pages ih =>
    unfold snapshotPages at done
    split at done
    · cases done
      exact ⟨kept,by simp⟩
    rename_i frame _ _
    have retained := (acc.retain kept (allows [frame] source)).1
    split at done
    · cases done
      exact ⟨loses (by simp) _ _ _ retained,by simp⟩
    rename_i changed
    have reflagged := acc.protect retained flagged.head changed
    split at done
    · rename_i mapped
      cases done
      exact ⟨loses (by simp) _ _ _ (acc.mapError reflagged mapped),by simp⟩
    rename_i mapped
    have rest := ih (acc.mapOk reflagged mapped) flagged.tail (movable.snoc (acc.movable_of_map reflagged mapped)) done
    rwa [Nat.add_right_comm] at rest

theorem mapLazy (kept : acc.Kept sp.arch [] source)
    (done : sp.mapLazy port base len rights backing = (result, sp')) : acc.Kept sp'.arch [] source := by
  rcases mapLazy_cases done with rfl | ⟨_,rfl⟩
  · exact kept
  · rwa [record_arch]

theorem installRetained (retained : acc.Kept sp.arch [frame] (retainFrame source frame))
    (done : sp.installObjectPage port va frame source = (result, sp', source')) : acc.Kept sp'.arch [] source' := by
  rcases installObjectPage_cases done with ⟨rfl,rfl⟩ |
    ⟨m,arch,rest,_,mapped,⟨⟨_,rfl⟩,rfl,rfl⟩ | ⟨rfl,rfl,rfl⟩⟩
  · exact acc.free retained
  · exact acc.free (acc.mapError retained mapped)
  · exact acc.mapOk retained mapped

theorem reflag (flags : PageFlags → PageFlags) (kept : acc.Kept sp.arch [] source)
    (flagged : (sp.mappingCovering va).isSome = true → acc.Flagged (va / frameSize))
    (done : sp.reflag port va flags = (result, sp')) : acc.Kept sp'.arch [] source := by
  rcases reflag_cases done with rfl | ⟨_,_,found,changed,rfl⟩
  · exact kept
  · exact acc.protect kept (by rw [alignDown_div]; exact flagged (isSome_of_eq_some found)) changed

section
variable (kept : acc.Kept sp.arch [] source)
include kept

theorem fillPages (movable : Holds acc.Movable base 0 i)
    (done : sp.fillPages port base rights source pages i = (result, sp', source')) :
    acc.Kept sp'.arch [] source' ∧ (result = .ok () → Holds acc.Movable base 0 (i + pages)) := by
  induction pages generalizing sp source i with
  | zero =>
    cases done
    exact ⟨kept,fun _ => movable⟩
  | succ pages ih =>
    unfold AddressSpace.fillPages at done
    split at done
    · rename_i empty
      obtain ⟨rfl,rolled⟩ := Prod.mk.inj done
      exact ⟨acc.rollback (acc.allocNone kept empty) movable rolled,by simp⟩
    rename_i drawn
    have held := acc.allocSome kept drawn
    split at done
    · rename_i mapped
      obtain ⟨rfl,rolled⟩ := Prod.mk.inj done
      exact ⟨acc.rollback (acc.free (acc.mapError held mapped)) movable rolled,by simp⟩
    rename_i mapped
    have rest := ih (acc.mapOk held mapped) (movable.snoc (acc.movable_of_map held mapped)) done
    rwa [Nat.add_right_comm] at rest

/-- A half-made shared mapping is taken down: every page still maps the frame that is
    given back for it. -/
theorem unmapAndRelease (movable : Holds acc.Movable base page frames.length)
    (there : ∀ j f, frames[j]? = some f → sp.arch.frameAt (pageAt base (page + j) / frameSize) = some f)
    (done : sp.unmapAndRelease base source page frames = (sp', source')) : acc.Kept sp'.arch [] source' := by
  induction frames generalizing sp source page with
  | nil =>
    cases done
    exact kept
  | cons frame frames ih =>
    obtain ⟨⟨f,flags⟩,entry,same⟩ := map_eq_some_iff.mp (there 0 frame rfl)
    subst same
    have unmapped : sp.arch.unmap (pageAt base page) = (.ok f, (sp.arch.unmap (pageAt base page)).2) := by
      unfold ArchSpace.unmap
      rw [show sp.arch.translate (pageAt base page) = some (f, flags) from entry]
    refine ih (acc.free (acc.unmap kept movable.head unmapped)) movable.tail (fun j g mem => ?_) done
    have still := there (j + 1) g mem
    rw [show page + (j + 1) = page + 1 + j by omega] at still
    simp only [frameAt, setArch_arch, unmap_pages]
    rw [if_neg]
    · exact still
    · intro same
      have := pageAt_div_inj same
      omega

theorem protectPages (flagged : Holds acc.Flagged base i pages)
    (done : sp.protectPages port base rights pages i = (result, sp')) : acc.Kept sp'.arch [] source := by
  induction pages generalizing sp i with
  | zero =>
    cases done
    exact kept
  | succ pages ih =>
    unfold protectPages at done
    split at done
    · cases done
      exact kept
    · rename_i changed
      exact ih (acc.protect kept flagged.head changed) flagged.tail done

theorem mapAnonymous (done : sp.mapAnonymous port base len rights source = (result, sp', source')) :
    acc.Kept sp'.arch [] source' := by
  rcases mapAnonymous_cases done with ⟨rfl,rfl⟩ | ⟨_,_,filled,⟨_,rfl⟩ | ⟨_,rfl⟩⟩
  · exact kept
  · exact (acc.fillPages kept .none filled).1
  · rw [recordMapped_arch]
    exact (acc.fillPages kept .none filled).1

theorem evictPage (movable : acc.Movable (va / frameSize))
    (done : sp.evictPage va source = (result, sp', source')) : acc.Kept sp'.arch [] source' := by
  rcases evictPage_cases done with ⟨rfl,rfl⟩ | ⟨_,_,unmapped,rfl,rfl⟩
  · exact kept
  · exact acc.free (acc.unmap kept (by rwa [alignDown_div]) unmapped)

theorem demandFill (done : sp.demandFill port page rights source = (out, sp', source')) :
    acc.Kept sp'.arch [] source' := by
  rcases demandFill_cases done with ⟨rfl,empty⟩ |
    ⟨frame,drawn,arch,rest,result,got,mapped,⟨⟨_,rfl⟩,rfl,rfl⟩ | ⟨rfl,rfl,rfl⟩⟩
  · exact acc.allocNone kept empty
  · exact acc.free (acc.mapError (acc.allocSome kept got) mapped)
  · exact acc.mapOk (acc.allocSome kept got) mapped

end

theorem sharePages (kept : acc.Kept sp.arch [] source)
    (allows : acc.Allows frames source) (movable : Holds acc.Movable base 0 made.length)
    (there : ∀ j f, made[j]? = some f → sp.arch.frameAt (pageAt base j / frameSize) = some f)
    (done : sp.sharePages port base rights source made frames = (result, sp', source')) :
    acc.Kept sp'.arch [] source' ∧ (result = .ok () → Holds acc.Movable base 0 (made.length + frames.length)) := by
  induction frames generalizing sp source made with
  | nil =>
    cases done
    exact ⟨kept,fun _ => movable⟩
  | cons frame frames ih =>
    obtain ⟨retained,allows⟩ := acc.retain kept allows
    unfold AddressSpace.sharePages at done
    split at done
    · rename_i mapped
      obtain ⟨rfl,released⟩ := Prod.mk.inj done
      refine ⟨acc.unmapAndRelease (acc.free (acc.mapError retained mapped)) movable (fun j f mem => ?_) released,nofun⟩
      rw [Nat.zero_add]
      have still := there j f mem
      simp only [ArchSpace.frameAt, setArch_arch] at still ⊢
      rw [ArchSpace.map_kept mapped]
      · exact still
      · intro missing
        rw [missing] at still
        cases still
    · rename_i mapped
      have longer : (made ++ [frame]).length + frames.length = made.length + (frame :: frames).length := by
        rw [length_append, length_singleton, length_cons, Nat.add_assoc, Nat.add_comm 1]
      rw [← longer]
      refine ih (acc.mapOk retained mapped) (acc.allows_map retained allows mapped)
        (by rw [length_append]; exact movable.snoc (acc.movable_of_map retained mapped)) (fun j f mem => ?_) done
      rcases Nat.lt_or_ge j made.length with earlier | _
      · rw [getElem?_append_left earlier] at mem
        have still := there j f mem
        simp only [ArchSpace.frameAt, setArch_arch] at still ⊢
        rw [ArchSpace.map_kept mapped]
        · exact still
        · intro missing
          rw [missing] at still
          cases still
      · have bound := (List.getElem?_eq_some_iff.mp mem).1
        rw [length_append, length_singleton] at bound
        obtain rfl : j = made.length := by omega
        rw [getElem?_append_right (Nat.le_refl _), Nat.sub_self] at mem
        cases mem
        rcases ArchSpace.map_cases mapped with added | failed
        · simp only [ArchSpace.frameAt, setArch_arch]
          rw [added.2.2.2.2, Function.update_self]
          rfl
        · obtain ⟨⟨_,contra⟩,_⟩ := failed
          cases contra

theorem mapShared (kept : acc.Kept sp.arch [] source) (allows : acc.Allows frames source)
    (done : sp.mapShared port base rights obj baseOffset frames source = (result, sp', source')) :
    acc.Kept sp'.arch [] source' := by
  have empty : ∀ j f, ([] : List PhysFrame)[j]? = some f → sp.arch.frameAt (pageAt base j / frameSize) = some f := by
    intro _ _ mem
    cases mem
  rcases mapShared_cases done with ⟨rfl,rfl⟩ | ⟨_,_,shared,⟨_,rfl⟩ | ⟨_,rfl⟩⟩
  · exact kept
  · exact (acc.sharePages kept allows .none empty shared).1
  · rw [recordMapped_arch]
    exact (acc.sharePages kept allows .none empty shared).1

/-- A copy that cannot be put in its place leaves the account, although the reference to
    the shared frame is then in nobody's hand. -/
def Forgives (port : ArchPort) (sp : AddressSpace cfg) (page : Nat) (rights : PageFlags) : Prop :=
  ∀ shared priv arch arch' mid source err, sp.arch.unmap page = (.ok shared, arch) →
    arch.map port page priv rights mid = (.error err, arch', source) → acc.Kept arch' [shared, priv] source →
    acc.Kept arch' [priv] source

section
variable (kept : acc.Kept sp.arch [] source)
include kept

theorem cowCopy (movable : acc.Movable (page / frameSize)) (forgives : acc.Forgives port sp page rights)
    (done : sp.cowCopy port page rights source = (out, sp', source')) : acc.Kept sp'.arch [] source' := by
  rcases cowCopy_ends done with ⟨_,rfl,rfl | empty⟩ | ⟨shared,_,priv,_,arch,_,_,_,_,drawn,unmapped,mapped,rfl,ends⟩
  · exact kept
  · exact acc.allocNone kept empty
  have taken := acc.unmap (acc.allocSome kept drawn) movable unmapped
  rcases ends with ⟨⟨_,rfl⟩,_,rfl⟩ | ⟨rfl,_,rfl⟩
  · exact acc.free (forgives _ _ _ _ _ _ _ unmapped mapped (acc.mapError taken mapped))
  have swapped : acc.Kept arch [priv, shared] _ :=
    acc.perm taken fun f => by simp [count_cons, Nat.add_comm]
  exact acc.free (acc.mapOk swapped mapped)

theorem reclaimRange (movable : (sp.findExact base len).isSome = true → Holds acc.Movable base 0 (len / frameSize))
    (done : sp.reclaimRange base len source = (result, sp', source')) : acc.Kept sp'.arch [] source' := by
  rcases reclaimRange_cases done with ⟨rfl,rfl⟩ | ⟨_,_,_,found,loop,rfl⟩
  · exact kept
  · have inner := acc.unmapAndFree kept (movable (isSome_of_eq_some found)) loop
    exact inner

theorem protectRange (flagged : (sp.findExact base len).isSome = true → Holds acc.Flagged base 0 (len / frameSize))
    (done : sp.protectRange port base len rights = (result, sp')) : acc.Kept sp'.arch [] source := by
  rcases protectRange_cases done with rfl | ⟨_,_,_,found,changed,⟨_,rfl⟩ | ⟨_,rfl⟩⟩
  · exact kept
  · exact acc.protectPages kept (flagged (isSome_of_eq_some found)) changed
  · have inner := acc.protectPages kept (flagged (isSome_of_eq_some found)) changed
    exact inner

end

theorem resolveFault (kept : acc.Kept sp.arch [] source)
    (movable : (sp.mappingCovering virt).isSome = true → acc.Movable (virt / frameSize))
    (forgives : ∀ m, sp.mappingCovering virt = some m → m.backing = .cow →
      acc.Forgives port sp (alignDown virt) m.rights)
    (done : sp.resolveFault port virt write source = (out, sp', source')) : acc.Kept sp'.arch [] source' := by
  rcases resolveFault_cases done with ⟨_,rfl,rfl⟩ | ⟨m,found,⟨_,_,filled⟩ | ⟨cow,_,copied⟩⟩
  · exact kept
  · exact acc.demandFill kept filled
  · refine acc.cowCopy kept ?_ (forgives m found cow) copied
    rw [alignDown_div]
    exact movable (isSome_of_eq_some found)

theorem teardownSlot (kept : acc.Kept sp.arch [] source)
    (movable : ∀ m, sp.mappings.cell idx = some m → Holds acc.Movable m.base 0 (m.len / frameSize))
    (done : sp.teardownSlot source idx = (sp', source')) : acc.Kept sp'.arch [] source' := by
  unfold AddressSpace.teardownSlot at done
  split at done
  · cases done
    exact kept
  rename_i m cell
  split at done
  rename_i loop
  cases done
  have start : acc.Kept (sp.dropRecord idx).arch [] source := kept
  have inner := acc.unmapAndFree start (movable m cell) loop
  exact inner

theorem teardownSlots (idxs : List Nat) (kept : acc.Kept sp.arch [] source)
    (movable : ∀ i m, sp.mappings.cell i = some m → Holds acc.Movable m.base 0 (m.len / frameSize))
    (done : sp.teardownSlots source idxs = (sp', source')) : acc.Kept sp'.arch [] source' := by
  induction idxs generalizing sp source with
  | nil =>
    cases done
    exact kept
  | cons idx rest ih =>
    unfold teardownSlots at done
    split at done
    rename_i slot
    refine ih (acc.teardownSlot kept (movable idx) slot) (fun i m cell => movable i m ?_) done
    rw [teardownSlot_cell slot] at cell
    split at cell
    · cases cell
    · exact cell

end FrameAccount
end Tessera
