import Tessera.Lib.Transition
import Tessera.Memory.FrameLedger
import Tessera.Memory.Pmem
import Tessera.Vm.FrameAccount

/-!
What an address space gives back to the allocator. Device windows are put into
the page tables beside the mapping records, while lazy records cover pages that
are not there yet; as long as the two stay apart, every frame given back is one
that came from the allocator.
-/
namespace Tessera
open ArchSpace List Option Slots AddressSpace ArchPort BumpFrameAllocator Config FrameLedger Function
variable {cfg : Config} {σ : Type} {port : ArchPort}

namespace AddressSpace

/-- A page of a device window: no record covers it. -/
def Window (sp : AddressSpace cfg) (p : Nat) (fl : PageFlags) : Prop :=
  fl.isDevice = true ∧ ¬sp.Covers p

structure Grounded (sp : AddressSpace cfg) (l : FrameLedger σ) : Prop where
  traced : l.Traced
  tables : ∀ t ∈ sp.arch.tables, l.Known t.2
  root : l.Known sp.arch.root
  pages : ∀ p f fl, sp.arch.pages p = some (f, fl) → l.Known f ∨ sp.Window p fl
  aligned : ∀ i m, sp.mappings.cell i = some m → m.base % frameSize = 0 ∧ m.len % frameSize = 0

def KeepsApart (sp : AddressSpace cfg) : VmAction → Prop
  | .mapAnonymousDemand base len _ | .mapObject base len _ _ _ =>
    ∀ p f fl, base ≤ p * frameSize → p * frameSize < base + len → sp.arch.pages p = some (f, fl) → fl.isDevice = false
  | .mapDeviceRange va _ pages _ => sp.overlaps va (pages * frameSize) = false
  | .evictPage va => ∀ f fl, sp.arch.translate va = some (f, fl) → fl.isDevice = true →
      (sp.mappingCovering (alignDown va)).isSome = true
  | _ => True

variable {sp sp' : AddressSpace cfg} {l l' : FrameLedger σ}
variable {p va base len i pages : Nat} {m : Mapping} {rights : PageFlags} {result : Except KError Unit}
  {mid : AddressSpace cfg} {frame first : PhysFrame} {reach : DeviceReach}

theorem Grounded.known (grounded : Grounded sp l) (covered : sp.Covers p)
    (there : sp.arch.pages p = some (f, fl)) : l.Known f := by
  rcases grounded.pages p f fl there with known | window
  · exact known
  · exact absurd covered window.2

theorem Grounded.covers (grounded : Grounded sp l) (found : sp.mappingCovering va = some m) :
    sp.Covers (va / frameSize) := by
  obtain ⟨covers,i,cell⟩ := mappingCovering_some found
  exact ⟨i,m,cell,(Mapping.covers_floor (grounded.aligned i m cell)).mpr covers⟩

def Foreign (sp : AddressSpace cfg) (l : FrameLedger σ) (p : Nat) : Prop :=
  ∃ f fl, sp.arch.pages p = some (f, fl) ∧ ¬l.Known f

theorem Grounded.own (grounded : Grounded sp l) (covered : sp.Covers p) : ¬sp.Foreign l p := by
  intro foreign
  obtain ⟨f,fl,there,unknown⟩ := foreign
  exact unknown (grounded.known covered there)

/-- The source knows every frame that tables, pages and hand refer to, but for the foreign
    pages of the space at the start, which are as they were. -/
structure Sourced (start : AddressSpace cfg) (l₀ : FrameLedger σ) (a : ArchSpace) (hand : List PhysFrame)
    (l : FrameLedger σ) : Prop where
  traced : l.Traced
  tables : ∀ f ∈ a.tableFrames, l.Known f
  hand : ∀ f ∈ hand, l.Known f
  pages : ∀ p f fl, a.pages p = some (f, fl) → l.Known f ∨ start.Foreign l₀ p
  left : ∀ p, start.Foreign l₀ p → a.pages p = start.arch.pages p

namespace Sourced
variable {start : AddressSpace cfg} {l₀ m : FrameLedger σ} {a b : ArchSpace} {hand hand' : List PhysFrame}

theorem used (sourced : Sourced start l₀ a hand l) (grows : l.Extends m) (traced : m.Traced)
    (held : ∀ f ∈ hand', f ∈ hand ∨ m.Known f) : Sourced start l₀ a hand' m where
  traced := traced
  tables f mem := (sourced.tables f mem).mono grows
  hand f mem := (held f mem).elim (fun old => (sourced.hand f old).mono grows) id
  pages p f fl there := (sourced.pages p f fl there).imp_left (·.mono grows)
  left := sourced.left

variable {p : Nat}

section
variable (sourced : Sourced start l₀ a hand l)
include sourced

theorem vacant (none : a.pages p = none) : ¬start.Foreign l₀ p := by
  intro foreign
  have same := sourced.left p foreign
  obtain ⟨f,fl,there,_⟩ := foreign
  rw [none, there] at same
  cases same

theorem update (own : ¬start.Foreign l₀ p) (known : ∀ f fl, entry = some (f, fl) → l.Known f)
    (held : ∀ f ∈ hand', l.Known f) (pages : b.pages = update a.pages p entry)
    (tables : b.tableFrames = a.tableFrames) : Sourced start l₀ b hand' l where
  traced := sourced.traced
  tables := tables ▸ sourced.tables
  hand := held
  pages q f fl there := by
    rw [pages, update_apply] at there
    split at there
    · exact .inl (known f fl there)
    · exact sourced.pages q f fl there
  left q foreign := by
    rw [pages, update_of_ne]
    · exact sourced.left q foreign
    · rintro rfl
      exact own foreign

theorem known (own : ¬start.Foreign l₀ p) (there : a.pages p = some (f, fl)) : l.Known f :=
  (sourced.pages p f fl there).resolve_right own

end

end Sourced

section
variable (grounded : Grounded sp l)
include grounded

theorem Grounded.sourced : Sourced sp l sp.arch [] l where
  traced := grounded.traced
  tables f mem := by
    rcases mem_cons.mp mem with rfl | table
    · exact grounded.root
    · obtain ⟨t,inside,rfl⟩ := List.mem_map.mp table
      exact grounded.tables t inside
  hand := nofun
  pages p f fl there := by
    by_cases known : l.Known f
    · exact .inl known
    · exact .inr ⟨f,fl,there,known⟩
  left _ _ := rfl

section
variable (sourced : Sourced sp l sp'.arch [] l')
include sourced

theorem Grounded.settled
    (aligned : ∀ i m, sp'.mappings.cell i = some m → m.base % frameSize = 0 ∧ m.len % frameSize = 0)
    (bare : ∀ p, sp.Foreign l p → ¬sp'.Covers p) : Grounded sp' l' where
  traced := sourced.traced
  tables t mem := sourced.tables t.2 (mem_cons_of_mem _ (List.mem_map_of_mem mem))
  root := sourced.tables _ mem_cons_self
  pages p f fl there := by
    rcases sourced.pages p f fl there with known | foreign
    · exact .inl known
    rw [sourced.left p foreign] at there
    rcases grounded.pages p f fl there with known | window
    · obtain ⟨g,gl,same,unknown⟩ := foreign
      rw [there] at same
      cases same
      exact absurd known unknown
    · exact .inr ⟨window.1,bare p foreign⟩
  aligned := aligned

theorem Grounded.fewer (fewer : ∀ i m, sp'.mappings.cell i = some m →
      ∃ m', sp.mappings.cell i = some m' ∧ m'.base = m.base ∧ m'.len = m.len) : Grounded sp' l' := by
  refine grounded.settled sourced (fun i m cell => ?_) fun _ foreign covered => ?_
  · obtain ⟨m',cell',base,len⟩ := fewer i m cell
    rw [← base, ← len]
    exact grounded.aligned i m' cell'
  obtain ⟨i,m,cell,covers⟩ := covered
  obtain ⟨m',cell',base,len⟩ := fewer i m cell
  rw [Mapping.covers_iff, ← base, ← len, ← Mapping.covers_iff] at covers
  exact grounded.own ⟨i,m',cell',covers⟩ foreign

theorem Grounded.same (mappings : sp'.mappings = sp.mappings) : Grounded sp' l' :=
  grounded.fewer sourced fun _ m cell => ⟨m,mappings ▸ cell,rfl,rfl⟩

end

theorem Grounded.record (rights : PageFlags) (backing : Backing)
    (baseAligned : base % frameSize = 0) (lenAligned : len % frameSize = 0)
    (own : ∀ p, pagesFrom base 0 (len / frameSize) p → ¬sp.Foreign l p) :
    Grounded (sp.record base len rights backing) l := by
  unfold AddressSpace.record
  split
  · exact grounded
  refine grounded.settled grounded.sourced (fun j m cell => ?_) fun p foreign covered => ?_
  · rcases cell_put_cases cell with new | old
    · rw [new.2]
      exact ⟨baseAligned,lenAligned⟩
    · exact grounded.aligned j m old.2
  · obtain ⟨j,m,cell,covers⟩ := covered
    rcases cell_put_cases cell with new | old
    · rw [new.2, Mapping.covers_iff] at covers
      refine own p ⟨p - base / frameSize,Nat.zero_le _,?_,?_⟩ foreign
      · simp only [frameSize] at *
        omega
      · rw [pageAt_div baseAligned]
        simp only [frameSize] at *
        omega
    · exact grounded.own ⟨j,m,old.2,covers⟩ foreign

theorem Grounded.lazily
    (apart : ∀ p f fl, base ≤ p * frameSize → p * frameSize < base + len → sp.arch.pages p = some (f, fl) →
      fl.isDevice = false) (done : sp.mapLazy port base len rights backing = (result, sp')) : Grounded sp' l := by
  rcases mapLazy_cases done with rfl | ⟨ok,rfl⟩
  · exact grounded
  obtain ⟨baseAligned,_,lenAligned,_⟩ := checkNew_ok ok
  refine grounded.record rights backing baseAligned lenAligned fun p inside foreign => ?_
  obtain ⟨j,_,below,same⟩ := inside
  obtain ⟨f,fl,there,unknown⟩ := foreign
  rw [pageAt_div baseAligned] at same
  have plain := apart p f fl (by simp only [frameSize] at *; omega) (by simp only [frameSize] at *; omega) there
  rcases grounded.pages p f fl there with known | window
  · exact unknown known
  · rw [window.1] at plain
    cases plain

theorem Grounded.unmapped (va : Nat) : Grounded (sp.setArch (sp.arch.unmap va).2) l := by
  obtain ⟨tables,root⟩ := sp.arch.unmap_tables va
  refine ⟨grounded.traced,by rw [setArch_arch, tables]; exact grounded.tables,by rw [setArch_arch, root]; exact grounded.root,
    fun p f fl there => ?_,grounded.aligned⟩
  rw [setArch_arch, unmap_pages] at there
  split at there
  · cases there
  · exact grounded.pages p f fl there

theorem Grounded.closeWindow (va pages i : Nat) : Grounded (sp.closeWindow va pages i) l := by
  induction pages generalizing sp i with
  | zero => exact grounded
  | succ pages ih => exact ih (grounded.unmapped _) _

theorem Grounded.unmapPages (done : sp.unmapPages base pages i = (result, sp')) : Grounded sp' l := by
  obtain ⟨n,_,rfl,_⟩ := unmapPages_space done
  exact grounded.closeWindow base n i

theorem Grounded.unmapRange (done : sp.unmapRange base len = (result, sp')) : Grounded sp' l := by
  rcases unmapRange_cases done with rfl | ⟨idx,mid,_,_,unmapped,⟨_,rfl⟩ | ⟨_,rfl⟩⟩
  · exact grounded
  · exact grounded.unmapPages unmapped
  · have taken := grounded.unmapPages unmapped
    exact taken.fewer taken.sourced fun _ m cell => ⟨m,(cell_clear_cases cell).2,rfl,rfl⟩

theorem Grounded.holds (found : (sp.findExact base len).isSome = true) :
    Holds (fun p => ¬sp.Foreign l p) base 0 (len / frameSize) := by
  obtain ⟨idx,found⟩ := isSome_iff_exists.mp found
  obtain ⟨m,cell,rfl,rfl⟩ := findExact_some found
  intro j lower upper
  exact grounded.own (covers_of_pagesFrom cell (grounded.aligned idx m cell) ⟨j,lower,upper,rfl⟩)

theorem Grounded.ownAt (found : (sp.mappingCovering va).isSome = true) : ¬sp.Foreign l (va / frameSize) := by
  obtain ⟨m,found⟩ := isSome_iff_exists.mp found
  exact grounded.own (grounded.covers found)

theorem Grounded.changed (sourced : Sourced sp l mid.arch [] l')
    (mappings : mid.mappings = sp.mappings) (idx : Nat) (f : Mapping → Mapping)
    (range : ∀ m, (f m).base = m.base ∧ (f m).len = m.len) : Grounded (mid.changeRecord idx f) l' := by
  refine grounded.fewer sourced fun _ m cell => ?_
  simp only [changeRecord, cell_assign, mappings] at cell
  split at cell
  · rename_i same
    obtain ⟨m',old,made⟩ := map_eq_some_iff.mp cell
    rw [← made, ← same.1]
    exact ⟨m',old,(range m').1.symm,(range m').2.symm⟩
  · exact ⟨m,cell,rfl,rfl⟩

end

theorem Grounded.recordMapped (grounded : Grounded mid l') (sourced : Sourced sp l mid.arch [] l')
    (rights : PageFlags) (backing : Backing) (baseAligned : base % frameSize = 0)
    (lenAligned : len % frameSize = 0) (own : Holds (fun p => ¬sp.Foreign l p) base 0 (len / frameSize)) :
    Grounded (mid.recordMapped base len rights backing) l' := by
  have recorded : Grounded (mid.record base len rights backing) l' := by
    refine grounded.record rights backing baseAligned lenAligned fun _ inside foreign => ?_
    obtain ⟨j,lower,upper,rfl⟩ := inside
    obtain ⟨f,fl,there,unknown⟩ := foreign
    exact own j lower upper ((sourced.pages _ f fl there).resolve_left unknown)
  exact recorded.same recorded.sourced rfl

variable [FrameSource σ]

def sourcedAccount (start : AddressSpace cfg) (l₀ : FrameLedger σ) : FrameAccount (FrameLedger σ) where
  Kept := Sourced start l₀
  Movable p := ¬start.Foreign l₀ p
  Flagged p := ¬start.Foreign l₀ p
  Allows _ _ := True
  perm sourced same := sourced.used (.refl _) sourced.traced fun f member =>
    Or.inl (count_pos_iff.mp (same f ▸ count_pos_iff.mpr member))
  protect sourced own done := by
    rcases protect_pages done with ⟨_,_,frame,old,there,pages⟩ | ⟨_,rfl⟩
    · refine sourced.update own (fun f fl new => ?_) sourced.hand pages (protect_tableFrames done)
      cases new
      exact sourced.known own there
    · exact sourced
  vacant sourced none := sourced.vacant none
  allocNone {_ _ s _} sourced drawn := by
    have same := allocFrame_none drawn
    refine sourced.used ⟨[],by simp [same]⟩ ?_ fun f => Or.inl
    unfold FrameLedger.Traced
    rw [same]
    exact sourced.traced
  allocSome sourced drawn := by
    have same := allocFrame_some drawn
    refine sourced.used ⟨_,same⟩ (sourced.traced.snoc same nofun) fun f member => ?_
    rcases mem_cons.mp member with rfl | old
    · exact .inr (Or.inl (by simp [same]))
    · exact .inl old
  free sourced := by
    refine sourced.used ⟨_,freeFrame_uses _ _⟩ (sourced.traced.snoc (freeFrame_uses _ _) ?_)
      fun f member => Or.inl (mem_cons_of_mem _ member)
    intro f same
    cases same
    exact sourced.hand _ mem_cons_self
  retain sourced _ := by
    refine ⟨sourced.used ⟨_,retainFrame_uses _ _⟩ (sourced.traced.snoc (retainFrame_uses _ _) nofun)
      fun f member => ?_,trivial⟩
    rcases mem_cons.mp member with rfl | old
    · exact .inr (Or.inr (by simp))
    · exact .inl old
  allowed _ _ _ := trivial
  addTable {a _ _ g} key sourced := by
    refine ⟨sourced.traced,fun f member => ?_,fun f member => sourced.hand f (mem_cons_of_mem _ member),
      sourced.pages,sourced.left⟩
    simp only [tableFrames, map_cons, mem_cons] at member
    rcases member with root | rfl | table
    · exact sourced.tables f (root ▸ mem_cons_self)
    · exact sourced.hand f mem_cons_self
    · exact sourced.tables f (mem_cons_of_mem _ table)
  install sourced none pages tables := by
    refine sourced.update (sourced.vacant none) (fun f fl new => ?_)
      (fun f member => sourced.hand f (mem_cons_of_mem _ member)) pages tables
    cases new
    exact sourced.hand _ mem_cons_self
  unmap {a b _ _ _ va} sourced own done := by
    obtain ⟨flags,there⟩ := unmap_ok done
    refine sourced.update own (fun _ _ (new : none = some _) => nomatch new) (fun f member => ?_) (funext fun p => ?_)
      (tableFrames_of_unmap done)
    · rcases mem_cons.mp member with rfl | old
      · exact sourced.known own there
      · exact sourced.hand f old
    · rw [pages_of_unmap done, update_apply]

theorem Grounded.reflagged (grounded : Grounded sp l)
    (done : sp.reflag port va flags = (result, sp')) : Grounded sp' l := by
  rcases reflag_cases done with rfl | ⟨m,arch,found,changed,rfl⟩
  · exact grounded
  have own : ¬sp.Foreign l (alignDown va / frameSize) := by
    rw [alignDown_div]
    exact grounded.ownAt (isSome_of_eq_some found)
  exact grounded.same ((sourcedAccount sp l).protect grounded.sourced own changed) rfl

theorem Grounded.protectRange (grounded : Grounded sp l)
    (done : sp.protectRange port base len rights = (result, sp')) : Grounded sp' l := by
  rcases protectRange_cases done with rfl | ⟨_,idx,mid,found,changed,ended⟩
  · exact grounded
  have sourced := (sourcedAccount sp l).protectPages grounded.sourced (grounded.holds (isSome_of_eq_some found)) changed
  have edits : Edits port (fun _ _ => True) sp mid := protectPages_edits (fun _ _ _ _ => trivial) changed
  rcases ended with ⟨_,rfl⟩ | ⟨_,rfl⟩
  · exact grounded.same sourced edits.mappings
  · exact grounded.changed sourced edits.mappings idx _ fun _ => ⟨rfl,rfl⟩

section
variable (grounded : Grounded sp l)
include grounded

theorem Grounded.mapAnonymous
    (done : sp.mapAnonymous port base len rights l = (result, sp', l')) : Grounded sp' l' := by
  rcases mapAnonymous_cases done with ⟨rfl,rfl⟩ | ⟨ok,mid,filled,ended⟩
  · exact grounded
  obtain ⟨baseAligned,_,lenAligned,_⟩ := checkNew_ok ok
  obtain ⟨sourced,own⟩ := (sourcedAccount sp l).fillPages grounded.sourced .none filled
  rw [Nat.zero_add] at own
  have edits : Edits port (fun _ _ => True) sp mid :=
    (fillPages_fills filled).edits (fun _ _ _ => trivial) fun _ _ _ _ => trivial
  have kept := grounded.same sourced edits.mappings
  rcases ended with ⟨_,rfl⟩ | ⟨made,rfl⟩
  · exact kept
  · exact kept.recordMapped sourced rights .anonymous baseAligned lenAligned (own made)

theorem Grounded.mapShared (done : sp.mapShared port base rights obj baseOffset frames l = (result, sp', l')) :
    Grounded sp' l' := by
  rcases mapShared_cases done with ⟨rfl,rfl⟩ | ⟨ok,mid,shared,ended⟩
  · exact grounded
  obtain ⟨baseAligned,_,lenAligned,_⟩ := checkNew_ok ok
  obtain ⟨sourced,own⟩ := (sourcedAccount sp l).sharePages grounded.sourced trivial .none (fun _ _ listed => absurd listed (by simp)) shared
  have edits : Edits port (fun _ _ => True) sp mid :=
    (sharePages_fills shared).edits (fun _ _ _ => trivial) fun _ _ _ _ => trivial
  have kept := grounded.same sourced edits.mappings
  rcases ended with ⟨_,rfl⟩ | ⟨made,rfl⟩
  · exact kept
  refine kept.recordMapped sourced rights _ baseAligned lenAligned ?_
  rw [Nat.mul_div_cancel _ (by decide : 0 < frameSize)]
  exact Nat.zero_add frames.length ▸ own made

theorem Grounded.snapshotCow (done : sp.snapshotCow port src dst len l = (result, sp', l')) : Grounded sp' l' := by
  rcases snapshotCow_cases done with ⟨_,rfl,rfl⟩ | ⟨_,dstAligned,lenAligned,_,_,idx,m,mid,found,cell,copied,ended⟩
  · exact grounded
  have loses : result ≠ .ok () → ∀ a g s, Sourced sp l a [g] s → Sourced sp l a [] s := by
    intro _ a g s sourced
    exact sourced.used (.refl s) sourced.traced nofun
  obtain ⟨sourced,own⟩ := (sourcedAccount sp l).snapshotPages grounded.sourced
    (grounded.holds (isSome_of_eq_some found)) (fun _ _ => trivial) .none loses copied
  rw [Nat.zero_add] at own
  have edits : Edits port (fun _ _ => True) sp mid :=
    snapshotPages_edits (fun _ _ _ _ => trivial) (fun _ _ _ _ => trivial) copied
  rcases ended with ⟨_,rfl⟩ | ⟨made,rfl⟩
  · exact grounded.same sourced edits.mappings
  · have marked := grounded.changed sourced edits.mappings idx (fun m => { m with backing := .cow }) fun m => ⟨rfl,rfl⟩
    exact marked.recordMapped sourced m.rights .cow dstAligned lenAligned (own made)

theorem Grounded.window (window : va % frameSize = 0 → sp.Window (va / frameSize) flags)
    (done : sp.arch.map port va frame flags l = (result, a, l')) : Grounded (sp.setArch a) l' := by
  rcases map_cases done with ⟨rfl,_,aligned,_,pages⟩ | ⟨⟨_,rfl⟩,_⟩
  · rcases map_parts done with ⟨_,_,_,failed⟩ | ⟨drawn,mid,walked,⟨⟨_,failed⟩,_⟩ | ⟨_,rfl,_⟩⟩
    · cases failed
    · cases failed
    have sourced := (sourcedAccount sp l).drawTables grounded.sourced walked
    have kept : Grounded (sp.setArch mid) l' := grounded.same sourced rfl
    refine ⟨kept.traced,kept.tables,kept.root,fun p f fl there => ?_,grounded.aligned⟩
    simp only [setArch_arch, update_apply] at there
    split at there
    · rename_i same
      cases there
      rw [same]
      exact .inr (window aligned)
    · exact kept.pages p f fl there
  · exact grounded.same ((sourcedAccount sp l).mapError grounded.sourced done) rfl

theorem Grounded.windowPages (inside : ∀ j, page ≤ j → j < page + pages → pageAt va j % frameSize = 0 →
      sp.Window (pageAt va j / frameSize) reach.flags)
    (done : sp.windowPages port va first reach l pages page = (result, sp', l')) : Grounded sp' l' := by
  induction pages generalizing sp l page with
  | zero =>
    cases done
    exact grounded
  | succ pages ih =>
    have here := inside page (Nat.le_refl _) (by omega)
    unfold windowPages at done
    split at done
    · cases done
      exact grounded.closeWindow va page 0
    split at done
    · rename_i mapped
      cases done
      obtain ⟨arch,call,rfl⟩ := mapDevicePage_eq mapped
      exact (grounded.window here call).closeWindow va page 0
    rename_i mapped
    obtain ⟨arch,call,rfl⟩ := mapDevicePage_eq mapped
    exact ih (grounded.window here call) (fun j _ _ => inside j (by omega) (by omega)) done

theorem Grounded.mapDeviceRange (apart : sp.overlaps va (pages * frameSize) = false)
    (done : sp.mapDeviceRange port va first pages reach l = (result, sp', l')) : Grounded sp' l' := by
  refine grounded.windowPages (fun _ _ _ _ => ⟨?_,?_⟩) done
  · cases reach <;> rfl
  apply not_covers_of_apart apart
  · simp only [pageAt, frameSize] at *
    omega
  · simp only [pageAt, frameSize] at *
    omega

theorem Grounded.evictPage (apart : ∀ f fl, sp.arch.translate va = some (f, fl) → fl.isDevice = true →
      (sp.mappingCovering (alignDown va)).isSome = true) (done : sp.evictPage va l = (result, sp', l')) :
    Grounded sp' l' := by
  have own : ¬sp.Foreign l (va / frameSize) := by
    intro foreign
    have kept := foreign
    obtain ⟨f,fl,there,unknown⟩ := foreign
    rcases grounded.pages _ f fl there with known | window
    · exact unknown known
    have covered := grounded.ownAt (apart f fl there window.1)
    rw [alignDown_div] at covered
    exact covered kept
  have sourced := (sourcedAccount sp l).evictPage grounded.sourced own done
  rcases evictPage_cases done with ⟨rfl,rfl⟩ | ⟨frame,arch,_,rfl,rfl⟩
  · exact grounded
  · exact grounded.same sourced rfl

theorem Grounded.resolveFault (done : sp.resolveFault port va write l = (out, sp', l')) : Grounded sp' l' := by
  have forgives : ∀ m, sp.mappingCovering va = some m → m.backing = .cow →
      (sourcedAccount sp l).Forgives port sp (alignDown va) m.rights := by
    intro m _ _ shared priv arch arch' mid src err _ _ (sourced : Sourced sp l arch' [shared, priv] src)
    exact sourced.used (.refl src) sourced.traced fun _ mem => Or.inl (mem_cons_of_mem _ mem)
  exact grounded.same ((sourcedAccount sp l).resolveFault grounded.sourced grounded.ownAt forgives done)
    (resolveFault_records done).1

theorem Grounded.installObjectPage
    (done : sp.installObjectPage port va frame l = (result, sp', l')) : Grounded sp' l' := by
  have retained : Sourced sp l sp.arch [frame] (FrameSource.retainFrame l frame) :=
    have allowed : (sourcedAccount sp l).Allows [frame] l := trivial
    ((sourcedAccount sp l).retain grounded.sourced allowed).1
  have sourced := (sourcedAccount sp l).installRetained retained done
  rcases installObjectPage_cases done with ⟨rfl,_⟩ | ⟨m,arch,rest,_,_,⟨_,rfl,_⟩ | ⟨_,rfl,_⟩⟩
  · exact grounded.same sourced rfl
  · exact grounded.same sourced rfl
  · exact grounded.same sourced rfl

theorem Grounded.reclaimRange (done : sp.reclaimRange base len l = (result, sp', l')) : Grounded sp' l' := by
  have sourced := (sourcedAccount sp l).reclaimRange grounded.sourced grounded.holds done
  rcases reclaimRange_cases done with ⟨rfl,rfl⟩ | ⟨idx,_,mid,_,loop,rfl⟩
  · exact grounded
  have edits : Edits .x8664 (fun _ _ => True) sp mid := unmapAndFree_edits (fun _ _ _ => trivial) loop
  refine grounded.fewer sourced fun _ m cell => ⟨m,?_,rfl,rfl⟩
  rw [← edits.mappings]
  exact (cell_clear_cases cell).2

theorem Grounded.teardown : (sp.teardown port l).Traced := by
  unfold AddressSpace.teardown
  split
  rename_i left freed emptied
  have own : ∀ i m, sp.mappings.cell i = some m → Holds (sourcedAccount sp l).Movable m.base 0 (m.len / frameSize) := by
    intro i m cell j lower upper
    exact grounded.own (covers_of_pagesFrom cell (grounded.aligned i m cell) ⟨j,lower,upper,rfl⟩)
  have sourced := (sourcedAccount sp l).teardownSlots _ grounded.sourced own emptied
  have held : Sourced sp l left.arch
      (((left.arch.tables.filter (port.owned ·.1)).map Prod.snd ++ [left.arch.root]) ++ []) freed := by
    refine sourced.used (.refl _) sourced.traced fun _ mem => Or.inr ?_
    rw [append_nil, mem_append, mem_singleton] at mem
    rcases mem with table | rfl
    · obtain ⟨t,inside,rfl⟩ := List.mem_map.mp table
      exact sourced.tables _ (mem_cons_of_mem _ (List.mem_map_of_mem (mem_filter.mp inside).1))
    · exact sourced.tables _ mem_cons_self
  rw [freeTables_eq]
  exact Sourced.traced ((sourcedAccount sp l).freeAll held)

theorem Grounded.perform {next : Option (AddressSpace cfg)}
    (apart : sp.KeepsApart a) (done : sp.perform port l a = (next, l')) :
    l'.Traced ∧ ∀ sp', next = some sp' → Grounded sp' l' := by
  have onward : ∀ {x : AddressSpace cfg}, Grounded x l' → l'.Traced ∧ ∀ sp', some x = some sp' → Grounded sp' l' := by
    intro x kept
    refine ⟨kept.traced,fun _ same => ?_⟩
    cases same
    exact kept
  cases a with cases done
  | mapAnonymous => exact onward (grounded.mapAnonymous rfl)
  | mapShared => exact onward (grounded.mapShared rfl)
  | mapAnonymousDemand | mapObject => exact onward (grounded.lazily apart rfl)
  | mapDeviceRange => exact onward (grounded.mapDeviceRange apart rfl)
  | unmapDevicePages va pages => exact onward (grounded.closeWindow va pages 0)
  | unmapDevicePage va =>
    refine onward ?_
    unfold unmapDevicePage
    have taken := grounded.unmapped va
    split
    · exact grounded
    rename_i unmapped
    rw [unmapped] at taken
    exact taken
  | installObjectPage => exact onward (grounded.installObjectPage rfl)
  | grantWrite => exact onward (grounded.reflagged rfl)
  | reprotectRo va =>
    exact onward (grounded.reflagged (rfl : sp.reflag port va readOnly = (_, (sp.reflag port va readOnly).2)))
  | evictPage => exact onward (grounded.evictPage apart rfl)
  | resolveFault => exact onward (grounded.resolveFault rfl)
  | snapshotCow => exact onward (grounded.snapshotCow rfl)
  | unmapRange => exact onward (grounded.unmapRange rfl)
  | reclaimRange => exact onward (grounded.reclaimRange rfl)
  | protectRange => exact onward (grounded.protectRange rfl)
  | teardown => exact ⟨grounded.teardown,nofun⟩

end

theorem grounded_new (created : new ⟨src, []⟩ = (.ok sp, l)) : Grounded sp l := by
  unfold new ArchSpace.new at created
  split at created
  · cases created
  rename_i made
  split at made
  · cases made
  rename_i drawn
  have uses := allocFrame_some drawn
  cases made
  cases created
  refine ⟨?_,by simp [fromArch],Or.inl (by simp [uses, fromArch]),by simp [fromArch],by simp [fromArch]⟩
  intro earlier f later split
  rw [uses] at split
  rcases earlier with - | ⟨x,rest⟩ <;> simp at split

end AddressSpace

namespace VmWorld
variable [FrameSource σ]
open Transition

def Apart (w : VmWorld cfg (FrameLedger σ)) (a : VmAction) : Prop :=
  ∀ sp, w.space = some sp → sp.KeepsApart a

variable {w : VmWorld cfg (FrameLedger σ)}

theorem grounded_run (run : Disciplined (fun _ => Apart) (Step port) start history w) (traced : start.source.Traced)
    (grounded : ∀ sp, start.space = some sp → sp.Grounded start.source) :
    w.source.Traced ∧ ∀ sp, w.space = some sp → sp.Grounded w.source := by
  refine Disciplined.invariant (fun _ w => w.source.Traced ∧ ∀ sp, w.space = some sp → sp.Grounded w.source)
    ?_ ⟨traced,grounded⟩ run
  intro _ w a w' kept apart step
  obtain ⟨sp,there,done⟩ := map_eq_some_iff.mp step
  cases performed : sp.perform port w.source a with
  | mk =>
    rw [performed] at done
    cases done
    exact (kept.2 sp there).perform (apart sp there) performed

/-- In every run over canonical addresses that keeps device windows and mapping records
    apart, each frame given back had come from the frame source or had been retained there; so a
    device page that the source does not know is never given back. -/
theorem only_allocator_frames_return {source : σ} {sp : AddressSpace cfg} {l : FrameLedger σ}
    {history : List VmAction} {w : VmWorld cfg (FrameLedger σ)}
    (created : AddressSpace.new ⟨source, []⟩ = (.ok sp, l))
    (run : Disciplined (fun _ w a => w.Apart a ∧ a.Canonical port) (Step port) ⟨some sp, l⟩ history w) :
    (∀ earlier f later, w.source.uses = earlier ++ .freed f :: later →
      .obtained f ∈ earlier ∨ .retained f ∈ earlier) ∧
    (∀ va first pages reach, .mapDeviceRange va first pages reach ∈ history → ∀ j < pages, ∀ f : PhysFrame,
      f.base = first.base + j * frameSize → ¬w.source.Known f → .freed f ∉ w.source.uses) := by
  have start := AddressSpace.grounded_new created
  have kept := grounded_run (run.mono fun _ _ _ => And.left) start.traced fun sp' same => by
    cases same
    exact start
  refine ⟨kept.1,fun va first pages reach _ j _ f _ unknown mem => unknown ?_⟩
  obtain ⟨earlier,later,split⟩ := append_of_mem mem
  unfold FrameLedger.Known
  rw [split]
  rcases kept.1 earlier f later split with obtained | retained
  · exact .inl (mem_append_left _ obtained)
  · exact .inr (mem_append_left _ retained)

def machineMemory : List MemoryRegion := [⟨0x100000, 0x100000, .usable⟩]

def registers : PhysFrame := ⟨0xfee00000, by decide⟩

def booted : Option (VmWorld Config.default (FrameLedger (BumpFrameAllocator Config.default))) :=
  match AddressSpace.new ⟨.new machineMemory, []⟩ with
  | (.ok sp, l) => some ⟨some sp, l⟩
  | (.error _, _) => none

theorem booted_eq_some {w : VmWorld Config.default (FrameLedger (BumpFrameAllocator Config.default))}
    (h : booted = some w) : ∃ sp l, w = ⟨some sp, l⟩ ∧
      AddressSpace.new ⟨BumpFrameAllocator.new machineMemory, []⟩ = (.ok sp, l) := by
  unfold booted at h
  split at h
  · rename_i sp l created
    cases h
    exact ⟨sp,l,rfl,created⟩
  · cases h

theorem booted_reaches {S A : Type} (allowed : List A → S → A → Prop) [∀ h s a, Decidable (allowed h s a)]
    (perform : S → A → Option S) (enter : VmWorld Config.default (FrameLedger (BumpFrameAllocator Config.default)) → S)
    (as : List A) (holds : S → Prop) [DecidablePred holds]
    (done : (booted.bind fun w => performAll allowed perform [] (enter w) as).any (holds ·) = true) :
    ∃ sp l s, AddressSpace.new ⟨BumpFrameAllocator.new machineMemory, []⟩ = (.ok sp, l) ∧
      Disciplined allowed (fun s a t => perform s a = some t) (enter ⟨some sp, l⟩) as s ∧ holds s := by
  obtain ⟨s,performed,checked⟩ := (Option.any_eq_true _ _).mp done
  obtain ⟨start,boot,performed⟩ := bind_eq_some_iff.mp performed
  obtain ⟨sp,l,rfl,created⟩ := booted_eq_some boot
  exact ⟨sp,l,s,created,Disciplined.start.performAll performed,of_decide_eq_true checked⟩

def clearlyApart (w : VmWorld cfg σ) : VmAction → Bool
  | .mapDeviceRange va _ pages _ => w.space.all fun sp => !sp.overlaps va (pages * frameSize)
  | .mapAnonymousDemand _ _ _ | .mapObject _ _ _ _ _ | .evictPage _ => false
  | _ => true

omit [FrameSource σ] in
theorem apart_of_clearly (h : w.clearlyApart a = true) : w.Apart a := by
  intro sp there
  cases a <;> simp_all [clearlyApart, AddressSpace.KeepsApart]

/-- A page of anonymous memory beside a device window, and the space torn down:
    what is given back leaves the registers alone. -/
theorem window_beside_memory_stays : let history : List VmAction := [.mapAnonymous 0x40000000 4096 PageFlags.rw.user,
      .mapDeviceRange 0x40001000 registers 1 .user, .teardown]
    ∃ sp l w, AddressSpace.new ⟨BumpFrameAllocator.new machineMemory, []⟩ = (.ok sp, l) ∧
      Disciplined (fun _ w a => w.Apart a ∧ a.Canonical .x8664) (Step ArchPort.x8664)
        (⟨some sp, l⟩ : VmWorld Config.default (FrameLedger (BumpFrameAllocator Config.default))) history w ∧
      ¬w.source.Known registers ∧ .freed registers ∉ w.source.uses := by
  intro history
  obtain ⟨sp,l,w,created,clear,unseen⟩ := booted_reaches
    (fun _ w a => w.clearlyApart a = true ∧ a.Canonical .x8664) (perform ArchPort.x8664) id history
    (fun w => .obtained registers ∉ w.source.uses ∧ .retained registers ∉ w.source.uses) (by decide +kernel)
  have run := clear.mono fun _ _ _ => And.imp_left apart_of_clearly
  have unknown : ¬w.source.Known registers := not_or.mpr unseen
  refine ⟨sp,l,w,created,run,unknown,?_⟩
  exact (only_allocator_frames_return created run).2 0x40001000 registers 1 .user (by simp [history]) 0
    (by decide) registers rfl unknown

/-- A window opened over a lazy record: the registers are given back to the
    allocator when the space is torn down. -/
theorem window_over_record_is_freed :
    let history : List VmAction := [.mapObject 0x40000000 4096 PageFlags.rw.user ⟨0x1000⟩ 0,
      .mapDeviceRange 0x40000000 registers 1 .user, .teardown]
    ∃ sp l w, AddressSpace.new ⟨BumpFrameAllocator.new machineMemory, []⟩ = (.ok sp, l) ∧
      Run (Step ArchPort.x8664)
        (⟨some sp, l⟩ : VmWorld Config.default (FrameLedger (BumpFrameAllocator Config.default))) history w ∧
      ¬w.source.Known registers ∧ .freed registers ∈ w.source.uses := by
  intro history
  obtain ⟨sp,l,w,created,run,unseen,freed⟩ := booted_reaches (fun _ _ _ => True) (perform ArchPort.x8664) id history
    (fun w => (.obtained registers ∉ w.source.uses ∧ .retained registers ∉ w.source.uses) ∧
      .freed registers ∈ w.source.uses) (by decide +kernel)
  exact ⟨sp,l,w,created,run,not_or.mpr unseen,freed⟩

end VmWorld
end Tessera
