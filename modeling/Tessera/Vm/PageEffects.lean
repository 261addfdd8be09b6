import Tessera.Vm.OperationCases

/-!
Which pages the loops of the address-space operations touch, and what they leave
there. Outside the pages of its range an operation changes nothing, mapping never
replaces a page, and no page is ever present without the tables on the way to it.
-/
namespace Tessera
open Function List Option Slots Mapping Prod
variable {σ : Type} {port : ArchPort} {source source' : σ} {s : Nat → Prop} {frame : PhysFrame}
  {result : Except KError Unit}

namespace ArchSpace
variable [FrameSource σ] {a b c : ArchSpace}

def DiffersIn (s : Nat → Prop) (a b : ArchSpace) : Prop := ∀ p, ¬s p → b.pages p = a.pages p

theorem DiffersIn.refl (s : Nat → Prop) (a : ArchSpace) : DiffersIn s a a := fun _ _ => rfl

variable {va : Nat} {flags : PageFlags} {keys : List Nat}

theorem DiffersIn.trans (first : DiffersIn s a b) (second : DiffersIn s b c) : DiffersIn s a c :=
  fun p outside => (second p outside).trans (first p outside)

theorem map_kept (done : a.map port va frame flags source = (result, b, source'))
    (there : a.pages p ≠ none) : b.pages p = a.pages p := by
  rcases map_cases done with added | kept
  · rw [added.2.2.2.2, update_of_ne]
    intro same
    exact there (same ▸ added.2.1)
  · rw [kept.2]

theorem map_filled (done : a.map port va frame flags source = (.ok (), b, source')) :
    ∃ f fl, b.pages (va / frameSize) = some (f, fl) ∧ fl = flags := by
  rcases map_cases done with added | failed
  · exact ⟨frame,flags,by simp [added.2.2.2.2],rfl⟩
  · obtain ⟨⟨_,contra⟩,_⟩ := failed
    cases contra

def HasTable (a : ArchSpace) (key : Nat) : Prop := a.tables.any (·.1 == key) = true

def Walked (port : ArchPort) (a : ArchSpace) : Prop :=
  ∀ p, a.pages p ≠ none → ∀ key ∈ port.walk (p * frameSize), a.HasTable key

theorem drawTables_grows (drawn : a.drawTables source keys = (result, b, source'))
    (there : a.HasTable key) : b.HasTable key := by
  induction keys generalizing a source with
  | nil =>
    cases drawn
    exact there
  | cons first rest ih =>
    unfold drawTables at drawn
    split at drawn
    · exact ih drawn there
    split at drawn
    · cases drawn
      exact there
    refine ih drawn ?_
    simp only [HasTable, any_cons, Bool.or_eq_true] at there ⊢
    exact .inr there

theorem drawTables_ok (drawn : a.drawTables source keys = (.ok (), b, source')) : ∀ key ∈ keys, b.HasTable key := by
  induction keys generalizing a source with
  | nil => simp
  | cons first rest ih =>
    intro key mem
    unfold drawTables at drawn
    split at drawn
    · rename_i there
      rcases mem_cons.mp mem with rfl | later
      · exact drawTables_grows drawn there
      · exact ih drawn key later
    split at drawn
    · cases drawn
    rcases mem_cons.mp mem with rfl | later
    · refine drawTables_grows drawn ?_
      simp [HasTable]
    · exact ih drawn key later

theorem drawTables_complete (there : ∀ key ∈ keys, a.HasTable key) :
    a.drawTables source keys = (.ok (), a, source) := by
  induction keys with
  | nil => rfl
  | cons first rest ih =>
    unfold drawTables
    split
    · exact ih fun key mem => there key (mem_cons_of_mem _ mem)
    · rename_i missing
      exact absurd (there first (mem_cons_self ..)) missing

theorem map_walked (done : a.map port va frame flags source = (result, b, source')) (walked : a.Walked port) :
    b.Walked port := by
  unfold map at done
  split at done
  · cases done
    exact walked
  split at done
  · cases done
    exact walked
  split at done
  · cases done
    exact walked
  rename_i aligned
  split at done
  · rename_i drawn
    cases done
    intro p there key mem
    refine drawTables_grows drawn (walked p ?_ key mem)
    rwa [← drawTables_pages a source (port.walk va), drawn]
  rename_i c _ drawn
  have pages : c.pages = a.pages := by
    rw [← drawTables_pages a source (port.walk va), drawn]
  have old : c.Walked port := by
    intro p there key mem
    exact drawTables_grows drawn (walked p (pages ▸ there) key mem)
  split at done
  · cases done
    exact old
  cases done
  intro p there key mem
  by_cases same : p = va / frameSize
  · -- the page just mapped: its walk is the one that was drawn
    have place : p * frameSize = va := by
      simp only [frameSize] at *
      omega
    exact drawTables_ok drawn key (place ▸ mem)
  have before : c.pages p ≠ none := by
    rwa [show ({ c with pages := _ } : ArchSpace).pages p = c.pages p from update_of_ne same ..] at there
  exact old p before key mem

theorem unmap_walked (walked : a.Walked port) : (a.unmap va).2.Walked port := by
  intro p there key mem
  rw [HasTable, (unmap_tables a va).1]
  refine walked p ?_ key mem
  rw [unmap_pages] at there
  intro none
  simp [none] at there

theorem protect_walked (done : a.protect port va flags = (result, b)) (walked : a.Walked port) : b.Walked port := by
  rcases protect_pages done with changed | kept
  · obtain ⟨_,_,_,_,there,pages⟩ := changed
    intro p present key mem
    rw [HasTable, (protect_tables done).1]
    refine walked p ?_ key mem
    by_cases same : p = va / frameSize
    · rw [same, show a.pages (va / frameSize) = _ from there]
      exact some_ne_none _
    · rwa [pages, update_of_ne same] at present
  · rw [kept.2]
    exact walked

theorem map_again (walked : a.Walked port) (unmapped : a.unmap va = (.ok old, c))
    (aligned : va % frameSize = 0) (plain : flags.isWx = false) (accepted : port.accepts flags = true)
    (done : c.map port va frame flags source = (result, b, source')) : result = .ok () := by
  obtain ⟨_,there⟩ := unmap_ok unmapped
  have taken : c = (a.unmap va).2 := by rw [unmapped]
  rw [taken] at done
  have place : va / frameSize * frameSize = va := by
    simp only [frameSize] at *
    omega
  have tables : ∀ key ∈ port.walk va, (a.unmap va).2.HasTable key := by
    intro key mem
    rw [HasTable, (unmap_tables a va).1]
    refine walked (va / frameSize) ?_ key (place.symm ▸ mem)
    rw [show a.pages (va / frameSize) = _ from there]
    exact some_ne_none _
  have gone : (a.unmap va).2.pages (va / frameSize) = none := by
    rw [unmap_pages, if_pos rfl]
  unfold map at done
  rw [if_neg (by simp [plain]), if_neg (by simp [accepted]), if_neg (by simp [aligned]),
    drawTables_complete tables] at done
  simp only [gone] at done
  cases done
  rfl

end ArchSpace

namespace AddressSpace
variable {cfg : Config} {sp sp' sp'' : AddressSpace cfg}
open ArchSpace

structure Touches (port : ArchPort) (s : Nat → Prop) (sp sp' : AddressSpace cfg) : Prop where
  pages : DiffersIn s sp.arch sp'.arch
  mappings : sp'.mappings = sp.mappings
  walked : sp.arch.Walked port → sp'.arch.Walked port

theorem Touches.refl (s : Nat → Prop) (sp : AddressSpace cfg) : Touches port s sp sp :=
  ⟨.refl _ _,rfl,id⟩

theorem Touches.trans (first : Touches port s sp sp') (second : Touches port s sp' sp'') : Touches port s sp sp'' :=
  ⟨first.pages.trans second.pages,second.mappings.trans first.mappings,second.walked ∘ first.walked⟩

variable {va base i pages page src dst : Nat} {a : ArchSpace} {flags : PageFlags → Prop} {rights ro : PageFlags}
  {reach : DeviceReach} {frames made : List PhysFrame}

/-- The records are as they were, and so are the pages, but for those that may be taken
    down or be given the flags they have. -/
structure Edits (port : ArchPort) (change : Nat → Option PageFlags → Prop) (sp sp' : AddressSpace cfg) : Prop where
  pages : ∀ p, sp'.arch.pages p = sp.arch.pages p ∨ change p ((sp'.arch.pages p).map (·.2))
  mappings : sp'.mappings = sp.mappings
  walked : sp.arch.Walked port → sp'.arch.Walked port

variable {change : Nat → Option PageFlags → Prop}

theorem Edits.refl (sp : AddressSpace cfg) : Edits port change sp sp := ⟨fun _ => Or.inl rfl,rfl,id⟩

theorem Edits.trans (first : Edits port change sp sp') (second : Edits port change sp' sp'') :
    Edits port change sp sp'' := by
  refine ⟨fun p => ?_,second.mappings.trans first.mappings,second.walked ∘ first.walked⟩
  rcases second.pages p with same | changed
  · rw [same]
    exact first.pages p
  · exact .inr changed

theorem Edits.same (edits : Edits port change sp sp') (arch : sp''.arch = sp'.arch)
    (mappings : sp''.mappings = sp'.mappings) : Edits port change sp sp'' :=
  ⟨arch ▸ edits.pages,mappings.trans edits.mappings,arch ▸ edits.walked⟩

theorem Edits.touches (edits : Edits port (fun p _ => s p) sp sp') : Touches port s sp sp' :=
  ⟨fun p outside => (edits.pages p).resolve_right outside,edits.mappings,edits.walked⟩

theorem updated_edits (allowed : change page (entry.map (·.2)))
    (pages : a.pages = update sp.arch.pages page entry) (walked : sp.arch.Walked port → a.Walked port) :
    Edits port change sp (sp.setArch a) := by
  refine ⟨fun _ => ?_,rfl,walked⟩
  rw [setArch_arch, pages, update_apply]
  split
  · rename_i same
    exact .inr (same ▸ allowed)
  · exact .inl rfl

theorem unmapped_edits (sp : AddressSpace cfg) (gone : change (va / frameSize) none) :
    Edits port change sp (sp.setArch (sp.arch.unmap va).2) := by
  have pages : (sp.arch.unmap va).2.pages = update sp.arch.pages (va / frameSize) none := by
    funext p
    rw [unmap_pages, update_apply]
  exact updated_edits gone pages unmap_walked

theorem unmap_edits (gone : change (va / frameSize) none) (unmapped : sp.arch.unmap va = (.ok frame, a)) :
    Edits port change sp (sp.setArch a) := by
  have step : Edits port change sp (sp.setArch (sp.arch.unmap va).2) := unmapped_edits sp gone
  rwa [unmapped] at step

theorem protect_edits {flags : PageFlags} (allowed : flags.isWx = false → change (va / frameSize) (some flags))
    (done : sp.arch.protect port va flags = (result, a)) : Edits port change sp (sp.setArch a) := by
  rcases protect_pages done with ⟨_,plain,_,_,_,pages⟩ | ⟨_,rfl⟩
  · exact updated_edits (allowed plain) pages (protect_walked done)
  · exact .refl sp

def Holds (s : Nat → Prop) (base i pages : Nat) : Prop :=
  ∀ j, i ≤ j → j < i + pages → s (pageAt base j / frameSize)

theorem Holds.none : Holds s base 0 0 := fun _ _ upper => absurd upper (Nat.not_lt_zero _)

theorem Holds.head (holds : Holds s base i (pages + 1)) : s (pageAt base i / frameSize) :=
  holds i (Nat.le_refl _) (by omega)

theorem Holds.tail (holds : Holds s base i (pages + 1)) : Holds s base (i + 1) pages :=
  fun j _ _ => holds j (by omega) (by omega)

theorem Holds.snoc (holds : Holds s base 0 i) (next : s (pageAt base i / frameSize)) : Holds s base 0 (i + 1) := by
  intro j lower _
  rcases Nat.lt_or_ge j i with _ | _
  · exact holds j lower (by omega)
  · obtain rfl : j = i := by omega
    exact next

def pagesFrom (base i pages : Nat) (p : Nat) : Prop :=
  ∃ j, i ≤ j ∧ j < i + pages ∧ p = pageAt base j / frameSize

theorem holds_pagesFrom (base i pages : Nat) : Holds (pagesFrom base i pages) base i pages :=
  fun j lower upper => ⟨j,lower,upper,rfl⟩

theorem pageAt_div_inj (same : pageAt base i / frameSize = pageAt base j / frameSize) : i = j := by
  simp only [pageAt, frameSize] at same
  omega

theorem head_not_pagesFrom (base i pages : Nat) : ¬pagesFrom base (i + 1) pages (pageAt base i / frameSize) := by
  intro inside
  obtain ⟨_,_,_,same⟩ := inside
  have := pageAt_div_inj same
  omega

variable {p len : Nat} {m : Mapping}

def Covers (sp : AddressSpace cfg) (p : Nat) : Prop :=
  ∃ i m, sp.mappings.cell i = some m ∧ m.covers (p * frameSize) = true

theorem Mapping.covers_iff : m.covers va = true ↔ m.base ≤ va ∧ va < m.base + m.len := by
  simp [covers]

theorem findExact_some (found : sp.findExact base len = some idx) :
    ∃ m, sp.mappings.cell idx = some m ∧ m.base = base ∧ m.len = len := by
  obtain ⟨m,cell,same⟩ := index?_eq_some found
  simp only [Bool.and_eq_true, beq_iff_eq] at same
  exact ⟨m,cell,same.1,same.2⟩

theorem mappingCovering_some (found : sp.mappingCovering va = some m) :
    m.covers va = true ∧ ∃ i, sp.mappings.cell i = some m := by
  obtain ⟨covers,i,_,cell⟩ := find?_eq_some found
  exact ⟨covers,i,cell⟩

theorem alignDown_eq (va : Nat) : va / frameSize * frameSize = alignDown va := by
  simp only [alignDown, frameSize]
  omega

theorem Mapping.covers_floor (aligned : m.base % frameSize = 0 ∧ m.len % frameSize = 0) :
    m.covers (va / frameSize * frameSize) = true ↔ m.covers va = true := by
  rw [covers_iff, covers_iff]
  simp only [frameSize] at *
  omega

theorem covers_page_iff (base : m.base % frameSize = 0) (len : m.len % frameSize = 0) :
    m.covers (p * frameSize) = true ↔ pagesFrom m.base 0 (m.len / frameSize) p := by
  rw [Mapping.covers_iff]
  constructor
  · intro inside
    refine ⟨p - m.base / frameSize,Nat.zero_le _,?_,?_⟩
    · simp only [frameSize] at *
      omega
    · rw [pageAt_div base]
      simp only [frameSize] at *
      omega
  · intro inside
    obtain ⟨_,_,_,same⟩ := inside
    rw [pageAt_div base] at same
    simp only [frameSize] at *
    omega

theorem covers_of_pagesFrom (cell : sp.mappings.cell i = some m)
    (aligned : m.base % frameSize = 0 ∧ m.len % frameSize = 0)
    (inside : pagesFrom m.base 0 (m.len / frameSize) p) : sp.Covers p :=
  ⟨i,m,cell,(covers_page_iff aligned.1 aligned.2).mpr inside⟩

theorem checkNew_ok (ok : sp.checkNew port base len rights = .ok ()) :
    base % frameSize = 0 ∧ len ≠ 0 ∧ len % frameSize = 0 ∧ rights.isWx = false ∧
      sp.overlaps base len = false ∧ sp.mappingCount < cfg.maxMappings := by
  unfold checkNew at ok
  split at ok
  · cases ok
  rename_i aligned
  split at ok
  · cases ok
  rename_i whole
  split at ok
  · cases ok
  rename_i plain
  split at ok
  · cases ok
  split at ok
  · cases ok
  rename_i apart
  split at ok
  · cases ok
  rw [not_or, not_not] at whole
  exact ⟨not_not.mp aligned,whole.1,whole.2,by simpa using plain,by simpa using apart,by omega⟩

theorem apart_of_overlaps (apart : sp.overlaps base len = false) :
    ∀ i m va, sp.mappings.cell i = some m → m.covers va = true → ¬(base ≤ va ∧ va < base + len) := by
  intro i m _ cell covers _
  have none : sp.mappings.find? (fun m => base < m.base + m.len && m.base < base + len) = none := by
    simpa [overlaps] using apart
  have outside := Slots.find?_eq_none.mp none i m cell
  rw [Bool.and_eq_false_iff, decide_eq_false_iff_not, decide_eq_false_iff_not] at outside
  rw [Mapping.covers_iff] at covers
  omega

theorem not_covers_of_apart (apart : sp.overlaps base len = false) (lower : base ≤ p * frameSize)
    (upper : p * frameSize < base + len) : ¬sp.Covers p := by
  intro covered
  obtain ⟨i,m,cell,covers⟩ := covered
  exact apart_of_overlaps apart i m _ cell covers ⟨lower,upper⟩

theorem not_covers_pagesFrom (baseAligned : base % frameSize = 0) (lenAligned : len % frameSize = 0)
    (apart : sp.overlaps base len = false) (inside : pagesFrom base 0 (len / frameSize) p) : ¬sp.Covers p := by
  obtain ⟨_,_,_,same⟩ := inside
  rw [pageAt_div baseAligned] at same
  apply not_covers_of_apart apart
  · simp only [frameSize] at *
    omega
  · simp only [frameSize] at *
    omega

theorem overlaps_congr (mappings : sp'.mappings = sp.mappings) (base len : Nat) :
    sp'.overlaps base len = sp.overlaps base len := by
  simp [overlaps, mappings]

theorem not_covers_of_none (none : sp.mappingCovering (alignDown va) = none) : ¬sp.Covers (va / frameSize) := by
  intro covered
  obtain ⟨i,m,cell,covers⟩ := covered
  have outside := Slots.find?_eq_none.mp none i m cell
  rw [alignDown_eq, outside] at covers
  cases covers

def Filled (sp : AddressSpace cfg) (flags : PageFlags → Prop) (base i pages : Nat) : Prop :=
  ∀ j, i ≤ j → j < i + pages → ∃ f fl, sp.arch.pages (pageAt base j / frameSize) = some (f, fl) ∧ flags fl

theorem Filled.tail (filled : Filled sp flags base i (pages + 1)) : Filled sp flags base (i + 1) pages :=
  fun j _ _ => filled j (by omega) (by omega)

theorem Filled.head (filled : Filled sp flags base i (pages + 1)) :
    ∃ f fl, sp.arch.pages (pageAt base i / frameSize) = some (f, fl) ∧ flags fl :=
  filled i (Nat.le_refl _) (by omega)

theorem Filled.cons (first : ∃ f fl, sp.arch.pages (pageAt base i / frameSize) = some (f, fl) ∧ flags fl)
    (rest : Filled sp flags base (i + 1) pages) : Filled sp flags base i (pages + 1) := by
  intro j lower _
  rcases Nat.eq_or_lt_of_le lower with rfl | later
  · exact first
  · exact rest j later (by omega)

theorem Filled.touches (filled : Filled sp flags base i pages) (touches : Touches port s sp sp')
    (apart : ∀ j, i ≤ j → j < i + pages → ¬s (pageAt base j / frameSize)) : Filled sp' flags base i pages := by
  intro j lower upper
  rw [touches.pages _ (apart j lower upper)]
  exact filled j lower upper

theorem Filled.under {flags : PageFlags → Prop} (base : m.base % frameSize = 0) (len : m.len % frameSize = 0)
    (filled : Filled sp flags m.base 0 (m.len / frameSize)) (covers : m.covers (p * frameSize) = true) :
    ∃ f fl, sp.arch.pages p = some (f, fl) ∧ flags fl := by
  obtain ⟨j,lower,upper,same⟩ := (covers_page_iff base len).mp covers
  rw [same]
  exact filled j lower upper

theorem closeWindow_edits (sp : AddressSpace cfg) (gone : Holds (change · none) va i pages) :
    Edits port change sp (sp.closeWindow va pages i) := by
  induction pages generalizing sp i with
  | zero => exact .refl sp
  | succ pages ih => exact (unmapped_edits sp gone.head).trans (ih _ gone.tail)

/-- Stopping early closes fewer pages. -/
theorem unmapPages_space (done : sp.unmapPages base pages i = (result, sp')) :
    ∃ n ≤ pages, sp' = sp.closeWindow base n i ∧ (result = .ok () → n = pages) := by
  induction pages generalizing sp i with
  | zero =>
    cases done
    exact ⟨0,Nat.le_refl 0,rfl,fun _ => rfl⟩
  | succ pages ih =>
    unfold unmapPages at done
    split at done
    · cases done
      exact ⟨0,Nat.zero_le _,rfl,by simp⟩
    rename_i unmapped
    obtain ⟨n,fewer,rfl,all⟩ := ih done
    refine ⟨n + 1,Nat.succ_le_succ fewer,?_,fun fine => congrArg (· + 1) (all fine)⟩
    rw [closeWindow, unmapped]

theorem unmapPages_edits (gone : Holds (change · none) base i pages)
    (done : sp.unmapPages base pages i = (result, sp')) : Edits port change sp sp' := by
  obtain ⟨_,_,rfl,_⟩ := unmapPages_space done
  exact closeWindow_edits sp fun j lower _ => gone j lower (by omega)

theorem unmapPages_filled (filled : Filled sp (fun _ => True) base i pages) :
    (sp.unmapPages base pages i).1 = .ok () := by
  induction pages generalizing sp i with
  | zero => rfl
  | succ pages ih =>
    unfold unmapPages
    split
    · rename_i failed
      obtain ⟨_,_,there,_⟩ := filled.head
      rw [unmap, show sp.arch.translate (pageAt base i) = _ from there] at failed
      cases failed
    rename_i unmapped
    have step : Touches .x8664 (· = pageAt base i / frameSize) sp _ := (unmap_edits rfl unmapped).touches
    refine ih (filled.tail.touches step ?_)
    intro _ _ _ same
    have := pageAt_div_inj same
    omega

theorem protectPages_edits (allowed : rights.isWx = false → Holds (change · (some rights)) base i pages)
    (done : sp.protectPages port base rights pages i = (result, sp')) : Edits port change sp sp' := by
  induction pages generalizing sp i with
  | zero =>
    cases done
    exact .refl _
  | succ pages ih =>
    unfold protectPages at done
    split at done
    · cases done
      exact .refl _
    rename_i changed
    exact (protect_edits (fun plain => (allowed plain).head) changed).trans
      (ih (fun plain => (allowed plain).tail) done)

theorem protectPages_ok (done : sp.protectPages port base rights pages i = (.ok (), sp')) :
    Filled sp' (· = rights) base i pages := by
  induction pages generalizing sp i with
  | zero =>
    intro _ _ _
    omega
  | succ pages ih =>
    unfold protectPages at done
    split at done
    · cases done
    rename_i changed
    refine Filled.cons ?_ (ih done)
    have rest : Touches port (pagesFrom base (i + 1) pages) _ sp' :=
      (protectPages_edits (fun _ => holds_pagesFrom base (i + 1) pages) done).touches
    rw [rest.pages _ (head_not_pagesFrom base i pages)]
    rcases protect_pages changed with changes | failed
    · obtain ⟨_,_,f,_,_,pages⟩ := changes
      exact ⟨f,rights,by simp [pages],rfl⟩
    · obtain ⟨⟨_,contra⟩,_⟩ := failed
      cases contra

theorem protectPages_filled (filled : Filled sp (fun _ => True) base i pages)
    (done : sp.protectPages port base rights pages i = (result, sp')) : result = .ok () ∨ sp' = sp := by
  by_cases expressible : rights.isWx = false ∧ port.accepts rights = true
  · left
    induction pages generalizing sp i with
    | zero =>
      cases done
      rfl
    | succ pages ih =>
      unfold protectPages at done
      split at done
      · rename_i failed
        obtain ⟨_,_,there,_⟩ := filled.head
        rw [protect, if_neg (by simp [expressible.1]), if_neg (by simp [expressible.2]),
          show sp.arch.translate (pageAt base i) = _ from there] at failed
        cases failed
      rename_i changed
      have step : Touches port (· = pageAt base i / frameSize) sp _ :=
        (protect_edits (fun _ => rfl) changed).touches
      refine ih (filled.tail.touches step ?_) done
      intro _ _ _ same
      have := pageAt_div_inj same
      omega
  · right
    cases pages with
    | zero =>
      cases done
      rfl
    | succ =>
      unfold protectPages at done
      split at done
      · cases done
        rfl
      rename_i changed
      unfold protect at changed
      split at changed
      · cases changed
      split at changed
      · cases changed
      · rename_i plain accepted
        exact absurd ⟨by simpa using plain,by simpa using accepted⟩ expressible

variable [FrameSource σ]

theorem map_edits {flags : PageFlags} (allowed : flags.isWx = false → change (va / frameSize) (some flags))
    (done : sp.arch.map port va frame flags source = (result, a, source')) : Edits port change sp (sp.setArch a) := by
  rcases map_cases done with ⟨_,_,_,plain,pages⟩ | ⟨_,pages⟩
  · exact updated_edits (allowed plain) pages (map_walked done)
  · exact ⟨fun p => Or.inl (congrFun pages p),rfl,map_walked done⟩

theorem map_keeps {flags : PageFlags} (present : ∀ p, ¬s p → sp.arch.pages p ≠ none)
    (done : sp.arch.map port va frame flags source = (result, a, source')) : Touches port s sp (sp.setArch a) :=
  ⟨fun p outside => map_kept done (present p outside),rfl,map_walked done⟩

theorem mapDevicePage_eq (done : sp.mapDevicePage port va frame reach source = (result, sp', source')) :
    ∃ a, sp.arch.map port va frame reach.flags source = (result, a, source') ∧ sp' = sp.setArch a := by
  unfold mapDevicePage at done
  split at done
  rename_i called
  cases done
  exact ⟨_,called,rfl⟩

/-- Maps the pages `k`, `k + 1`, … of a range; where one is refused, those before it are
    taken down. -/
inductive Fills (port : ArchPort) (base : Nat) (rights : PageFlags) :
    (n k : Nat) → Except KError Unit → (x y : AddressSpace cfg) → Prop
  | done : Fills port base rights 0 k (.ok ()) x x
  | empty : Fills port base rights (n + 1) k (.error e) x (x.closeWindow base k 0)
  | refused [FrameSource τ] {t t' : τ} (mapped : x.arch.map port (pageAt base k) g rights t = (.error e, b, t')) :
    Fills port base rights (n + 1) k (.error e) x ((x.setArch b).closeWindow base k 0)
  | next [FrameSource τ] {t t' : τ} (mapped : x.arch.map port (pageAt base k) g rights t = (.ok (), b, t'))
    (rest : Fills port base rights n (k + 1) out (x.setArch b) y) : Fills port base rights (n + 1) k out x y

theorem Fills.edits (fills : Fills port base rights pages i result sp sp')
    (gone : Holds (change · none) base 0 (i + pages))
    (allowed : rights.isWx = false → Holds (change · (some rights)) base i pages) : Edits port change sp sp' := by
  induction fills with
  | done => exact .refl _
  | empty => exact closeWindow_edits _ fun j lower _ => gone j lower (by omega)
  | refused mapped =>
    have step := map_edits (fun plain => (allowed plain).head) mapped
    exact step.trans (closeWindow_edits _ fun j lower _ => gone j lower (by omega))
  | next mapped _ ih =>
    refine (map_edits (fun plain => (allowed plain).head) mapped).trans (ih ?_ fun plain => (allowed plain).tail)
    rwa [Nat.add_right_comm]

/-- Pages there beforehand are not touched: a page that is taken down was mapped by the
    loop. -/
theorem Fills.keeps (fills : Fills port va rights pages page result sp sp')
    (present : ∀ p, ¬s p → sp.arch.pages p ≠ none) (own : Holds s va 0 page) : Touches port s sp sp' := by
  induction fills with
  | done => exact .refl _ _
  | empty => exact (closeWindow_edits _ own).touches
  | refused mapped => exact (map_keeps present mapped).trans (closeWindow_edits _ own).touches
  | next mapped _ ih =>
    have step := map_keeps present mapped
    refine step.trans (ih (fun p outside => step.pages p outside ▸ present p outside) (own.snoc ?_))
    by_contra other
    rcases map_cases mapped with added | failed
    · exact present _ other added.2.1
    · obtain ⟨⟨_,contra⟩,_⟩ := failed
      cases contra

theorem Fills.filled (fills : Fills port base rights pages i (.ok ()) sp sp') : Filled sp' (· = rights) base i pages ∧
      ∀ p, sp.arch.pages p ≠ none → sp'.arch.pages p = sp.arch.pages p := by
  generalize fine : Except.ok () = result at fills
  induction fills with
  | done => exact ⟨fun _ _ _ => by omega,fun _ _ => rfl⟩
  | empty => cases fine
  | refused => cases fine
  | next mapped _ ih =>
    obtain ⟨rest,kept⟩ := ih fine
    obtain ⟨f,fl,there,same⟩ := map_filled mapped
    refine ⟨Filled.cons ⟨f,fl,?_,same⟩ rest,fun p present => ?_⟩
    · exact (kept _ (there ▸ some_ne_none _)).trans there
    · have now := map_kept mapped present
      exact (kept p (now ▸ present)).trans now

theorem windowPages_fills (done : sp.windowPages port va first reach source pages page = (result, sp', source')) :
    Fills port va reach.flags pages page result sp sp' := by
  induction pages generalizing sp source page with
  | zero =>
    cases done
    exact .done
  | succ pages ih =>
    unfold windowPages at done
    split at done
    · cases done
      exact .empty
    split at done
    · rename_i mapped
      cases done
      obtain ⟨_,call,rfl⟩ := mapDevicePage_eq mapped
      exact .refused call
    · rename_i mapped
      obtain ⟨_,call,rfl⟩ := mapDevicePage_eq mapped
      exact .next call (ih done)

/-- What a batch takes down is what closing the range takes down. -/
theorem unmapAndFree_space (done : sp.unmapAndFree base source pages i batch reclaimed = (r, sp', source')) :
    sp' = sp.closeWindow base pages i := by
  induction pages generalizing sp source i batch reclaimed with
  | zero =>
    cases done
    rfl
  | succ pages ih =>
    unfold unmapAndFree at done
    unfold closeWindow
    split at done
    · rename_i missing
      rw [missing, unmap_error missing]
      exact ih done
    rename_i unmapped
    rw [unmapped]
    split at done <;> exact ih done

theorem unmapAndFree_edits (gone : Holds (change · none) base i pages)
    (done : sp.unmapAndFree base source pages i batch reclaimed = (r, sp', source')) : Edits port change sp sp' := by
  rw [unmapAndFree_space done]
  exact closeWindow_edits sp gone

theorem fillPages_fills (done : sp.fillPages port base rights source pages i = (result, sp', source')) :
    Fills port base rights pages i result sp sp' := by
  have rolled {x : AddressSpace cfg} {n : Nat} {t : σ} (down : x.rollback base n t = (sp', source')) :
      sp' = x.closeWindow base n 0 := unmapAndFree_space (Prod.ext rfl down)
  induction pages generalizing sp source i with
  | zero =>
    cases done
    exact .done
  | succ pages ih =>
    unfold fillPages at done
    split at done
    · obtain ⟨rfl,down⟩ := Prod.mk.inj done
      exact rolled down ▸ .empty
    split at done
    · rename_i mapped
      obtain ⟨rfl,down⟩ := Prod.mk.inj done
      exact rolled down ▸ .refused mapped
    · rename_i mapped
      exact .next mapped (ih done)

theorem unmapAndRelease_space (done : sp.unmapAndRelease base source page frames = (sp', source')) :
    sp' = sp.closeWindow base frames.length page := by
  induction frames generalizing sp source page with
  | nil =>
    cases done
    rfl
  | cons frame rest ih => exact ih done

theorem sharePages_fills (done : sp.sharePages port base rights source made frames = (result, sp', source')) :
    Fills port base rights frames.length made.length result sp sp' := by
  induction frames generalizing sp source made with
  | nil =>
    cases done
    exact .done
  | cons frame rest ih =>
    unfold sharePages at done
    split at done
    · rename_i mapped
      obtain ⟨rfl,down⟩ := Prod.mk.inj done
      exact unmapAndRelease_space down ▸ .refused mapped
    · rename_i mapped
      have later := ih done
      rw [length_append] at later
      exact .next mapped later

theorem snapshotPages_edits (fromSrc : ro.isWx = false → Holds (change · (some ro)) src i pages)
    (fromDst : ro.isWx = false → Holds (change · (some ro)) dst i pages)
    (done : sp.snapshotPages port src dst ro source pages i = (result, sp', source')) : Edits port change sp sp' := by
  induction pages generalizing sp source i with
  | zero =>
    cases done
    exact .refl _
  | succ pages ih =>
    unfold snapshotPages at done
    split at done
    · cases done
      exact .refl _
    split at done
    · cases done
      exact .refl _
    rename_i changed
    have reflagged : Edits port change sp (sp.setArch _) :=
      protect_edits (fun plain => (fromSrc plain).head) changed
    split at done
    · rename_i mapped
      cases done
      exact reflagged.trans (map_edits (fun plain => (fromDst plain).head) mapped)
    rename_i mapped
    exact (reflagged.trans (map_edits (fun plain => (fromDst plain).head) mapped)).trans
      (ih (fun plain => (fromSrc plain).tail) (fun plain => (fromDst plain).tail) done)

/-- A finished snapshot leaves both ranges there, with the read-only flags. The two
    ranges have no page in common, so no turn of the loop undoes an earlier one. -/
theorem snapshotPages_ok (apart : ∀ a b, i ≤ a → a < i + pages → i ≤ b → b < i + pages →
      pageAt src a / frameSize ≠ pageAt dst b / frameSize)
    (done : sp.snapshotPages port src dst ro source pages i = (.ok (), sp', source')) :
    Filled sp' (· = ro) src i pages ∧ Filled sp' (· = ro) dst i pages := by
  induction pages generalizing sp source i with
  | zero => exact ⟨fun j lower upper => by omega,fun j lower upper => by omega⟩
  | succ pages ih =>
    unfold snapshotPages at done
    split at done
    · cases (Prod.mk.inj done).1
    split at done
    · cases (Prod.mk.inj done).1
    rename_i changed
    split at done
    · cases (Prod.mk.inj done).1
    rename_i reflagged _ second _ mapped
    have later : ∀ a b, i + 1 ≤ a → a < i + 1 + pages → i + 1 ≤ b → b < i + 1 + pages →
        pageAt src a / frameSize ≠ pageAt dst b / frameSize :=
      fun a b _ _ _ _ => apart a b (by omega) (by omega) (by omega) (by omega)
    obtain ⟨srcRest,dstRest⟩ := ih later done
    let s := fun p => pagesFrom src (i + 1) pages p ∨ pagesFrom dst (i + 1) pages p
    have rest : Touches port s (sp.setArch second) sp' :=
      (snapshotPages_edits (fun _ j lower upper => Or.inl ⟨j,lower,upper,rfl⟩)
        (fun _ j lower upper => Or.inr ⟨j,lower,upper,rfl⟩) done).touches
    have srcOut : ¬s (pageAt src i / frameSize) := by
      intro inside
      rcases inside with inSrc | inDst
      · exact head_not_pagesFrom src i pages inSrc
      · obtain ⟨b,_,_,same⟩ := inDst
        exact apart i b (Nat.le_refl _) (by omega) (by omega) (by omega) same
    have dstOut : ¬s (pageAt dst i / frameSize) := by
      intro inside
      rcases inside with inSrc | inDst
      · obtain ⟨a,_,_,same⟩ := inSrc
        exact apart a i (by omega) (by omega) (Nat.le_refl _) (by omega) same.symm
      · exact head_not_pagesFrom dst i pages inDst
    refine ⟨Filled.cons ?_ srcRest,Filled.cons ?_ dstRest⟩
    · rw [rest.pages _ srcOut]
      rcases protect_pages changed with changes | failed
      · obtain ⟨_,_,f,_,_,after⟩ := changes
        refine ⟨f,ro,?_,rfl⟩
        have there : reflagged.pages (pageAt src i / frameSize) = some (f, ro) := by simp [after]
        exact (map_kept mapped (there ▸ some_ne_none _)).trans there
      · obtain ⟨⟨_,contra⟩,_⟩ := failed
        cases contra
    · rw [rest.pages _ dstOut]
      exact map_filled mapped

end AddressSpace
end Tessera
