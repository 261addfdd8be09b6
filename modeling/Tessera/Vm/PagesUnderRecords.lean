import Tessera.Vm.OrderlyRecords

/-!
Every page of a space lies under one of its records, so long as no device window is put
into it. The page loops leave the records alone; a loop that fails takes down the pages
it has put there before the space forgets that it meant to record them, and a range is
recorded only when a place for the record is known to be free.
-/
namespace Tessera
open List Slots Option Or Prod
variable {a : ArchSpace} {frame : PhysFrame}
namespace AddressSpace
open ArchSpace
variable {cfg : Config} {σ : Type} {port : ArchPort} {sp mid sp' : AddressSpace cfg} {s t : Nat → Prop}

def Present (sp : AddressSpace cfg) (p : Nat) : Prop := sp.arch.pages p ≠ none

structure Within (s : Nat → Prop) (sp sp' : AddressSpace cfg) : Prop where
  pages : ∀ p, sp'.Present p → s p
  mappings : sp'.mappings = sp.mappings
  count : sp'.mappingCount = sp.mappingCount

theorem Within.refl (sp : AddressSpace cfg) : Within sp.Present sp sp := ⟨fun _ there => there,rfl,rfl⟩

theorem Within.trans (first : Within t sp mid) (second : Within s mid sp') : Within s sp sp' :=
  ⟨second.pages,second.mappings.trans first.mappings,second.count.trans first.count⟩

theorem Within.mono (within : Within s sp sp') (wider : ∀ p, s p → t p) : Within t sp sp' :=
  ⟨fun p there => wider p (within.pages p there),within.mappings,within.count⟩

variable {base len i pages p va idx : Nat} {result : Except KError Unit} {m : Mapping} {rights : PageFlags}
  {backing : Backing}

theorem pagesFrom_succ :
    pagesFrom base i (pages + 1) p ↔ p = pageAt base i / frameSize ∨ pagesFrom base (i + 1) pages p := by
  constructor
  · intro inside
    obtain ⟨j,lower,_,same⟩ := inside
    rcases Nat.eq_or_lt_of_le lower with rfl | later
    · exact .inl same
    · exact .inr ⟨j,later,by omega,same⟩
  · intro either
    rcases either with rfl | ⟨j,_,_,same⟩
    · exact ⟨i,Nat.le_refl _,by omega,rfl⟩
    · exact ⟨j,by omega,by omega,same⟩

theorem pagesFrom_snoc : pagesFrom base 0 (i + 1) p ↔ pagesFrom base 0 i p ∨ p = pageAt base i / frameSize := by
  constructor
  · intro inside
    obtain ⟨j,lower,_,same⟩ := inside
    rcases Nat.lt_or_ge j i with _ | _
    · exact .inl ⟨j,lower,by omega,same⟩
    · obtain rfl : j = i := by omega
      exact .inr same
  · intro either
    rcases either with ⟨j,lower,_,same⟩ | rfl
    · exact ⟨j,lower,by omega,same⟩
    · exact ⟨i,Nat.zero_le _,by omega,rfl⟩

theorem not_pagesFrom_zero (base i p : Nat) : ¬pagesFrom base i 0 p := by
  intro inside
  obtain ⟨_,_,_,_⟩ := inside
  omega

theorem Within.filled (first : Within (fun p => sp.Present p ∨ p = pageAt base i / frameSize) sp mid)
    (rest : Within (fun p => mid.Present p ∨ pagesFrom base (i + 1) pages p) mid sp') :
    Within (fun p => sp.Present p ∨ pagesFrom base i (pages + 1) p) sp sp' := by
  refine first.trans (rest.mono fun p after => ?_)
  rw [pagesFrom_succ]
  rcases after with there | later
  · exact (first.pages p there).imp id Or.inl
  · exact .inr (Or.inr later)

theorem unmapped_within (sp : AddressSpace cfg) (va : Nat) :
    Within (fun p => sp.Present p ∧ p ≠ va / frameSize) sp (sp.setArch (sp.arch.unmap va).2) := by
  refine ⟨fun p there => ?_,rfl,rfl⟩
  rw [Present, setArch_arch, unmap_pages] at there
  by_cases same : p = va / frameSize
  · rw [if_pos same] at there
    exact absurd rfl there
  · rw [if_neg same] at there
    exact ⟨there,same⟩

theorem unmap_within (unmapped : sp.arch.unmap va = (.ok frame, a)) :
    Within (fun p => sp.Present p ∧ p ≠ va / frameSize) sp (sp.setArch a) := by
  have within := unmapped_within sp va
  rwa [unmapped] at within

theorem protect_within (done : sp.arch.protect port va flags = (result, a)) :
    Within sp.Present sp (sp.setArch a) := by
  refine ⟨fun p there => ?_,rfl,rfl⟩
  rcases protect_pages done with ⟨_,_,_,_,here,pages⟩ | ⟨_,rfl⟩
  · rw [Present, setArch_arch, pages] at there
    by_cases same : p = va / frameSize
    · rw [same, Present, show sp.arch.pages (va / frameSize) = _ from here]
      exact some_ne_none _
    · rwa [Function.update_of_ne same] at there
  · exact there

theorem closeWindow_within (sp : AddressSpace cfg) (base pages i : Nat) :
    Within (fun p => sp.Present p ∧ ¬pagesFrom base i pages p) sp (sp.closeWindow base pages i) := by
  induction pages generalizing sp i with
  | zero => exact (Within.refl _).mono fun p there => ⟨there,not_pagesFrom_zero base i p⟩
  | succ pages ih =>
    have step := unmapped_within sp (pageAt base i)
    refine step.trans ((ih _ (i + 1)).mono fun p after => ?_)
    obtain ⟨before,other⟩ := step.pages p after.1
    exact ⟨before,fun inside => (pagesFrom_succ.mp inside).elim other after.2⟩

theorem unmapPages_within (done : sp.unmapPages base pages i = (result, sp')) :
    Within (fun p => sp.Present p ∧ (result = .ok () → ¬pagesFrom base i pages p)) sp sp' := by
  obtain ⟨_,_,rfl,all⟩ := unmapPages_space done
  exact (closeWindow_within ..).mono fun _ rest => ⟨rest.1,fun fine => all fine ▸ rest.2⟩

theorem protectPages_within
    (done : sp.protectPages port base rights pages i = (result, sp')) : Within sp.Present sp sp' := by
  induction pages generalizing sp i with
  | zero =>
    cases done
    exact .refl _
  | succ pages ih =>
    unfold protectPages at done
    split at done
    · cases done
      exact .refl _
    rename_i changed
    have step := protect_within changed
    exact step.trans ((ih done).mono step.pages)

section
variable [FrameSource σ] {source source' : σ}
variable {va base pages i : Nat} {flags rights : PageFlags} {e : KError} {frames made : List PhysFrame}

theorem map_within (done : sp.arch.map port va frame flags source = (result, a, source')) :
    Within (fun p => sp.Present p ∨ p = va / frameSize) sp (sp.setArch a) := by
  have touches : Touches port (· = va / frameSize) sp (sp.setArch a) := (map_edits (fun _ => rfl) done).touches
  refine ⟨fun p there => ?_,rfl,rfl⟩
  by_cases same : p = va / frameSize
  · exact .inr same
  · rw [Present, touches.pages p same] at there
    exact .inl there

theorem map_refused (done : sp.arch.map port va frame flags source = (.error e, a, source')) :
    Within sp.Present sp (sp.setArch a) := by
  refine ⟨fun _ there => ?_,rfl,rfl⟩
  rcases map_cases done with added | kept
  · cases added.1
  · rwa [Present, setArch_arch, kept.2] at there

theorem unmapAndFree_within (done : sp.unmapAndFree base source pages i batch reclaimed = (r, sp', source')) :
    Within (fun p => sp.Present p ∧ ¬pagesFrom base i pages p) sp sp' := by
  rw [unmapAndFree_space done]
  exact closeWindow_within ..

theorem Fills.within (fills : Fills port base rights pages i (.ok ()) sp sp') :
    Within (fun p => sp.Present p ∨ pagesFrom base i pages p) sp sp' := by
  generalize fine : Except.ok () = result at fills
  induction fills with
  | done => exact (Within.refl _).mono fun _ => Or.inl
  | empty => cases fine
  | refused => cases fine
  | next mapped _ ih => exact (map_within mapped).filled (ih fine)

theorem Fills.undone (fills : Fills port base rights pages i (.error e) sp sp') :
    Within (fun p => sp.Present p ∧ ¬pagesFrom base 0 i p) sp sp' := by
  generalize failed : Except.error e = result at fills
  induction fills with
  | done => cases failed
  | empty => exact closeWindow_within ..
  | refused mapped =>
    have step := map_refused mapped
    exact step.trans ((closeWindow_within ..).mono fun p after => ⟨step.pages p after.1,after.2⟩)
  | next mapped _ ih =>
    have step := map_within mapped
    refine step.trans ((ih failed).mono fun p after => ?_)
    rw [pagesFrom_snoc, not_or] at after
    exact ⟨(step.pages p after.1).resolve_right after.2.2,after.2.1⟩

theorem snapshotPages_within (done : sp.snapshotPages port src dst ro source pages i = (.ok (), sp', source')) :
    Within (fun p => sp.Present p ∨ pagesFrom dst i pages p) sp sp' := by
  induction pages generalizing sp source i with
  | zero =>
    cases done
    exact (Within.refl _).mono fun _ => Or.inl
  | succ pages ih =>
    unfold snapshotPages at done
    split at done
    · cases (Prod.mk.inj done).1
    split at done
    · cases (Prod.mk.inj done).1
    rename_i changed
    split at done
    · cases (Prod.mk.inj done).1
    rename_i reflagged _ second _ mapped
    have reflag : Within sp.Present sp (sp.setArch reflagged) := protect_within changed
    have step : Within (fun p => (sp.setArch reflagged).Present p ∨ p = pageAt dst i / frameSize) (sp.setArch reflagged)
        (sp.setArch second) := map_within mapped
    exact (reflag.trans (step.mono fun p => Or.imp_left (reflag.pages p))).filled (ih done)

end

/-- Every page is under a record, and the count is that of the records. -/
structure Housed (sp : AddressSpace cfg) : Prop where
  covered : ∀ p, sp.Present p → sp.Covers p
  counted : sp.mappingCount + sp.mappings.vacancies = cfg.maxMappings

theorem covers_congr (mappings : sp'.mappings = sp.mappings) : sp'.Covers p ↔ sp.Covers p := by
  unfold Covers
  rw [mappings]

section
variable (housed : Housed sp)
include housed

theorem Housed.within (within : Within s sp sp') (covered : ∀ p, s p → sp.Covers p) : Housed sp' := by
  refine ⟨fun p there => (covers_congr within.mappings).mpr (covered p (within.pages p there)),?_⟩
  rw [within.mappings, within.count]
  exact housed.counted

theorem Housed.same (arch : sp'.arch = sp.arch) (mappings : sp'.mappings = sp.mappings)
    (count : sp'.mappingCount = sp.mappingCount) : Housed sp' :=
  housed.within ⟨fun _ there => by rwa [Present, arch] at there,mappings,count⟩ housed.covered

theorem Housed.record (within : Within (fun p => sp.Present p ∨ pagesFrom base 0 (len / frameSize) p) sp mid)
    (baseAligned : base % frameSize = 0) (lenAligned : len % frameSize = 0) (room : sp.mappingCount < cfg.maxMappings)
    (rights : PageFlags) (backing : Backing) : Housed (mid.record base len rights backing) := by
  have counted := housed.counted
  unfold AddressSpace.record
  rw [within.mappings, within.count]
  split
  · rename_i full
    have := free?_eq_none.mp full
    omega
  rename_i i free
  obtain ⟨inside,empty⟩ := free?_eq_some free
  have used := vacancies_put inside empty ⟨base, len, rights, backing⟩
  refine ⟨fun p there => ?_,by dsimp only; omega⟩
  rcases within.pages p there with old | new
  · obtain ⟨j,m,cell,covers⟩ := housed.covered p old
    exact ⟨j,m,cell_put_of_empty _ empty cell _,covers⟩
  · exact ⟨i,⟨base, len, rights, backing⟩,cell_put_self _ inside _, (covers_page_iff baseAligned lenAligned).mpr new⟩

theorem Housed.drop (cell : sp.mappings.cell idx = some m) (aligned : m.base % frameSize = 0 ∧ m.len % frameSize = 0)
    (pages : ∀ p, sp'.Present p → sp.Present p ∧ ¬pagesFrom m.base 0 (m.len / frameSize) p)
    (mappings : sp'.mappings = sp.mappings.clear idx) (count : sp'.mappingCount = sp.mappingCount - 1) :
    Housed sp' := by
  have counted := housed.counted
  have freed := vacancies_clear cell
  have bound : (sp.mappings.clear idx).vacancies ≤ (sp.mappings.clear idx).cells.length := countP_le_length
  rw [(sp.mappings.clear idx).size] at bound
  refine ⟨fun p there => ?_,?_⟩
  · obtain ⟨before,outside⟩ := pages p there
    obtain ⟨j,n,there,covers⟩ := housed.covered p before
    refine ⟨j,n,?_,covers⟩
    rw [mappings, cell_clear, if_neg]
    · exact there
    intro same
    rw [← same, cell] at there
    cases there
    exact outside ((covers_page_iff aligned.1 aligned.2).mp covers)
  · rw [mappings, count]
    omega

theorem Housed.revise (m' : Mapping) (cell : sp.mappings.cell idx = some m)
    (base : m'.base = m.base) (len : m'.len = m.len) (arch : sp'.arch = sp.arch)
    (mappings : sp'.mappings = sp.mappings.put idx m') (count : sp'.mappingCount = sp.mappingCount) : Housed sp' := by
  have counted := housed.counted
  refine ⟨fun p there => ?_,?_⟩
  · rw [Present, arch] at there
    obtain ⟨j,n,here,covers⟩ := housed.covered p there
    by_cases same : idx = j
    · subst same
      rw [cell] at here
      cases here
      refine ⟨idx,m',?_,?_⟩
      · rw [mappings, cell_put_self _ (lt_of_cell cell)]
      · rw [Mapping.covers_iff] at covers ⊢
        rwa [base, len]
    · refine ⟨j,n,?_,covers⟩
      rw [mappings, put, cell_assign_ne _ same]
      exact here
  · rw [mappings, count, vacancies_replace cell]
    exact counted

end

theorem housed_fromArch {arch : ArchSpace} (empty : ∀ p, arch.pages p = none) :
    Housed (fromArch arch : AddressSpace cfg) := by
  refine ⟨fun p there => absurd (empty p) there,?_⟩
  simp only [fromArch, Slots.vacancies, Slots.empty, Nat.zero_add]
  rw [countP_eq_length.mpr fun _ mem => by rw [eq_of_mem_replicate mem]; rfl, length_replicate]

theorem Orderly.covers (orderly : Orderly port sp) (found : sp.mappingCovering va = some m) :
    sp.Covers (va / frameSize) := by
  obtain ⟨covers,i,cell⟩ := mappingCovering_some found
  exact ⟨i,m,cell,(Mapping.covers_floor (orderly.aligned i m cell)).mpr covers⟩

section
variable (housed : Housed sp)
include housed

theorem Housed.mapLazy (done : sp.mapLazy port base len rights backing = (result, sp')) : Housed sp' := by
  rcases mapLazy_cases done with rfl | ⟨checked,rfl⟩
  · exact housed
  · obtain ⟨baseAligned,_,lenAligned,_,_,room⟩ := checkNew_ok checked
    exact housed.record ((Within.refl sp).mono fun _ => inl) baseAligned lenAligned room rights backing

theorem Housed.reflag (done : sp.reflag port va flags = (result, sp')) : Housed sp' := by
  rcases reflag_cases done with rfl | ⟨_,_,_,changed,rfl⟩
  · exact housed
  · exact housed.within (protect_within changed) housed.covered

theorem Housed.unmapRange (orderly : Orderly port sp)
    (done : sp.unmapRange base len = (result, sp')) : Housed sp' := by
  rcases unmapRange_cases done with rfl | ⟨idx,_,found,_,unmapped,⟨_,rfl⟩ | ⟨rfl,rfl⟩⟩
  · exact housed
  · exact housed.within (unmapPages_within unmapped) fun p there => housed.covered p there.1
  obtain ⟨m,cell,rfl,rfl⟩ := findExact_some found
  have within := unmapPages_within unmapped
  refine housed.drop cell (orderly.aligned idx m cell) (fun p there => (within.pages p there).imp id (· rfl)) ?_ ?_
  · rw [← within.mappings]
    rfl
  · rw [← within.count]
    rfl

theorem Housed.protectRange (done : sp.protectRange port base len rights = (result, sp')) : Housed sp' := by
  rcases protectRange_cases done with rfl | ⟨_,idx,mid,found,changed,ends⟩
  · exact housed
  have within := protectPages_within changed
  rcases ends with ⟨_,rfl⟩ | ⟨_,rfl⟩
  · exact housed.within within housed.covered
  obtain ⟨m,cell,_,_⟩ := findExact_some found
  have there : mid.mappings.cell idx = some m := by rw [within.mappings]; exact cell
  refine (housed.within within housed.covered).revise { m with rights } there rfl rfl rfl ?_ rfl
  simp [changeRecord, there, put]

end

section
variable [FrameSource σ] {source source' : σ} {out : FaultOutcome}

section
variable (housed : Housed sp)
include housed

theorem Housed.mapAnonymous
    (done : sp.mapAnonymous port base len rights source = (result, sp', source')) : Housed sp' := by
  rcases mapAnonymous_cases done with ⟨rfl,_⟩ | ⟨ok,_,filled,⟨⟨_,rfl⟩,rfl⟩ | ⟨rfl,rfl⟩⟩
  · exact housed
  · exact housed.within (fillPages_fills filled).undone fun p there => housed.covered p there.1
  · obtain ⟨baseAligned,_,lenAligned,_,_,room⟩ := checkNew_ok ok
    exact (housed.record (fillPages_fills filled).within baseAligned lenAligned room rights .anonymous).same rfl rfl rfl

theorem Housed.mapShared
    (done : sp.mapShared port base rights obj baseOffset frames source = (result, sp', source')) : Housed sp' := by
  rcases mapShared_cases done with ⟨rfl,_⟩ | ⟨ok,mid,shared,⟨⟨_,rfl⟩,rfl⟩ | ⟨rfl,rfl⟩⟩
  · exact housed
  · exact housed.within (sharePages_fills shared).undone fun p there => housed.covered p there.1
  obtain ⟨baseAligned,_,lenAligned,_,_,room⟩ := checkNew_ok ok
  have within : Within (fun p => sp.Present p ∨ pagesFrom base 0 (frames.length * frameSize / frameSize) p) sp mid := by
    rw [Nat.mul_div_cancel _ (by decide)]
    exact (sharePages_fills shared).within
  exact (housed.record within baseAligned lenAligned room rights (.shared obj baseOffset)).same rfl rfl rfl

theorem Housed.evictPage (done : sp.evictPage va source = (result, sp', source')) : Housed sp' := by
  rcases evictPage_cases done with ⟨rfl,_⟩ | ⟨_,_,unmapped,rfl,_⟩
  · exact housed
  · have taken := housed.within (unmap_within unmapped) fun p there => housed.covered p there.1
    exact taken.same rfl rfl rfl

section
variable (orderly : Orderly port sp)
include orderly

theorem Housed.reclaimRange (done : sp.reclaimRange base len source = (result, sp', source')) : Housed sp' := by
  rcases reclaimRange_cases done with ⟨rfl,_⟩ | ⟨idx,_,_,found,loop,rfl⟩
  · exact housed
  obtain ⟨m,cell,rfl,rfl⟩ := findExact_some found
  have within := unmapAndFree_within loop
  refine housed.drop cell (orderly.aligned idx m cell) within.pages ?_ ?_
  · rw [← within.mappings]
    rfl
  · rw [← within.count]
    rfl

theorem Housed.map (found : sp.mappingCovering va = some m)
    (done : sp.arch.map port (alignDown va) frame flags source = (result, a, source')) : Housed (sp.setArch a) := by
  refine housed.within (map_within done) fun p there => ?_
  rcases there with old | rfl
  · exact housed.covered p old
  · rw [alignDown_div]
    exact orderly.covers found

theorem Housed.installObjectPage
    (done : sp.installObjectPage port va frame source = (result, sp', source')) : Housed sp' := by
  rcases installObjectPage_cases done with ⟨rfl,_⟩ | ⟨_,_,_,found,mapped,⟨_,rfl,_⟩ | ⟨_,rfl,_⟩⟩
  · exact housed
  · exact housed.map orderly found mapped
  · exact (housed.map orderly found mapped).same rfl rfl rfl

theorem Housed.resolveFault (done : sp.resolveFault port va write source = (out, sp', source')) : Housed sp' := by
  rcases resolveFault_cases done with ⟨_,rfl,_⟩ | ⟨_,found,⟨_,_,filled⟩ | ⟨_,_,copied⟩⟩
  · exact housed
  · rcases demandFill_cases filled with ⟨rfl,_⟩ | ⟨_,_,_,_,_,_,mapped,⟨_,rfl,_⟩ | ⟨_,rfl,_⟩⟩
    · exact housed
    · exact housed.map orderly found mapped
    · exact (housed.map orderly found mapped).same rfl rfl rfl
  · rcases cowCopy_ends copied with ⟨_,rfl,_⟩ | ⟨_,_,_,_,arch,_,_,_,_,_,unmapped,mapped,rfl,_⟩
    · exact housed
    have edits : Edits port (fun _ _ => True) sp (sp.setArch arch) := unmap_edits trivial unmapped
    have cleared := housed.within (unmap_within unmapped) fun p there => housed.covered p there.1
    have placed := cleared.map (orderly.kept edits.mappings edits.walked) found mapped
    exact placed

end

theorem Housed.snapshotCow (done : sp.snapshotCow port src dst len source = (.ok (), sp', source')) : Housed sp' := by
  rcases snapshotCow_cases done with ⟨⟨_,failed⟩,_⟩ |
    ⟨_,dstAligned,whole,_,room,idx,m,mid,_,cell,copied,⟨⟨_,failed⟩,_⟩ | ⟨_,rfl⟩⟩
  · cases failed
  · cases failed
  have within := snapshotPages_within copied
  have revised : Housed (sp.changeRecord idx fun m => { m with backing := .cow }) := by
    refine housed.revise { m with backing := .cow } cell rfl rfl rfl ?_ rfl
    simp [changeRecord, cell, put]
  have copied : Within (fun p => (sp.changeRecord idx fun m => { m with backing := .cow }).Present p ∨
      pagesFrom dst 0 (len / frameSize) p) (sp.changeRecord idx fun m => { m with backing := .cow })
      (mid.changeRecord idx fun m => { m with backing := .cow }) := by
    refine ⟨within.pages,?_,within.count⟩
    simp [changeRecord, within.mappings]
  exact (revised.record copied dstAligned whole room m.rights .cow).same rfl rfl rfl

end

end
end AddressSpace
end Tessera
