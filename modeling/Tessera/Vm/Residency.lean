import Tessera.Lib.Transition
import Tessera.Vm.OrderlyRecords

/-!
What a mapping record says about the page tables. An eagerly made mapping has
every page there with the rights of its record, for as long as the record stands;
a copy-on-write mapping has every page there to be read. Demand-zero and
pager-backed mappings promise nothing, since their pages come in on faults.
-/
namespace Tessera
open Option Slots ArchSpace AddressSpace Mapping
variable {cfg : Config} {σ : Type} {port : ArchPort}

/-- The backings whose pages are all mapped when the record is made, with its rights. -/
def Backing.isEager : Backing → Bool
  | .anonymous | .shared _ _ => true
  | _ => false

def Backing.isLazy : Backing → Bool
  | .anonymousDemand | .object _ _ => true
  | _ => false

namespace AddressSpace
variable {sp sp' mid : AddressSpace cfg} {s : Nat → Prop}

/-- What the page-table entry of a page has to be under its record. -/
def Backed (port : ArchPort) (m : Mapping) (entry : Option (PhysFrame × PageFlags)) : Prop :=
  match m.backing with
  | .anonymous | .shared _ _ => ∃ f, entry = some (f, m.rights)
  | .cow => port.accepts m.rights = true →
      ∃ f fl, entry = some (f, fl) ∧ fl.isUser = m.rights.isUser ∧ (m.rights.readable = true → fl.readable = true)
  | .anonymousDemand | .object _ _ => True

structure Resident (port : ArchPort) (sp : AddressSpace cfg) : Prop where
  aligned : ∀ i m, sp.mappings.cell i = some m → m.base % frameSize = 0 ∧ m.len % frameSize = 0
  plain : ∀ i m, sp.mappings.cell i = some m → m.rights.isWx = false
  apart : ∀ i j m n va, sp.mappings.cell i = some m → sp.mappings.cell j = some n →
    m.covers va = true → n.covers va = true → i = j
  walked : sp.arch.Walked port
  backed : ∀ i m p, sp.mappings.cell i = some m → m.covers (p * frameSize) = true → Backed port m (sp.arch.pages p)

variable {m n : Mapping} {entry : Option (PhysFrame × PageFlags)} {f frame : PhysFrame}
  {base len idx p i va pages : Nat} {rights : PageFlags} {backing : Backing} {result : Except KError Unit}
  {out : FaultOutcome}

theorem Backed.of_missing (missing : Backed port m none) : Backed port m entry := by
  unfold Backed at *
  split at missing
  · simp at missing
  · simp at missing
  · intro accepted
    obtain ⟨_,_,contra,_⟩ := missing accepted
    cases contra
  · trivial
  · trivial

theorem Backed.of_rights : Backed port m (some (f, m.rights)) := by
  unfold Backed
  split
  · exact ⟨f,rfl⟩
  · exact ⟨f,rfl⟩
  · exact fun _ => ⟨f,m.rights,rfl,rfl,id⟩
  · trivial
  · trivial

theorem Backed.of_lazy (lazy : m.backing.isLazy = true) : Backed port m entry := by
  unfold Backed
  cases backing : m.backing <;> simp_all [Backing.isLazy]

theorem Backed.of_readOnly (notEager : m.backing.isEager = false) : Backed port m (some (f, readOnly m.rights)) := by
  unfold Backed
  cases backing : m.backing with
  | anonymous | shared => simp [backing, Backing.isEager] at notEager
  | cow => exact fun _ => ⟨f,_,rfl,rfl,fun _ => rfl⟩
  | anonymousDemand | object => trivial

theorem Resident.orderly (resident : Resident port sp) : Orderly port sp :=
  ⟨resident.aligned,resident.plain,resident.apart,resident.walked⟩

theorem Orderly.resident (orderly : Orderly port sp) (backed : ∀ i m p, sp.mappings.cell i = some m →
    m.covers (p * frameSize) = true → Backed port m (sp.arch.pages p)) : Resident port sp :=
  ⟨orderly.aligned,orderly.plain,orderly.apart,orderly.walked,backed⟩

section
variable (resident : Resident port sp)
include resident

theorem Resident.touches (touches : Touches port s sp sp')
    (inside : ∀ p, s p → ∀ i m, sp.mappings.cell i = some m → m.covers (p * frameSize) = true →
      Backed port m (sp'.arch.pages p)) : Resident port sp' := by
  refine (resident.orderly.touches touches).resident fun i m p cell covers => ?_
  rw [touches.mappings] at cell
  by_cases touched : s p
  · exact inside p touched i m cell covers
  · rw [touches.pages p touched]
    exact resident.backed i m p cell covers

theorem Resident.uncovered (touches : Touches port s sp sp')
    (outside : ∀ p, s p → ¬sp.Covers p) : Resident port sp' :=
  resident.touches touches fun p touched i m cell covers => absurd ⟨i,m,cell,covers⟩ (outside p touched)

theorem Resident.keeps (touches : Touches port (fun p => sp.arch.pages p = none) sp sp') : Resident port sp' := by
  refine resident.touches touches fun p missing i m cell covers => ?_
  have before := resident.backed i m p cell covers
  rw [missing] at before
  exact before.of_missing

theorem Resident.same (arch : sp'.arch = sp.arch) (mappings : sp'.mappings = sp.mappings) : Resident port sp' :=
  resident.touches (s := fun _ => False) ⟨fun _ _ => by rw [arch],mappings,by rw [arch]; exact id⟩
    fun _ none => none.elim

theorem Resident.record (baseAligned : base % frameSize = 0)
    (lenAligned : len % frameSize = 0) (plain : rights.isWx = false)
    (apart : ∀ i m va, sp.mappings.cell i = some m → m.covers va = true → ¬(base ≤ va ∧ va < base + len))
    (backed : ∀ p, base ≤ p * frameSize → p * frameSize < base + len →
      Backed port ⟨base, len, rights, backing⟩ (sp.arch.pages p)) :
    Resident port (sp.record base len rights backing) := by
  refine (resident.orderly.record baseAligned lenAligned plain apart).resident fun j m p cell covers => ?_
  unfold AddressSpace.record at cell ⊢
  split at cell
  · exact resident.backed j m p cell covers
  rcases cell_put_cases cell with new | old
  · rw [new.2] at covers ⊢
    obtain ⟨lower,upper⟩ := covers_iff.mp covers
    exact backed p lower upper
  · exact resident.backed j m p old.2 covers

theorem Resident.revise (cell : sp.mappings.cell idx = some m) (touches : Touches port s sp mid)
    (within : ∀ p, s p → m.covers (p * frameSize) = true ∨ ¬sp.Covers p)
    (revised : ∀ m', c = some m' → m'.base = m.base ∧ m'.len = m.len ∧ m'.rights.isWx = false ∧
      ∀ p, m.covers (p * frameSize) = true → Backed port m' (mid.arch.pages p)) (arch : sp'.arch = mid.arch)
    (mappings : sp'.mappings = sp.mappings.assign idx c) : Resident port sp' := by
  have inside := lt_of_cell cell
  have orderly : Orderly port sp' := by
    refine (resident.orderly.touches touches).revise idx (c := c) (fun m' new => ?_) arch
      (mappings.trans (by rw [touches.mappings]))
    obtain ⟨base,len,plain,_⟩ := revised m' new
    exact ⟨m,touches.mappings ▸ cell,base,len,plain⟩
  refine orderly.resident fun j n p there covers => ?_
  rw [mappings, cell_assign] at there
  rw [arch]
  split at there
  · obtain ⟨base,len,_,backed⟩ := revised n there
    rw [covers_iff, base, len, ← covers_iff] at covers
    exact backed p covers
  rename_i other
  have untouched : ¬s p := by
    intro touched
    rcases within p touched with own | none
    · exact other ⟨(resident.apart j idx n m _ there cell covers own).symm,inside⟩
    · exact none ⟨j,n,there,covers⟩
  rw [touches.pages p untouched]
  exact resident.backed j n p there covers

theorem Resident.holds (cell : sp.mappings.cell i = some m) :
    Holds (fun p => m.covers (p * frameSize) = true) m.base 0 (m.len / frameSize) := by
  obtain ⟨base,len⟩ := resident.aligned i m cell
  intro j lower upper
  exact (covers_page_iff base len).mpr ⟨j,lower,upper,rfl⟩

theorem Resident.filled (cell : sp.mappings.cell i = some m) :
    Filled sp (fun _ => True) m.base 0 (m.len / frameSize) ∨ ∀ entry, Backed port m entry := by
  by_cases free : Backed port m none
  · exact .inr fun entry => free.of_missing
  left
  intro j lower upper
  have backed := resident.backed i m _ cell (resident.holds cell j lower upper)
  cases there : sp.arch.pages (pageAt m.base j / frameSize) with
  | none =>
    rw [there] at backed
    exact absurd backed free
  | some entry => exact ⟨entry.1,entry.2,rfl,trivial⟩

theorem Resident.filledRecord (backing : Backing)
    (baseAligned : base % frameSize = 0) (lenAligned : len % frameSize = 0) (plain : rights.isWx = false)
    (apart : sp.overlaps base len = false) (filled : Filled sp (· = rights) base 0 (len / frameSize)) :
    Resident port (sp.recordMapped base len rights backing) := by
  have recorded : Resident port (sp.record base len rights backing) := by
    refine resident.record baseAligned lenAligned plain (apart_of_overlaps apart) fun p lower upper => ?_
    let m : Mapping := ⟨base, len, rights, backing⟩
    have covers : m.covers (p * frameSize) = true := covers_iff.mpr ⟨lower,upper⟩
    obtain ⟨_,_,there,same⟩ := Filled.under (m := m) baseAligned lenAligned filled covers
    rw [there, same]
    exact Backed.of_rights
  exact recorded.same rfl rfl

theorem Resident.mapLazy (free : ∀ entry, Backed port ⟨base, len, rights, backing⟩ entry)
    (done : sp.mapLazy port base len rights backing = (result, sp')) : Resident port sp' := by
  rcases mapLazy_cases done with rfl | ⟨checked,rfl⟩
  · exact resident
  · obtain ⟨baseAligned,_,lenAligned,plain,apart,_⟩ := checkNew_ok checked
    exact resident.record baseAligned lenAligned plain (apart_of_overlaps apart) fun p _ _ => free _

theorem Resident.unmapDevicePages (outside : ∀ j < pages, ¬sp.Covers (pageAt va j / frameSize)) :
    Resident port (sp.unmapDevicePages va pages) := by
  have touches : Touches port (pagesFrom va 0 pages) sp (sp.closeWindow va pages 0) :=
    (closeWindow_edits sp (holds_pagesFrom va 0 pages)).touches
  refine resident.uncovered touches fun p inside => ?_
  obtain ⟨j,_,_,rfl⟩ := inside
  exact outside j (by omega)

theorem Resident.unmapDevicePage (outside : ¬sp.Covers (va / frameSize)) :
    Resident port (sp.unmapDevicePage va).2 := by
  unfold AddressSpace.unmapDevicePage
  split
  · exact resident
  rename_i unmapped
  have touches : Touches port (· = va / frameSize) sp (sp.setArch _) := (unmap_edits rfl unmapped).touches
  exact resident.uncovered touches fun p same => same ▸ outside

theorem Resident.reflag (served : ∀ m f, sp.mappingCovering va = some m → Backed port m (some (f, flags m.rights)))
    (done : sp.reflag port va flags = (result, sp')) : Resident port sp' := by
  rcases reflag_cases done with rfl | ⟨m,arch,found,changed,rfl⟩
  · exact resident
  have touches : Touches port (· = va / frameSize) sp (sp.setArch arch) :=
    (protect_edits (fun _ => alignDown_div va) changed).touches
  refine resident.touches touches fun p here i n cell covers => ?_
  have same : n = m := resident.orderly.page_unique found cell (here ▸ covers)
  rcases protect_pages changed with ⟨_,_,f,_,_,pages⟩ | ⟨_,rfl⟩
  · rw [here, same]
    simpa [pages] using served m f found
  · exact resident.backed i n p cell covers

theorem findExact_resident (found : sp.findExact base len = some idx) :
    ∃ m, sp.mappings.cell idx = some m ∧ m.base = base ∧ m.len = len ∧
      Holds (fun p => m.covers (p * frameSize) = true) base 0 (len / frameSize) := by
  obtain ⟨m,cell,base,len⟩ := findExact_some found
  subst base len
  exact ⟨m,cell,rfl,rfl,resident.holds cell⟩

theorem Resident.within (cell : sp.mappings.cell idx = some m) (free : ∀ entry, Backed port m entry)
    (touches : Touches port (fun p => m.covers (p * frameSize) = true) sp sp') : Resident port sp' := by
  refine resident.touches touches fun p inside i n cellN covers => ?_
  cases resident.orderly.one_record cellN cell covers inside
  exact free _

theorem Resident.drop (cell : sp.mappings.cell idx = some m)
    (touches : Touches port (fun p => m.covers (p * frameSize) = true) sp mid) (arch : sp'.arch = mid.arch)
    (mappings : sp'.mappings = mid.mappings.clear idx) : Resident port sp' :=
  resident.revise (c := none) cell touches (fun _ => Or.inl) (fun _ none => by cases none) arch
    (touches.mappings ▸ mappings)

theorem Resident.unmapRange (done : sp.unmapRange base len = (result, sp')) : Resident port sp' := by
  rcases unmapRange_cases done with rfl | ⟨_,mid,found,_,unmapped,ends⟩
  · exact resident
  obtain ⟨_,cell,rfl,rfl,holds⟩ := findExact_resident resident found
  have touches : Touches port _ sp mid := (unmapPages_edits holds unmapped).touches
  rcases ends with ⟨⟨_,rfl⟩,rfl⟩ | ⟨rfl,rfl⟩
  · rcases resident.filled cell with filled | free
    · have done := unmapPages_filled filled
      rw [unmapped] at done
      cases done
    · exact resident.within cell free touches
  · exact resident.drop cell touches rfl rfl

theorem Resident.protectRange (done : sp.protectRange port base len rights = (result, sp')) : Resident port sp' := by
  rcases protectRange_cases done with rfl | ⟨plain,idx,mid,found,changed,ends⟩
  · exact resident
  obtain ⟨m,cell,rfl,rfl,holds⟩ := findExact_resident resident found
  have touches : Touches port _ sp mid := (protectPages_edits (fun _ => holds) changed).touches
  rcases ends with ⟨⟨_,rfl⟩,rfl⟩ | ⟨rfl,rfl⟩
  · rcases resident.filled cell with filled | free
    · rcases protectPages_filled filled changed with done | kept
      · cases done
      · exact kept ▸ resident
    · exact resident.within cell free touches
  obtain ⟨base,len⟩ := resident.aligned idx m cell
  refine resident.revise (c := some { m with rights }) cell touches (fun p inside => Or.inl inside) ?_ rfl ?_
  · intro _ new
    cases new
    refine ⟨rfl,rfl,plain,fun p covers => ?_⟩
    obtain ⟨_,_,there,same⟩ := (protectPages_ok changed).under base len covers
    rw [there, same]
    exact Backed.of_rights (m := { m with rights })
  · simp [changeRecord, touches.mappings, cell]

end

variable {source source' : σ}

theorem Resident.backingAt (resident : Resident port sp) (cell : sp.mappings.cell i = some m)
    (covers : m.covers (alignDown va) = true) : sp.backingAt va = some m.backing := by
  have coversVa : m.covers va = true := by
    rw [← alignDown_eq] at covers
    exact (covers_floor (resident.aligned i m cell)).mp covers
  cases found : sp.mappingCovering va with
  | none =>
    have outside := find?_eq_none.mp found i m cell
    rw [coversVa] at outside
    cases outside
  | some => rw [AddressSpace.backingAt, found, resident.orderly.cell_unique found cell coversVa, Option.map_some]

theorem resident_fromArch {arch : ArchSpace} (walked : arch.Walked port) :
    Resident port (fromArch arch : AddressSpace cfg) := by
  refine ⟨?_,?_,?_,walked,?_⟩
  · intro _ _ cell
    simp [fromArch] at cell
  · intro _ _ cell
    simp [fromArch] at cell
  · intro _ _ _ _ _ cell
    simp [fromArch] at cell
  · intro _ _ _ cell
    simp [fromArch] at cell

variable [FrameSource σ]

section
variable (resident : Resident port sp)
include resident

theorem Resident.reclaimRange
    (done : sp.reclaimRange base len source = (result, sp', source')) : Resident port sp' := by
  rcases reclaimRange_cases done with ⟨rfl,_⟩ | ⟨_,_,mid,found,reclaimed,rfl⟩
  · exact resident
  obtain ⟨_,cell,rfl,rfl,holds⟩ := findExact_resident resident found
  have touches : Touches port _ sp mid := (unmapAndFree_edits holds reclaimed).touches
  exact resident.drop cell touches rfl rfl

theorem Resident.fills (backing : Backing) (checked : sp.checkNew port base len rights = .ok ())
    (fills : Fills port base rights (len / frameSize) 0 result sp mid) :
    Resident port mid ∧ (result = .ok () → Resident port (mid.recordMapped base len rights backing)) := by
  obtain ⟨baseAligned,_,lenAligned,plain,apart,_⟩ := checkNew_ok checked
  have holds := holds_pagesFrom base 0 (len / frameSize)
  have touches : Touches port (pagesFrom base 0 (len / frameSize)) sp mid :=
    (fills.edits ((Nat.zero_add _).symm ▸ holds) fun _ => holds).touches
  have outside := resident.uncovered touches fun p inside => not_covers_pagesFrom baseAligned lenAligned apart inside
  refine ⟨outside,fun fine => ?_⟩
  subst fine
  exact outside.filledRecord backing baseAligned lenAligned plain
    ((overlaps_congr touches.mappings base len).trans apart) fills.filled.1

theorem Resident.mapAnonymous
    (done : sp.mapAnonymous port base len rights source = (result, sp', source')) : Resident port sp' := by
  rcases mapAnonymous_cases done with ⟨rfl,_⟩ | ⟨checked,_,filled,ends⟩
  · exact resident
  obtain ⟨outside,recorded⟩ := resident.fills .anonymous checked (fillPages_fills filled)
  rcases ends with ⟨_,rfl⟩ | ⟨fine,rfl⟩
  · exact outside
  · exact recorded fine

theorem Resident.mapShared
    (done : sp.mapShared port base rights obj baseOffset frames source = (result, sp', source')) :
    Resident port sp' := by
  rcases mapShared_cases done with ⟨rfl,_⟩ | ⟨checked,_,shared,ends⟩
  · exact resident
  have count : frames.length * frameSize / frameSize = frames.length := Nat.mul_div_cancel _ (by decide)
  obtain ⟨outside,recorded⟩ := resident.fills (.shared obj baseOffset) checked (count ▸ sharePages_fills shared)
  rcases ends with ⟨_,rfl⟩ | ⟨fine,rfl⟩
  · exact outside
  · exact recorded fine

theorem Resident.mapDeviceRange
    (done : sp.mapDeviceRange port va first pages reach source = (result, sp', source')) : Resident port sp' :=
  resident.keeps ((windowPages_fills done).keeps (fun _ there => there) fun j _ upper => absurd upper (Nat.not_lt_zero j))

theorem Resident.map
    (done : sp.arch.map port va frame flags source = (result, a, source')) : Resident port (sp.setArch a) :=
  resident.keeps (map_keeps (fun _ there => there) done)

theorem Resident.installObjectPage
    (done : sp.installObjectPage port va frame source = (result, sp', source')) : Resident port sp' := by
  rcases installObjectPage_cases done with ⟨rfl,_⟩ | ⟨_,_,_,_,mapped,⟨_,rfl,_⟩ | ⟨_,rfl,_⟩⟩
  · exact resident
  · exact resident.map mapped
  · exact (resident.map mapped).same rfl rfl

theorem Resident.evictPage
    (lazy : ∀ i m, sp.mappings.cell i = some m → m.covers (alignDown va) = true → m.backing.isLazy = true)
    (done : sp.evictPage va source = (result, sp', source')) : Resident port sp' := by
  rcases evictPage_cases done with ⟨rfl,_⟩ | ⟨_,arch,unmapped,rfl,_⟩
  · exact resident
  have touches : Touches port (· = va / frameSize) sp (sp.setArch arch) :=
    (unmap_edits (alignDown_div va) unmapped).touches
  have evicted : Resident port (sp.setArch arch) := by
    refine resident.touches touches fun p here i m cell covers => ?_
    rw [here, alignDown_eq] at covers
    exact Backed.of_lazy (lazy i m cell covers)
  exact evicted.same rfl rfl

/-- A copy puts the page back with the record's rights. It can lose the page only
    where the port has no way to express them. -/
theorem Resident.cowCopy (found : sp.mappingCovering va = some m)
    (cow : m.backing = .cow) (done : sp.cowCopy port (alignDown va) m.rights source = (out, sp', source')) :
    Resident port sp' := by
  rcases cowCopy_ends done with ⟨_,rfl,_⟩ | ⟨_,_,_,_,arch,_,_,_,_,_,unmapped,mapped,rfl,ends⟩
  · exact resident
  have here := alignDown_div va
  have taken : Edits port (fun p _ => p = va / frameSize) sp (sp.setArch arch) := unmap_edits here unmapped
  refine resident.touches (taken.trans (map_edits (fun _ => here) mapped)).touches fun p same j n cellN covers => ?_
  cases resident.orderly.page_unique found cellN (same ▸ covers)
  rcases ends with ⟨⟨_,rfl⟩,_⟩ | ⟨rfl,_⟩
  · unfold Backed
    rw [cow]
    intro accepted
    -- with rights the port accepts, putting the page back does not fail
    have aligned : alignDown va % frameSize = 0 := by
      simp only [alignDown, frameSize]
      omega
    have again := map_again resident.walked unmapped aligned (resident.plain j m cellN) accepted mapped
    cases again
  · obtain ⟨_,_,filled,rights⟩ := map_filled mapped
    rw [same, ← here, show (setArch _ _).arch.pages _ = _ from filled, rights]
    exact Backed.of_rights

theorem Resident.resolveFault
    (done : sp.resolveFault port va write source = (out, sp', source')) : Resident port sp' := by
  rcases resolveFault_cases done with ⟨_,rfl,_⟩ | ⟨_,found,⟨_,_,filled⟩ | ⟨cow,_,copied⟩⟩
  · exact resident
  · rcases demandFill_cases filled with ⟨rfl,_⟩ | ⟨_,_,_,_,_,_,mapped,⟨_,rfl,_⟩ | ⟨_,rfl,_⟩⟩
    · exact resident
    · exact resident.map mapped
    · exact (resident.map mapped).same rfl rfl
  · exact resident.cowCopy found cow copied

theorem Resident.snapshotCow
    (done : sp.snapshotCow port src dst len source = (.ok (), sp', source')) : Resident port sp' := by
  rcases snapshotCow_cases done with ⟨⟨_,failed⟩,_⟩ |
    ⟨srcAligned,dstAligned,whole,apart,_,idx,m,mid,found,cell,copied,⟨⟨_,failed⟩,_⟩ | ⟨_,rfl⟩⟩
  · cases failed
  · cases failed
  obtain ⟨_,cell',rfl,rfl⟩ := findExact_some found
  rw [cell] at cell'
  cases cell'
  have srcHolds := resident.holds cell
  let s := fun p => m.covers (p * frameSize) = true ∨ pagesFrom dst 0 (m.len / frameSize) p
  have touches : Touches port s sp mid :=
    (snapshotPages_edits (fun _ j lower upper => Or.inl (srcHolds j lower upper))
      (fun _ j lower upper => Or.inr ⟨j,lower,upper,rfl⟩) copied).touches
  have outside : ∀ p, pagesFrom dst 0 (m.len / frameSize) p → ¬sp.Covers p :=
    fun p inside => not_covers_pagesFrom dstAligned whole apart inside
  have disjoint : ∀ a b, 0 ≤ a → a < 0 + m.len / frameSize → 0 ≤ b → b < 0 + m.len / frameSize →
      pageAt m.base a / frameSize ≠ pageAt dst b / frameSize := by
    intro a b _ belowA _ belowB same
    apply outside _ ⟨b,Nat.zero_le _,belowB,same⟩
    exact ⟨idx,m,cell,srcHolds a (Nat.zero_le _) belowA⟩
  obtain ⟨srcFilled,dstFilled⟩ := snapshotPages_ok disjoint copied
  have lazily : Resident port (mid.changeRecord idx fun m => { m with backing := .cow }) := by
    refine resident.revise (c := some { m with backing := .cow }) cell touches (fun p inside => ?_) ?_ rfl ?_
    · exact inside.imp id (outside p)
    · intro _ new
      cases new
      refine ⟨rfl,rfl,resident.plain idx m cell,fun p covers => ?_⟩
      obtain ⟨_,_,there,same⟩ := srcFilled.under srcAligned whole covers
      rw [there, same]
      exact Backed.of_readOnly (m := { m with backing := .cow }) rfl
    · simp [changeRecord, touches.mappings, cell]
  have recorded : Resident port ((mid.changeRecord idx fun m => { m with backing := .cow }).record dst m.len
      m.rights .cow) := by
    refine lazily.record dstAligned whole (resident.plain idx m cell) (fun i n va there covers inside => ?_) ?_
    · simp only [changeRecord, touches.mappings, cell, cell_assign] at there
      split at there
      · cases there
        exact apart_of_overlaps apart idx m va cell covers inside
      · exact apart_of_overlaps apart i n va there covers inside
    · intro p lower upper
      let n : Mapping := ⟨dst, m.len, m.rights, .cow⟩
      have covers : n.covers (p * frameSize) = true := covers_iff.mpr ⟨lower,upper⟩
      obtain ⟨_,_,there,same⟩ := Filled.under (m := n) dstAligned whole dstFilled covers
      rw [show (mid.changeRecord idx _).arch.pages p = _ from there, same]
      exact Backed.of_readOnly (m := n) rfl
  exact recorded.same rfl rfl

end

/-- The discipline under which records keep their promise: pages that a record needs
    are not evicted, write-protected or taken down as device pages, and no snapshot
    stops half way. -/
def KeepsResident (port : ArchPort) (sp : AddressSpace cfg) (source : σ) : VmAction → Prop
  | .unmapDevicePages va pages => ∀ j < pages, sp.mappingCovering (alignDown (pageAt va j)) = none
  | .unmapDevicePage va => sp.mappingCovering (alignDown va) = none
  | .reprotectRo va => ∀ b, sp.backingAt va = some b → b.isEager = false
  | .evictPage va => ∀ b, sp.backingAt va = some b → b.isLazy = true
  | .snapshotCow src dst len => ∀ e stopped rest,
      sp.snapshotCow port src dst len source = (.error e, stopped, rest) → stopped = sp
  | _ => True

theorem Resident.perform {next : Option (AddressSpace cfg)} (resident : Resident port sp)
    (kept : sp.KeepsResident port source a) (done : sp.perform port source a = (next, source')) :
    ∀ sp', next = some sp' → Resident port sp' := by
  intro _ after
  subst after
  cases a with cases done
  | mapAnonymous => exact resident.mapAnonymous rfl
  | mapShared => exact resident.mapShared rfl
  | mapAnonymousDemand | mapObject => exact resident.mapLazy (fun _ => Backed.of_lazy rfl) rfl
  | mapDeviceRange => exact resident.mapDeviceRange rfl
  | unmapDevicePages => exact resident.unmapDevicePages fun j below => not_covers_of_none (kept j below)
  | unmapDevicePage => exact resident.unmapDevicePage (not_covers_of_none kept)
  | installObjectPage => exact resident.installObjectPage rfl
  | grantWrite va =>
    exact resident.reflag (fun _ _ _ => Backed.of_rights) (rfl : sp.reflag port va id = (_, (sp.grantWrite port va).2))
  | reprotectRo va =>
    refine resident.reflag (fun m _ found => Backed.of_readOnly (kept m.backing ?_))
      (rfl : sp.reflag port va readOnly = (_, (sp.reprotectRo port va).2))
    rw [AddressSpace.backingAt, found, Option.map_some]
  | evictPage => exact resident.evictPage (fun i m cell covers => kept m.backing (resident.backingAt cell covers)) rfl
  | resolveFault => exact resident.resolveFault rfl
  | snapshotCow src dst len =>
    change Resident port (sp.snapshotCow port src dst len source).2.1
    rcases call : sp.snapshotCow port src dst len source with ⟨e | _,_,_⟩
    · exact kept e _ _ call ▸ resident
    · exact resident.snapshotCow call
  | unmapRange => exact resident.unmapRange rfl
  | reclaimRange => exact resident.reclaimRange rfl
  | protectRange => exact resident.protectRange rfl

end AddressSpace

namespace VmWorld
variable [FrameSource σ]
open Transition

def Careful (port : ArchPort) (w : VmWorld cfg σ) (a : VmAction) : Prop :=
  ∀ sp, w.space = some sp → sp.KeepsResident port w.source a

theorem resident_run {start w : VmWorld cfg σ} (run : Disciplined (fun _ => Careful port) (Step port) start history w)
    (resident : ∀ sp, start.space = some sp → sp.Resident port) : ∀ sp, w.space = some sp → sp.Resident port := by
  refine Disciplined.invariant (fun _ w => ∀ sp, w.space = some sp → sp.Resident port) ?_ resident run
  intro _ w a _ kept careful step
  obtain ⟨sp,there,done⟩ := map_eq_some_iff.mp step
  cases performed : sp.perform port w.source a with
  | mk =>
    rw [performed] at done
    cases done
    exact (kept sp there).perform (careful sp there) performed

end VmWorld
end Tessera
