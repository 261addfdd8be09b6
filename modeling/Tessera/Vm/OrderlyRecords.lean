import Tessera.Vm.PageWrites

/-!
What the mapping records of a space are like whatever is done to the space: whole
pages, never writable and executable at once, and apart from one another. No record
is made or changed in any other way, not even by an operation that fails.
-/
namespace Tessera
open Slots
namespace AddressSpace
variable {cfg : Config} {σ : Type} {port : ArchPort} {sp sp' : AddressSpace cfg} {s : Nat → Prop}

structure Orderly (port : ArchPort) (sp : AddressSpace cfg) : Prop where
  aligned : ∀ i m, sp.mappings.cell i = some m → m.base % frameSize = 0 ∧ m.len % frameSize = 0
  plain : ∀ i m, sp.mappings.cell i = some m → m.rights.isWx = false
  apart : ∀ i j m n va, sp.mappings.cell i = some m → sp.mappings.cell j = some n →
    m.covers va = true → n.covers va = true → i = j
  walked : sp.arch.Walked port

theorem Orderly.kept (orderly : Orderly port sp) (mappings : sp'.mappings = sp.mappings)
    (walked : sp.arch.Walked port → sp'.arch.Walked port) : Orderly port sp' :=
  ⟨mappings ▸ orderly.aligned,mappings ▸ orderly.plain,mappings ▸ orderly.apart,walked orderly.walked⟩

theorem Orderly.touches (orderly : Orderly port sp) (touches : Touches port s sp sp') : Orderly port sp' :=
  orderly.kept touches.mappings touches.walked

variable {base len i va : Nat} {rights : PageFlags} {backing : Backing} {m n : Mapping}

section
variable (orderly : Orderly port sp)
include orderly

theorem Orderly.record (baseAligned : base % frameSize = 0)
    (lenAligned : len % frameSize = 0) (plain : rights.isWx = false)
    (apart : ∀ i m va, sp.mappings.cell i = some m → m.covers va = true → ¬(base ≤ va ∧ va < base + len)) :
    Orderly port (sp.record base len rights backing) := by
  unfold AddressSpace.record
  split
  · exact orderly
  refine ⟨fun j m cell => ?_,fun j m cell => ?_,fun j k m n va hj hk coversM coversN => ?_,orderly.walked⟩
  · rcases cell_put_cases cell with new | old
    · rw [new.2]
      exact ⟨baseAligned,lenAligned⟩
    · exact orderly.aligned j m old.2
  · rcases cell_put_cases cell with new | old
    · rw [new.2]
      exact plain
    · exact orderly.plain j m old.2
  · rcases cell_put_cases hj with newJ | oldJ
    · rcases cell_put_cases hk with newK | oldK
      · exact newJ.1.symm.trans newK.1
      · rw [newJ.2] at coversM
        exact absurd (Mapping.covers_iff.mp coversM) (apart k n va oldK.2 coversN)
    · rcases cell_put_cases hk with newK | oldK
      · rw [newK.2] at coversN
        exact absurd (Mapping.covers_iff.mp coversN) (apart j m va oldJ.2 coversM)
      · exact orderly.apart j k m n va oldJ.2 oldK.2 coversM coversN

theorem Orderly.revise (idx : Nat)
    (revised : ∀ m', c = some m' → ∃ m, sp.mappings.cell idx = some m ∧ m'.base = m.base ∧ m'.len = m.len ∧
      m'.rights.isWx = false)
    (arch : sp'.arch = sp.arch) (mappings : sp'.mappings = sp.mappings.assign idx c) : Orderly port sp' := by
  -- every record stands where a record of the same range stood
  have was : ∀ {j n}, sp'.mappings.cell j = some n → ∃ m, sp.mappings.cell j = some m ∧ n.base = m.base ∧
      n.len = m.len ∧ n.rights.isWx = false := by
    intro j n there
    rw [mappings, cell_assign] at there
    split at there
    · rename_i same
      obtain ⟨rfl,_⟩ := same
      exact revised n there
    · exact ⟨n,there,rfl,rfl,orderly.plain j n there⟩
  have covered : ∀ {m n : Mapping} {va}, n.base = m.base → n.len = m.len → n.covers va = true →
      m.covers va = true := by
    intro m n va base len covers
    rwa [Mapping.covers_iff, base, len, ← Mapping.covers_iff] at covers
  refine ⟨fun j _ there => ?_,fun j _ there => ?_,fun j k _ _ va hj hk coversN coversO => ?_,arch ▸ orderly.walked⟩
  · obtain ⟨m,cell,base,len,_⟩ := was there
    rw [base, len]
    exact orderly.aligned j m cell
  · obtain ⟨m,_,_,_,plain⟩ := was there
    exact plain
  · obtain ⟨m,cellJ,baseJ,lenJ,_⟩ := was hj
    obtain ⟨m',cellK,baseK,lenK,_⟩ := was hk
    exact orderly.apart j k m m' va cellJ cellK (covered baseJ lenJ coversN) (covered baseK lenK coversO)

theorem Orderly.drop (idx : Nat) : Orderly port (sp.dropRecord idx) :=
  orderly.revise idx (fun _ gone => by cases gone) rfl rfl

theorem Orderly.cell_unique (found : sp.mappingCovering va = some m)
    (cell : sp.mappings.cell i = some n) (covers : n.covers va = true) : n = m := by
  obtain ⟨coversM,j,cellM⟩ := mappingCovering_some found
  have same := orderly.apart i j n m va cell cellM covers coversM
  subst same
  rw [cell] at cellM
  exact Option.some.inj cellM

theorem Orderly.page_unique (found : sp.mappingCovering va = some m)
    (cell : sp.mappings.cell i = some n) (covers : n.covers (va / frameSize * frameSize) = true) : n = m :=
  orderly.cell_unique found cell ((Mapping.covers_floor (orderly.aligned i n cell)).mp covers)

theorem Orderly.one_record (first : sp.mappings.cell i = some m)
    (second : sp.mappings.cell j = some n) (coversM : m.covers va = true) (coversN : n.covers va = true) : m = n := by
  have same := orderly.apart i j m n va first second coversM coversN
  subst same
  rw [first] at second
  exact Option.some.inj second

end

theorem orderly_fromArch {arch : ArchSpace} (walked : arch.Walked port) :
    Orderly port (fromArch arch : AddressSpace cfg) := by
  refine ⟨?_,?_,?_,walked⟩
  · intro _ _ cell
    simp [fromArch] at cell
  · intro _ _ cell
    simp [fromArch] at cell
  · intro _ _ _ _ _ cell
    simp [fromArch] at cell

theorem Revised.orderly {made : Mapping → Prop} (revised : Revised port made sp mid sp')
    (mappings : mid.mappings = sp.mappings) (orderly : Orderly port mid) : Orderly port sp' := by
  cases revised with
  | kept => exact orderly
  | recorded checked =>
    obtain ⟨baseAligned,_,lenAligned,plain,apart,_⟩ := checkNew_ok checked
    exact orderly.record baseAligned lenAligned plain (mappings ▸ apart_of_overlaps apart)
  | dropped idx => exact orderly.drop idx
  | @reflagged idx rights m cell plain _ =>
    refine orderly.revise idx (c := (mid.mappings.cell idx).map _) (fun _ new => ?_) rfl rfl
    obtain ⟨n,there,rfl⟩ := Option.map_eq_some_iff.mp new
    exact ⟨n,there,rfl,rfl,plain⟩
  | @snapshot idx dst len m cell base whole apart _ _ =>
    rw [← mappings] at cell
    have revised : Orderly port (mid.changeRecord idx fun m => { m with backing := .cow }) := by
      refine orderly.revise idx (c := (mid.mappings.cell idx).map _) (fun _ new => ?_) rfl rfl
      obtain ⟨n,there,rfl⟩ := Option.map_eq_some_iff.mp new
      exact ⟨n,there,rfl,rfl,orderly.plain idx n there⟩
    refine revised.record base whole (orderly.plain idx m cell) fun i n va there covers inside => ?_
    have apart := apart_of_overlaps ((overlaps_congr mappings dst len).trans apart)
    simp only [changeRecord, cell, cell_assign] at there
    split at there
    · cases there
      exact apart idx m va cell covers inside
    · exact apart i n va there covers inside

theorem Orderly.perform [FrameSource σ] {src src' : σ} (orderly : Orderly port sp)
    (done : sp.perform port src a = (some sp', src')) : Orderly port sp' := by
  obtain ⟨_,last,edits,revised,arch,mappings⟩ := perform_outline done
  have final : Orderly port last := revised.orderly edits.mappings (orderly.kept edits.mappings edits.walked)
  exact final.kept mappings (arch ▸ id)

end AddressSpace
end Tessera
