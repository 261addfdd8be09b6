import Tessera.Vm.SharedFrames

/-!
Pages under copy-on-write records. How a copy ends, what a snapshot leaves behind,
and that a page is writable under such a record only if it was before or is on a
frame just drawn, as long as nobody gives the range writable rights.
-/
namespace Tessera
open ArchSpace
open FrameSource
open Function Tally

namespace AddressSpace
variable {cfg : Config} {σ α : Type} {port : ArchPort} {sp sp' : AddressSpace cfg}

def IsCow (sp : AddressSpace cfg) (p : Nat) : Prop :=
  ∃ i m, sp.mappings.cell i = some m ∧ m.covers (p * frameSize) = true ∧ m.backing = .cow

section
variable [FrameSource σ] {source source' : σ}
variable {page virt src dst len p : Nat} {rights fl : PageFlags} {out : FaultOutcome} {write : Bool}
  {f : PhysFrame} {a : VmAction}

theorem cowCopy_cases (done : sp.cowCopy port page rights source = (out, sp', source')) :
    (out = .unresolvable ∧ sp'.arch.pages (page / frameSize) = none) ∨
      (out = .unresolvable ∧ sp' = sp ∧ (source' = source ∨ allocFrame source = (none, source'))) ∨
      (out = .copied ∧ ∃ priv drawn, allocFrame source = (some priv, drawn) ∧
        sp'.arch.pages (page / frameSize) = some (priv, rights)) := by
  rcases cowCopy_ends done with ⟨rfl,rfl,same⟩ | ⟨_,_,priv,_,_,_,_,_,_,drawn,unmapped,mapped,rfl,ends⟩
  · exact .inr (Or.inl ⟨rfl,rfl,same.imp_left Eq.symm⟩)
  rcases ends with ⟨⟨_,rfl⟩,rfl,_⟩ | ⟨rfl,rfl,_⟩
  · refine .inl ⟨rfl,?_⟩
    rcases map_cases mapped with added | ⟨_,kept⟩
    · cases added.1
    rw [setArch_arch, kept, pages_of_unmap unmapped, if_pos rfl]
  · rcases map_cases mapped with added | ⟨⟨_,failed⟩,_⟩
    · refine .inr (Or.inr ⟨rfl,priv,_,drawn,?_⟩)
      rw [setArch_arch, added.2.2.2.2, update_self]
    · cases failed

theorem cowCopy_succeeds (orderly : sp.Orderly port) (aligned : page % frameSize = 0)
    (plain : rights.isWx = false) (accepted : port.accepts rights = true)
    (there : sp.arch.pages (page / frameSize) = some (shared, fl)) (readOnly : fl.writable = false)
    (available : (allocFrame source).1.isSome = true) : (sp.cowCopy port page rights source).1 = .copied := by
  unfold cowCopy
  rw [show sp.arch.translate page = some (shared, fl) from there]
  simp only [readOnly, Bool.false_eq_true, if_false]
  split
  · rename_i empty
    rw [empty] at available
    cases available
  split
  · rename_i failed
    unfold unmap at failed
    rw [show sp.arch.translate page = some (shared, fl) from there] at failed
    cases failed
  rename_i unmapped
  split
  · rename_i mapped
    have again := map_again orderly.walked unmapped aligned plain accepted mapped
    cases again
  · rfl

theorem resolveFault_page (done : sp.resolveFault port virt write source = (out, sp', source'))
    (was : sp.arch.pages (virt / frameSize) = some e) (is : sp'.arch.pages (virt / frameSize) = some e') :
    (out ≠ .copied ∧ e' = e ∧ (source' = source ∨ allocFrame source = (none, source'))) ∨
      (out = .copied ∧ ∃ drawn, allocFrame source = (some e'.1, drawn)) := by
  rcases resolveFault_cases done with ⟨other,rfl,rfl⟩ | ⟨_,_,⟨_,missing,_⟩ | ⟨_,_,copied⟩⟩
  · rw [was] at is
    exact .inl ⟨other,(Option.some.inj is).symm,Or.inl rfl⟩
  · rw [ArchSpace.translate, alignDown_div, was] at missing
    cases missing
  rcases cowCopy_cases copied with ⟨_,lost⟩ | ⟨rfl,rfl,kept⟩ | ⟨rfl,_,drawn,got,filled⟩
  · rw [alignDown_div, is] at lost
    cases lost
  · rw [was] at is
    exact .inl ⟨by simp,(Option.some.inj is).symm,kept⟩
  · rw [alignDown_div, is] at filled
    cases filled
    exact .inr ⟨rfl,drawn,got⟩

theorem resolveFault_cow (found : sp.mappingCovering virt = some m) (cow : m.backing = .cow)
    (done : sp.resolveFault port virt write source = (out, sp', source'))
    (is : sp'.arch.pages (virt / frameSize) = some (f, fl)) :
    sp.arch.pages (virt / frameSize) = some (f, fl) ∨ ∃ drawn, allocFrame source = (some f, drawn) := by
  cases was : sp.arch.pages (virt / frameSize) with
  | some =>
    rcases resolveFault_page done was is with ⟨_,rfl,_⟩ | ⟨_,drawn⟩
    · exact .inl rfl
    · exact .inr drawn
  | none =>
    unfold resolveFault at done
    simp only [found, cow] at done
    split at done
    · unfold cowCopy at done
      rw [ArchSpace.translate, alignDown_div, was] at done
      cases done
      rw [was] at is
      cases is
    cases done
    rw [was] at is
    cases is

theorem snapshotCow_error (done : sp.snapshotCow port src dst len source = (.error err, sp', source')) :
    sp'.mappings = sp.mappings := by
  rcases snapshotCow_cases done with ⟨_,rfl,_⟩ | ⟨_,_,_,_,_,_,_,_,_,_,copied,⟨_,rfl⟩ | ⟨failed,_⟩⟩
  · rfl
  · have edits : Edits port (fun _ _ => True) sp sp' :=
      snapshotPages_edits (fun _ _ _ _ => trivial) (fun _ _ _ _ => trivial) copied
    exact edits.mappings
  · cases failed

theorem snapshotCow_readOnly (done : sp.snapshotCow port src dst len source = (.ok (), sp', source'))
    (there : sp'.arch.pages p = some (f, fl))
    (inside : (src ≤ p * frameSize ∧ p * frameSize < src + len) ∨ (dst ≤ p * frameSize ∧ p * frameSize < dst + len)) :
    fl.writable = false := by
  rcases snapshotCow_cases done with ⟨⟨_,failed⟩,_⟩ |
    ⟨srcAligned,dstAligned,whole,overlap,_,idx,m,mid,found,cell,copied,⟨⟨_,failed⟩,_⟩ | ⟨_,rfl⟩⟩
  · cases failed
  · cases failed
  rw [recordMapped_arch] at there
  have entry : mid.arch.pages p = some (f, fl) := there
  have apart := apart_of_overlaps overlap
  obtain ⟨_,cell',rfl,rfl⟩ := findExact_some found
  rw [cell] at cell'
  cases cell'
  have disjoint : ∀ a b, 0 ≤ a → a < 0 + m.len / frameSize → 0 ≤ b → b < 0 + m.len / frameSize →
      pageAt m.base a / frameSize ≠ pageAt dst b / frameSize := by
    intro a _ _ _ _ _ same
    rw [pageAt_div srcAligned, pageAt_div dstAligned] at same
    refine apart idx m (m.base + a * frameSize) cell (Mapping.covers_iff.mpr ?_) ?_ <;>
    · simp only [frameSize] at *
      omega
  obtain ⟨srcFilled,dstFilled⟩ := snapshotPages_ok disjoint copied
  rcases inside with inSrc | inDst
  · have covers : m.covers (p * frameSize) = true := Mapping.covers_iff.mpr inSrc
    obtain ⟨_,_,filled,same⟩ := srcFilled.under srcAligned whole covers
    rw [entry] at filled
    cases filled
    rw [same]
    rfl
  let n : Mapping := ⟨dst, m.len, m.rights, .cow⟩
  have covers : n.covers (p * frameSize) = true := Mapping.covers_iff.mpr inDst
  obtain ⟨_,_,filled,same⟩ := Filled.under (m := n) dstAligned whole dstFilled covers
  rw [entry] at filled
  cases filled
  rw [same]
  rfl

/-- What keeps shared pages from becoming writable: no writable rights for a
    copy-on-write range, no write access granted there, and no device window. -/
def SparesCow (sp : AddressSpace cfg) : VmAction → Prop
  | .protectRange base len rights => rights.writable = true → ∀ idx m, sp.findExact base len = some idx →
      sp.mappings.cell idx = some m → m.backing ≠ .cow
  | .grantWrite va => sp.backingAt va ≠ some .cow
  | .mapDeviceRange _ _ _ _ => False
  | _ => True

theorem put_under_cow (orderly : sp.Orderly port) (spares : sp.SparesCow a)
    (done : sp.perform port source a = (some sp', source')) (cow : sp.IsCow p)
    (there : sp'.arch.pages p = some (f, fl)) (put : sp.Puts port a p fl) :
    fl.writable = false ∨ sp.arch.pages p = some (f, fl) ∨ ∃ drawn, allocFrame source = (some f, drawn) := by
  obtain ⟨i,n,cell,covers,backing⟩ := cow
  have covered : sp.Covers p := ⟨i,n,cell,covers⟩
  cases a with
  | mapAnonymous =>
    obtain ⟨ok,inside,_⟩ := put
    obtain ⟨baseAligned,_,lenAligned,_,apart,_⟩ := checkNew_ok ok
    exact absurd covered (not_covers_pagesFrom baseAligned lenAligned apart inside)
  | mapShared =>
    obtain ⟨ok,inside,_⟩ := put
    obtain ⟨baseAligned,_,lenAligned,_,apart,_⟩ := checkNew_ok ok
    refine absurd covered (not_covers_pagesFrom baseAligned lenAligned apart ?_)
    rwa [Nat.mul_div_cancel _ (by decide)]
  | mapDeviceRange => exact spares.elim
  | installObjectPage | reprotectRo =>
    obtain ⟨m,_,_,rfl⟩ := put
    exact .inl rfl
  | grantWrite =>
    obtain ⟨m,found,rfl,rfl⟩ := put
    have same := orderly.page_unique found cell covers
    subst same
    refine absurd ?_ spares
    rw [backingAt, found, Option.map_some, backing]
  | resolveFault =>
    obtain ⟨m,found,rfl,rfl⟩ := put
    have same := orderly.page_unique found cell covers
    subst same
    cases done
    exact .inr (resolveFault_cow found backing rfl there)
  | snapshotCow =>
    obtain ⟨idx,m,_,_,rfl,_⟩ := put
    exact .inl rfl
  | protectRange =>
    obtain ⟨found,inside,rfl⟩ := put
    obtain ⟨idx,found⟩ := Option.isSome_iff_exists.mp found
    obtain ⟨m,cellM,rfl,rfl⟩ := findExact_some found
    have mine : m.covers (p * frameSize) = true :=
      (covers_page_iff (orderly.aligned idx m cellM).1 (orderly.aligned idx m cellM).2).mpr inside
    have same := orderly.one_record cell cellM covers mine
    subst same
    by_cases writable : fl.writable = true
    · exact absurd backing (spares writable idx n found cellM)
    · exact .inl (Bool.eq_false_of_not_eq_true writable)
  | _ => exact put.elim

theorem cow_record_before (done : sp.perform port source a = (some sp', source')) (cow : sp'.IsCow p)
    (there : sp'.arch.pages p = some (f, fl)) : sp.IsCow p ∨ fl.writable = false := by
  obtain ⟨i,n,cell,covers,backing⟩ := cow
  rcases (perform_writes done).records i n cell with old | made
  · exact .inl ⟨i,n,old,covers,backing⟩
  cases a with
  | mapAnonymous | mapShared | mapAnonymousDemand | mapObject =>
    obtain ⟨_,rfl⟩ := made
    cases backing
  | snapshotCow src dst len =>
    obtain ⟨result,⟨_,_⟩,call⟩ : ∃ result next, sp.snapshotCow port src dst len source = (result, next) :=
      ⟨_,_,rfl⟩
    simp only [perform, call] at done
    cases done
    cases result with
    | error =>
      rw [snapshotCow_error call] at cell
      exact .inl ⟨i,n,cell,covers,backing⟩
    | ok =>
      refine .inr (snapshotCow_readOnly call there ?_)
      rw [Mapping.covers_iff] at covers
      obtain ⟨idx,m,found,cellM,new⟩ := made
      obtain ⟨_,cell',rfl,rfl⟩ := findExact_some found
      rw [cellM] at cell'
      cases cell'
      rcases new with rfl | ⟨_,_,rfl⟩
      · exact .inl covers
      · exact .inr covers
  | protectRange =>
    obtain ⟨_,idx,m,_,cellM,rfl⟩ := made
    exact .inl ⟨idx,m,cellM,covers,backing⟩
  | _ => exact made.elim

theorem cow_writable_before (orderly : sp.Orderly port) (spares : sp.SparesCow a)
    (done : sp.perform port source a = (some sp', source')) (cow : sp'.IsCow p)
    (there : sp'.arch.pages p = some (f, fl)) (writable : fl.writable = true) :
    (sp.IsCow p ∧ sp.arch.pages p = some (f, fl)) ∨ ∃ drawn, allocFrame source = (some f, drawn) := by
  rcases cow_record_before done cow there with before | readOnly
  · rcases (perform_writes done).pages p f fl there with old | ⟨_,put⟩
    · exact .inl ⟨before,old⟩
    rcases put_under_cow orderly spares done before there put with readOnly | same | drawn
    · rw [writable] at readOnly
      cases readOnly
    · exact .inl ⟨before,same⟩
    · exact .inr drawn
  · rw [writable] at readOnly
    cases readOnly

end

section
variable [FrameSource σ] {m m' : FrameMemory σ (Nat → UInt8)}

omit [FrameSource σ] in
theorem copyPage_source (sp sp' : AddressSpace cfg) (va : Nat) (m m' : FrameMemory σ (Nat → UInt8)) :
    (sp.copyPage sp' va m m').source = m'.source := by
  unfold copyPage
  split <;> rfl

theorem operate_eq (sp : AddressSpace cfg) (m : FrameMemory σ (Nat → UInt8)) (a : VmAction) :
    ∃ after, sp.perform port m a = ((sp.operate port m a).1, after) ∧
      (sp.operate port m a).2.source = after.source := by
  cases a with
  | resolveFault =>
    simp only [operate, perform, fault]
    split
    · rename_i call
      exact ⟨_,by rw [call],copyPage_source ..⟩
    · rename_i call
      exact ⟨_,by rw [call],rfl⟩
  | _ => exact ⟨_,rfl,rfl⟩

theorem operate_plain (port : ArchPort) (sp : AddressSpace cfg) (m : FrameMemory σ (Nat → UInt8))
    (kind : Builds a = true ∨ Clears a = true) :
    ∃ sp', (sp.operate port m a).1 = some sp' ∧ sp.perform port m a = (some sp', (sp.operate port m a).2) := by
  cases a with
  | resolveFault | teardown => rcases kind with _ | _ <;> contradiction
  | _ => exact ⟨_,rfl,rfl⟩

end
end AddressSpace

end Tessera
