import Tessera.Vm.FrameHolders
import Tessera.Vm.PageWrites

/-!
The references of a space through its operations, where the account is not kept step by
step: a snapshot adds references to what it maps already, and taking pages down without
giving their frames back forgets references. Device windows are left out, their frames
are not the source's.
-/
namespace Tessera
open List CountedSource Function
namespace AddressSpace
open ArchSpace
variable {cfg : Config} {σ α : Type} [FrameSource σ] [CountedSource σ] [Inhabited α] {port : ArchPort}
  {e : Backdrop α} {sp sp' : AddressSpace cfg} {source source' : FrameMemory σ α}

variable {src dst pages i va base len : Nat} {result : Except KError Unit} {a : VmAction}

theorem snapshotPages_funded (funded : Funded e sp.arch [] source) (room : CountedSource.Room source pages)
    (ours : ∀ j, i ≤ j → j < i + pages → ∀ f, sp.arch.frameAt (pageAt src j / frameSize) = some f →
      (∀ g fl, sp'.arch.pages (pageAt src j / frameSize) = some (g, fl) → fl = ro) → e.given f)
    (done : sp.snapshotPages port src dst ro source pages i = (result, sp', source')) :
    Funded e sp'.arch [] source' := by
  induction pages generalizing sp source i with
  | zero =>
    cases done
    exact funded
  | succ pages ih =>
    unfold snapshotPages at done
    split at done
    · cases done
      exact funded
    rename_i frame flags there
    have here : sp.arch.frameAt (pageAt src i / frameSize) = some frame := by
      simp only [ArchSpace.frameAt]
      rw [show sp.arch.pages (pageAt src i / frameSize) = some (frame, flags) from there]
      rfl
    have mine := ours i (Nat.le_refl _) (by omega) frame here
    have tracked := room_tracks frame room
    have more := room_retain frame room
    split at done
    · cases done
      exact funded.leak ⟨_,here⟩ tracked
    rename_i arch changed
    have sameFrames : arch.frameAt = sp.arch.frameAt := protect_frameAt changed
    have reflagged : ∀ g fl, arch.pages (pageAt src i / frameSize) = some (g, fl) → fl = ro := by
      rcases protect_pages changed with ⟨_,_,f,_,_,pages⟩ | ⟨⟨_,failed⟩,_⟩
      · intro g fl entry
        rw [pages, update_self] at entry
        cases entry
        rfl
      · cases failed
    have before := ((fundedAccount e).protect funded trivial changed).leak ⟨_,(congrFun sameFrames _).trans here⟩ tracked
    split at done
    · rename_i mapped
      cases done
      exact (fundedAccount e).mapError before mapped
    rename_i arch' _ mapped
    -- a page of the source range that is read-only now stays so
    have stays : ∀ g fl, sp'.arch.pages (pageAt src i / frameSize) = some (g, fl) → fl = ro := by
      intro g fl last
      have rest : Writes (fun _ fl => fl = ro) (fun _ => True) (sp.setArch arch') sp' :=
        Edits.writes (snapshotPages_edits (fun _ _ _ _ => laid_some rfl) (fun _ _ _ _ => laid_some rfl) done)
      rcases rest.pages _ _ _ last with earlier | put
      · have entry := map_kept mapped (p := pageAt src i / frameSize) (by
          intro missing
          have present := (congrFun sameFrames (pageAt src i / frameSize)).trans here
          simp only [ArchSpace.frameAt, missing] at present
          cases present)
        exact reflagged g fl (entry.symm.trans earlier)
      · exact put
    have ourFrame := mine stays
    have retained := (fundedAccount e).protect (funded.retain ourFrame (Or.inl ⟨_,here⟩) tracked) trivial changed
    refine ih ((fundedAccount e).mapOk retained mapped) (map_room retained more mapped) (fun j _ _ f at_j readOnly => ?_) done
    rcases map_cases mapped with added | failed
    · simp only [ArchSpace.frameAt, setArch_arch, added.2.2.2.2, update_apply] at at_j
      split at at_j
      · cases at_j
        exact ourFrame
      refine ours j (by omega) (by omega) f ?_ readOnly
      rw [← sameFrames]
      exact at_j
    · obtain ⟨⟨_,contra⟩,_⟩ := failed
      cases contra

theorem installObjectPage_funded (funded : Funded e sp.arch [] source)
    (ours : e.given frame) (held : 0 < e.rest frame) (tracked : CountedSource.Tracks source frame)
    (done : sp.installObjectPage port va frame source = (result, sp', source')) : Funded e sp'.arch [] source' :=
  (fundedAccount e).installRetained (funded.retain ours (Or.inr held) tracked) done

theorem resolveFault_funded (funded : Funded e sp.arch [] source) (unpinned : e.pin (virt / frameSize) = none)
    (done : sp.resolveFault port virt write source = (out, sp', source')) : Funded e sp'.arch [] source' :=
  (fundedAccount e).resolveFault funded (fun _ => unpinned) (fun _ _ _ _ _ _ _ _ _ _ _ _ kept => kept.drop) done

theorem freeAll_counts {refs rest : PhysFrame → Nat}
    (counts : CountedSource.Counts refs source) (enough : ∀ f, frames.count f + rest f ≤ refs f) :
    ∃ refs', CountedSource.Counts refs' (freeAll source frames) ∧ ∀ f, rest f ≤ refs' f := by
  induction frames generalizing source refs with
  | nil =>
    refine ⟨refs,counts,fun f => ?_⟩
    have := enough f
    omega
  | cons frame frames ih =>
    have some : 0 < refs frame := by
      have := enough frame
      rw [count_cons_self] at this
      omega
    refine ih (free counts some) fun f => ?_
    have := enough f
    by_cases same : f = frame
    · subst same
      rw [count_cons_self] at this
      rw [update_self]
      omega
    rw [count_cons_of_ne (Ne.symm same)] at this
    rw [update_of_ne same]
    exact this

section
variable (funded : Funded e sp.arch [] source)
include funded

theorem closeWindow_funded
    (unpinned : Holds (e.pin · = none) va i pages) : Funded e (sp.closeWindow va pages i).arch [] source := by
  induction pages generalizing sp i with
  | zero => exact funded
  | succ pages ih => exact ih (funded.unmapped unpinned.head) unpinned.tail

theorem unmapPages_funded
    (unpinned : Holds (e.pin · = none) base i pages) (done : sp.unmapPages base pages i = (result, sp')) :
    Funded e sp'.arch [] source := by
  obtain ⟨_,_,rfl,_⟩ := unmapPages_space done
  exact closeWindow_funded funded fun j lower _ => unpinned j lower (by omega)

theorem snapshotCow_funded (room : CountedSource.Room source (len / frameSize))
    (ours : ∀ j, j < len / frameSize → ∀ f, sp.arch.frameAt (pageAt src j / frameSize) = some f →
      (∀ g fl, sp'.arch.pages (pageAt src j / frameSize) = some (g, fl) → fl.writable = false) → e.given f)
    (done : sp.snapshotCow port src dst len source = (result, sp', source')) : Funded e sp'.arch [] source' := by
  rcases snapshotCow_cases done with ⟨_,rfl,rfl⟩ | ⟨_,_,_,_,_,_,_,mid,_,_,copied,ended⟩
  · exact funded
  have same : sp'.arch = mid.arch := by
    rcases ended with ⟨_,rfl⟩ | ⟨_,rfl⟩
    · rfl
    · exact recordMapped_arch ..
  rw [same] at ours ⊢
  refine snapshotPages_funded funded room (fun j _ _ f here flags => ours j (by omega) f here fun g fl last => ?_) copied
  rw [flags g fl last]
  rfl

theorem unmapRange_funded (unpinned : Holds (e.pin · = none) base 0 (len / frameSize))
    (done : sp.unmapRange base len = (result, sp')) : Funded e sp'.arch [] source := by
  rcases unmapRange_cases done with rfl | ⟨_,_,_,_,unmapped,⟨_,rfl⟩ | ⟨_,rfl⟩⟩
  · exact funded
  · exact unmapPages_funded funded unpinned unmapped
  · have inner := unmapPages_funded funded unpinned unmapped
    exact inner

theorem unmapDevicePage_funded
    (unpinned : e.pin (va / frameSize) = none) (done : sp.unmapDevicePage va = (result, sp')) :
    Funded e sp'.arch [] source := by
  unfold unmapDevicePage at done
  split at done
  · cases done
    exact funded
  rename_i unmapped
  cases done
  exact (funded.unmapOk unpinned unmapped).drop

theorem teardown_counts (free : ∀ p, e.pin p = none) :
    ∃ refs, CountedSource.Counts refs (sp.teardown port source) ∧ ∀ f, e.rest f ≤ refs f := by
  unfold teardown
  split
  rename_i left _ cleared
  obtain ⟨_,counts,held,_⟩ := ((fundedAccount e).teardownSlots _ funded (fun _ _ _ _ _ _ => free _) cleared).counted
  rw [freeTables_eq]
  refine freeAll_counts counts fun f => ?_
  obtain ⟨_,_,enough⟩ := held f
  have fewer : ((left.arch.tables.filter (port.owned ·.1)).map Prod.snd).count f ≤
      (left.arch.tables.map Prod.snd).count f :=
    (filter_sublist.map _).count_le f
  simp only [tableFrames, count_cons, count_append] at enough ⊢
  omega

end

/-- What an operation needs for its references to be recorded. A snapshot adds one to
    the frame of every source page it leaves read-only. -/
def Fundable (e : Backdrop α) (source : FrameMemory σ α) (sp sp' : AddressSpace cfg) : VmAction → Prop
  | .mapShared _ _ _ _ frames => (∀ f ∈ frames, e.given f ∧ 0 < e.rest f) ∧ CountedSource.Room source frames.length
  | .installObjectPage _ frame => (e.given frame ∧ 0 < e.rest frame) ∧ CountedSource.Tracks source frame
  | .snapshotCow src _ len => CountedSource.Room source (len / frameSize) ∧
      ∀ j, j < len / frameSize → ∀ f, sp.arch.frameAt (pageAt src j / frameSize) = some f →
        (∀ g fl, sp'.arch.pages (pageAt src j / frameSize) = some (g, fl) → fl.writable = false) → e.given f
  | .mapDeviceRange _ _ _ _ => False
  | _ => True

def Builds : VmAction → Bool
  | .mapAnonymous _ _ _ | .mapShared _ _ _ _ _ | .mapAnonymousDemand _ _ _ | .mapObject _ _ _ _ _
  | .installObjectPage _ _ | .grantWrite _ | .reprotectRo _ | .snapshotCow _ _ _ | .protectRange _ _ _ => true
  | _ => false

theorem builds_funded (funded : Funded e sp.arch [] source) (builds : Builds a = true)
    (fundable : Fundable e source sp sp' a) (done : sp.perform port source a = (some sp', source')) :
    Funded e sp'.arch [] source' := by
  cases a with cases done
  | mapAnonymous => exact (fundedAccount e).mapAnonymous funded rfl
  | mapShared => exact (fundedAccount e).mapShared funded fundable rfl
  | mapAnonymousDemand | mapObject => exact (fundedAccount e).mapLazy funded rfl
  | installObjectPage => exact installObjectPage_funded funded fundable.1.1 fundable.1.2 fundable.2 rfl
  | grantWrite => exact (fundedAccount e).reflag id funded (fun _ => trivial) rfl
  | reprotectRo => exact (fundedAccount e).reflag readOnly funded (fun _ => trivial) rfl
  | snapshotCow => exact snapshotCow_funded funded fundable.1 fundable.2 rfl
  | protectRange => exact (fundedAccount e).protectRange funded (fun _ _ _ _ => trivial) rfl
  | _ => cases builds

theorem perform_funded (funded : Funded e sp.arch [] source) (free : ∀ p, e.pin p = none)
    (fundable : Fundable e source sp sp' a) (done : sp.perform port source a = (some sp', source')) :
    Funded e sp'.arch [] source' := by
  have unpinned : ∀ base i pages, Holds (e.pin · = none) base i pages := fun _ _ _ _ _ _ => free _
  by_cases builds : Builds a = true
  · exact builds_funded funded builds fundable done
  cases a with cases done
  | mapDeviceRange => exact fundable.elim
  | unmapDevicePages => exact closeWindow_funded funded (unpinned _ _ _)
  | unmapDevicePage => exact unmapDevicePage_funded funded (free _) rfl
  | evictPage => exact (fundedAccount e).evictPage funded (free _) rfl
  | resolveFault => exact resolveFault_funded funded (free _) rfl
  | unmapRange => exact unmapRange_funded funded (unpinned _ _ _) rfl
  | reclaimRange => exact (fundedAccount e).reclaimRange funded (fun _ => unpinned _ _ _) rfl
  | _ => exact absurd rfl builds

section
omit [CountedSource σ]

theorem freeAll_held (source : FrameMemory σ α) (frames : List PhysFrame) :
    (freeAll source frames).held = source.held := by
  induction frames generalizing source with
  | nil => rfl
  | cons frame frames ih => exact ih _

theorem unmapAndFree_held (done : sp.unmapAndFree base source pages i batch reclaimed = (r, sp', source')) :
    source'.held = source.held := by
  induction pages generalizing sp source i batch reclaimed with
  | zero =>
    cases done
    exact freeAll_held _ _
  | succ pages ih =>
    unfold unmapAndFree at done
    split at done
    · exact ih done
    split at done
    · exact (ih done).trans (freeAll_held _ _)
    · exact ih done

end

def Clears : VmAction → Bool
  | .unmapDevicePages _ _ | .unmapDevicePage _ | .evictPage _ | .unmapRange _ _ | .reclaimRange _ _ => true
  | _ => false

section
omit [CountedSource σ]

theorem clears_held (clears : Clears a = true) (done : sp.perform port source a = (some sp', source')) :
    source'.held = source.held := by
  cases a with
  | unmapDevicePages | unmapDevicePage | unmapRange =>
    cases done
    rfl
  | evictPage =>
    simp only [perform, evictPage] at done
    split at done
    · cases done
      rfl
    split at done <;>
    · cases done
      rfl
  | reclaimRange =>
    simp only [perform, reclaimRange] at done
    split at done
    · cases done
      rfl
    · cases done
      exact unmapAndFree_held rfl
  | _ => cases clears

theorem clears_pages (clears : Clears a = true) (done : sp.perform port source a = (some sp', source'))
    (there : sp'.arch.pages p = some entry) : sp.arch.pages p = some entry := by
  have writes := perform_writes done
  refine (writes.pages p entry.1 entry.2 there).resolve_right fun put => ?_
  cases a with
  | unmapDevicePages | unmapDevicePage | evictPage | unmapRange | reclaimRange => exact put.2
  | _ => cases clears

theorem teardownSlots_held (done : sp.teardownSlots source idxs = (sp', source')) : source'.held = source.held := by
  induction idxs generalizing sp source with
  | nil =>
    cases done
    rfl
  | cons idx rest ih =>
    unfold teardownSlots at done
    split at done
    rename_i slot
    refine (ih done).trans ?_
    unfold teardownSlot at slot
    split at slot
    · cases slot
      rfl
    split at slot
    rename_i loop
    cases slot
    exact unmapAndFree_held loop

theorem teardown_held (sp : AddressSpace cfg) (source : FrameMemory σ α) :
    (sp.teardown port source).held = source.held := by
  unfold teardown
  split
  rename_i cleared
  rw [freeTables_eq, freeAll_held, teardownSlots_held cleared]

end

end AddressSpace
end Tessera
