import Tessera.Vm.FrameReturn
import Tessera.Vm.Residency

/-!
The check that stands before every copy between the kernel and user memory. It
reads the mapping records and not the page tables, so what it promises of a page is
what the page's record promises: a page of an eager mapping is there with the
permissions asked for, a copy-on-write page is there to be read, and a page of a
lazy mapping may still have to fault in.
-/
namespace Tessera
open Option AddressSpace ArchPort Bool BumpFrameAllocator Config PageFlags
variable {cfg : Config} {σ : Type} {port : ArchPort} {needWrite : Bool}

namespace AddressSpace
variable (port : ArchPort)

def validatePages (sp : AddressSpace cfg) (needWrite : Bool) (last page : Nat) : Except KError Unit :=
  if page < last then
    match sp.rightsAt page with
    | .none => .error .accessDenied
    | .some flags =>
      if !flags.isUser || !flags.readable then .error .accessDenied
      else if needWrite && !flags.writable then .error .accessDenied
      else sp.validatePages needWrite last (page + frameSize)
  else .ok ()
termination_by last - page
decreasing_by
  simp only [frameSize]
  omega

def validateUserRange (sp : AddressSpace cfg) (ptr len : Nat) (needWrite : Bool) : Except KError Unit :=
  if len = 0 then .ok ()
  else
    match checkedAdd ptr len with
    | .none => .error .accessDenied
    | .some last =>
      if last > port.userAddressMax then .error .accessDenied
      else sp.validatePages needWrite last (alignDown ptr)

end AddressSpace

def PageFlags.Permits (needWrite : Bool) (flags : PageFlags) : Prop :=
  flags.isUser = true ∧ flags.readable = true ∧ (needWrite = true → flags.writable = true)

instance (needWrite : Bool) (flags : PageFlags) : Decidable (flags.Permits needWrite) :=
  inferInstanceAs (Decidable (_ ∧ _ ∧ (_ → _)))

namespace AddressSpace
variable {sp : AddressSpace cfg}

def Translated (sp : AddressSpace cfg) (needWrite : Bool) (p : Nat) : Prop :=
  ∃ f fl, sp.arch.translate (p * frameSize) = some (f, fl) ∧ fl.Permits needWrite

variable {last page ptr len : Nat}

theorem validatePages_ok (ok : sp.validatePages needWrite last page = .ok ()) : ∀ j, page + j * frameSize < last →
      ∃ m, sp.mappingCovering (page + j * frameSize) = some m ∧ m.rights.Permits needWrite := by
  fun_induction validatePages sp needWrite last page with
  | case1 | case2 | case3 => cases ok
  | case4 page below flags found user write ih =>
    intro j inside
    cases j with
    | zero =>
      obtain ⟨m,covering,rights⟩ := map_eq_some_iff.mp found
      refine ⟨m,by simpa using covering,?_⟩
      rw [rights]
      simp only [not_eq_true, or_eq_false_iff, not_eq_false'] at user write
      exact ⟨user.1,user.2,fun needed => by simpa [needed] using write⟩
    | succ j =>
      have place : page + (j + 1) * frameSize = page + frameSize + j * frameSize := by
        simp only [frameSize]
        omega
      rw [place] at inside ⊢
      exact ih ok j inside
  | case5 =>
    omega

theorem validateUserRange_ok (nonempty : 0 < len) (ok : sp.validateUserRange port ptr len needWrite = .ok ()) :
    ptr + len ≤ port.userAddressMax ∧ sp.validatePages needWrite (ptr + len) (alignDown ptr) = .ok () := by
  unfold validateUserRange at ok
  rw [if_neg (by omega)] at ok
  split at ok
  · cases ok
  rename_i added
  unfold checkedAdd at added
  split at added
  · cases added
    split at ok
    · cases ok
    · exact ⟨by omega,ok⟩
  · cases added

theorem validatePages_of_permits (permits : ∀ j, page + j * frameSize < last →
      ∃ m, sp.mappingCovering (page + j * frameSize) = some m ∧ m.rights.Permits needWrite) :
    sp.validatePages needWrite last page = .ok () := by
  fun_induction validatePages sp needWrite last page with
  | case1 page below none =>
    obtain ⟨_,covering,_⟩ := permits 0 (by omega)
    rw [rightsAt, show page = page + 0 * frameSize by omega, covering] at none
    cases none
  | case2 page below flags found refused =>
    obtain ⟨_,covering,user,readable,_⟩ := permits 0 (by omega)
    rw [rightsAt, show page = page + 0 * frameSize by omega, covering] at found
    cases found
    simp [user, readable] at refused
  | case3 page below flags found _ refused =>
    obtain ⟨_,covering,_,_,writable⟩ := permits 0 (by omega)
    rw [rightsAt, show page = page + 0 * frameSize by omega, covering] at found
    cases found
    simp only [and_eq_true] at refused
    rw [writable refused.1] at refused
    cases refused.2
  | case4 page below flags found user write ih =>
    refine ih fun j inside => ?_
    have place : page + frameSize + j * frameSize = page + (j + 1) * frameSize := by
      simp only [frameSize]
      omega
    rw [place] at inside ⊢
    exact permits (j + 1) inside
  | case5 => rfl

theorem validateUserRange_within (nonempty : 0 < len')
    (ok : sp.validateUserRange port ptr len needWrite = .ok ()) (above : ptr ≤ ptr')
    (below : ptr' + len' ≤ ptr + len) : sp.validateUserRange port ptr' len' needWrite = .ok () := by
  obtain ⟨_,pages⟩ := validateUserRange_ok (by omega) ok
  have bounded : ptr + len < 2 ^ 64 := by
    by_contra beyond
    rw [validateUserRange, if_neg (by omega), checkedAdd, if_neg beyond] at ok
    cases ok
  unfold validateUserRange
  rw [if_neg (by omega), checkedAdd, if_pos (by omega)]
  dsimp only
  rw [if_neg (by omega)]
  refine validatePages_of_permits fun j inside => ?_
  have aligned : ∃ i, alignDown ptr' + j * frameSize = alignDown ptr + i * frameSize := by
    refine ⟨ptr' / frameSize - ptr / frameSize + j,?_⟩
    simp only [alignDown, frameSize] at inside ⊢
    omega
  obtain ⟨i,place⟩ := aligned
  rw [place] at inside ⊢
  exact validatePages_ok pages i (by omega)

theorem Backed.translated (permits : m.rights.Permits needWrite)
    (backed : Backed port m (sp.arch.pages p)) : sp.Translated needWrite p ∨ m.backing.isLazy = true ∨
      (m.backing = .cow ∧ (port.accepts m.rights = true → sp.Translated false p)) := by
  have place : sp.arch.translate (p * frameSize) = sp.arch.pages p := by
    rw [ArchSpace.translate, Nat.mul_div_cancel _ (by decide)]
  unfold Translated
  rw [place]
  unfold Backed at backed
  split at backed
  · obtain ⟨f,there⟩ := backed
    exact .inl ⟨f,m.rights,there,permits⟩
  · obtain ⟨f,there⟩ := backed
    exact .inl ⟨f,m.rights,there,permits⟩
  · rename_i cow
    refine .inr (Or.inr ⟨cow,fun accepted => ?_⟩)
    obtain ⟨f,fl,there,user,readable⟩ := backed accepted
    exact ⟨f,fl,there,user.trans permits.1,readable permits.2.1,fun contra => by cases contra⟩
  · rename_i lazy
    exact .inr (Or.inl (by rw [lazy]; rfl))
  · rename_i lazy
    exact .inr (Or.inl (by rw [lazy]; rfl))

end AddressSpace

namespace VmWorld
variable [FrameSource σ]
open Transition

/-- In every state a careful run over canonical addresses leads to, each page of a range that passes the check
    lies below the ceiling of user memory and under a record that allows the access.
    The page tables have it with the permissions asked for, or its mapping is a lazy
    one, or a copy-on-write one, whose pages are there to be read. -/
theorem validated_pages_are_user_memory {arch : ArchSpace} {source : σ} {history : List VmAction}
    {w : VmWorld cfg σ} {sp : AddressSpace cfg} {ptr len : Nat} {needWrite : Bool} (walked : arch.Walked port)
    (run : Disciplined (fun _ w a => w.Careful port a ∧ a.Canonical port) (Step port) ⟨some (fromArch arch), source⟩
      history w)
    (live : w.space = some sp) (nonempty : 0 < len) (ok : sp.validateUserRange port ptr len needWrite = .ok ()) :
    ∀ p, p * frameSize < ptr + len → ptr < (p + 1) * frameSize → p * frameSize < port.userAddressMax ∧
      (port.userAddressMax % frameSize = 0 → (p + 1) * frameSize ≤ port.userAddressMax) ∧
      ∃ m, sp.mappingCovering (p * frameSize) = some m ∧ m.rights.Permits needWrite ∧
        (sp.Translated needWrite p ∨ m.backing.isLazy = true ∨
          (m.backing = .cow ∧ (port.accepts m.rights = true → sp.Translated false p))) := by
  have resident : sp.Resident port := by
    refine resident_run (run.mono fun _ _ _ => And.left) (fun sp' same => ?_) sp live
    cases same
    exact resident_fromArch walked
  obtain ⟨_,checked⟩ := validateUserRange_ok nonempty ok
  intro p _ _
  have place : alignDown ptr + (p - ptr / frameSize) * frameSize = p * frameSize := by
    simp only [alignDown, frameSize] at *
    omega
  have found := validatePages_ok checked (p - ptr / frameSize) (by omega)
  rw [place] at found
  obtain ⟨m,covering,permits⟩ := found
  obtain ⟨covers,i,cell⟩ := mappingCovering_some covering
  refine ⟨by omega,fun aligned => ?_,m,covering,permits, (resident.backed i m p cell covers).translated permits⟩
  simp only [frameSize] at *
  omega

theorem walked_new {src src' : σ} (created : new src = (.ok sp, src')) :
    ∃ arch, arch.Walked port ∧ sp = fromArch arch := by
  unfold AddressSpace.new ArchSpace.new at created
  split at created
  · cases created
  rename_i made
  cases created
  split at made
  · cases made
  · cases made
    exact ⟨_,fun p there => absurd rfl there,rfl⟩

def after (history : List VmAction) (check : AddressSpace default → Bool) : Bool :=
  (booted.bind fun w => performAll (fun _ _ _ => True) (perform x8664) [] w history).any (·.space.any check)

variable {history : List VmAction}

theorem after_eq_true (h : after history check = true) :
    ∃ sp l, ∃ w : VmWorld default (FrameLedger (BumpFrameAllocator default)), ∃ sp',
      new ⟨new machineMemory, []⟩ = (.ok sp, l) ∧
      Run (Step x8664) ⟨some sp, l⟩ history w ∧ w.space = some sp' ∧ check sp' = true := by
  obtain ⟨sp,l,w,created,run,live⟩ := booted_reaches _ _ id history (·.space.any check = true) (by simpa [after] using h)
  obtain ⟨sp',there,checked⟩ := (any_eq_true _ _).mp live
  exact ⟨sp,l,w,sp',created,run,there,checked⟩

/-- A page of anonymous memory: the check passes for a write to it, and the page
    tables let the write through. -/
theorem anonymous_page_is_translated :
    ∃ sp l, ∃ w : VmWorld default (FrameLedger (BumpFrameAllocator default)), ∃ sp',
      new ⟨new machineMemory, []⟩ = (.ok sp, l) ∧
      Run (Step x8664) ⟨some sp, l⟩ [.mapAnonymous 0x40000000 4096 rw.user] w ∧
      w.space = some sp' ∧ sp'.validateUserRange .x8664 0x40000000 16 true = .ok () ∧
      sp'.Translated true 0x40000 := by
  have done : after [.mapAnonymous 0x40000000 4096 rw.user] (fun sp => sp.validateUserRange .x8664 0x40000000 16 true =
      .ok () ∧ sp.backingAt 0x40000000 = some .anonymous) = true := by decide +kernel
  obtain ⟨sp,l,w,sp',created,run,there,checked⟩ := after_eq_true done
  obtain ⟨ok,backing⟩ := of_decide_eq_true checked
  refine ⟨sp,l,w,sp',created,run,there,ok,?_⟩
  obtain ⟨_,walked,rfl⟩ := walked_new created
  have careful : Disciplined (fun _ w a => w.Careful x8664 a ∧ a.Canonical x8664) (Step x8664) _ _ w :=
    Disciplined.start.more ⟨fun sp same => by trivial,by decide⟩ run.single
  obtain ⟨m,covering,_,out⟩ :=
    (validated_pages_are_user_memory walked careful there (by decide) ok 0x40000 (by decide) (by decide)).2.2
  have anonymous : m.backing = .anonymous := by
    rw [backingAt, show sp'.mappingCovering 0x40000000 = some m from covering] at backing
    exact Option.some.inj backing
  rw [anonymous] at out
  simpa [Backing.isLazy] using out

/-- After the history the check passes for the first bytes of the page at
    0x40000000, and the page tables do not let the copy through. -/
def CanFault (history : List VmAction) (needWrite : Bool) : Prop :=
  ∃ sp l, ∃ w : VmWorld default (FrameLedger (BumpFrameAllocator default)), ∃ sp',
    new ⟨new machineMemory, []⟩ = (.ok sp, l) ∧
    Run (Step x8664) ⟨some sp, l⟩ history w ∧ w.space = some sp' ∧
    sp'.validateUserRange .x8664 0x40000000 16 needWrite = .ok () ∧ ¬sp'.Translated needWrite 0x40000

theorem canFault_of_after (h : after history (fun sp => sp.validateUserRange .x8664 0x40000000 16 needWrite = .ok () ∧
      (sp.arch.translate 0x40000000).any (fun entry => decide (entry.2.Permits needWrite)) = false) = true) :
    CanFault history needWrite := by
  obtain ⟨sp,l,w,sp',created,taken,there,checked⟩ := after_eq_true h
  obtain ⟨ok,blocked⟩ := of_decide_eq_true checked
  refine ⟨sp,l,w,sp',created,taken,there,ok,fun translated => ?_⟩
  obtain ⟨_,_,entry,permits⟩ := translated
  rw [show sp'.arch.translate 0x40000000 = _ from entry] at blocked
  simp [permits] at blocked

/-- Ranges that pass the check and whose page the page tables do not let through: a
    pager-backed and a demand-zero page that is not there yet, a copy-on-write page
    that is read-only until it is copied; and then an anonymous page after an
    eviction, a device unmap, a write-back protection and a snapshot that stopped at
    a page in its way. -/
theorem validated_page_can_fault : CanFault [.mapObject 0x40000000 4096 rw.user ⟨0x1000⟩ 0] false ∧
    CanFault [.mapAnonymousDemand 0x40000000 4096 rw.user] false ∧
    CanFault [.mapAnonymous 0x40000000 4096 rw.user, .snapshotCow 0x40000000 0x50000000 4096] true ∧
    CanFault [.mapAnonymous 0x40000000 4096 rw.user, .evictPage 0x40000000] false ∧
    CanFault [.mapAnonymous 0x40000000 4096 rw.user, .unmapDevicePage 0x40000000] false ∧
    CanFault [.mapAnonymous 0x40000000 4096 rw.user, .reprotectRo 0x40000000] true ∧
    CanFault [.mapAnonymous 0x40000000 4096 rw.user, .mapDeviceRange 0x50000000 registers 1 .user,
      .snapshotCow 0x40000000 0x50000000 4096] true := by
  refine ⟨?_,?_,?_,?_,?_,?_,?_⟩ <;> exact canFault_of_after (by decide +kernel)

end VmWorld
end Tessera
