import Tessera.Vm.FrameBalance
import Tessera.Vm.FrameReturn
import Tessera.Vm.PagesUnderRecords

/-!
What becomes of the frame references a space takes, over whole runs and to its end. Since
every page is under a record, taking the records down one by one takes every page down,
and what the balance then shows is what was handed on: the frames of ranges that were
unmapped without being given back, and the tables the space does not own alone.
-/
namespace Tessera
open AddressSpace Option List ArchSpace Balanced VmWorld
variable {cfg : Config} {σ : Type} {port : ArchPort}

namespace AddressSpace
variable [FrameSource σ] {sp sp' : AddressSpace cfg} {gone : List PhysFrame} {l l' : FrameLedger σ}

def unmappedFrames (sp : AddressSpace cfg) (base len : Nat) : List PhysFrame :=
  match sp.findExact base len with
  | .none => []
  | .some idx =>
    if (sp.mappings.cell idx).any (Backing.isShared ·.backing) then []
    else sp.leadingFrames base (len / frameSize) 0

def handsOn (port : ArchPort) (sp : AddressSpace cfg) : VmAction → List PhysFrame
  | .unmapRange base len => sp.unmappedFrames base len
  | .teardown => sp.arch.commonTables port
  | _ => []

/-- The actions the balance is kept by: those on mapping records, where a snapshot does
    not fail once it has begun to share pages and a private copy can be given the rights
    of its record. -/
def Conserves (port : ArchPort) (sp : AddressSpace cfg) (source : σ) : VmAction → Prop
  | .mapDeviceRange _ _ _ _ | .unmapDevicePages _ _ | .unmapDevicePage _ => False
  | .snapshotCow src dst len =>
    (sp.snapshotCow port src dst len source).1 = .ok () ∨ (sp.snapshotCow port src dst len source).2 = (sp, source)
  | .resolveFault va _ => ∀ m, sp.mappingCovering va = some m → m.backing = .cow → port.accepts m.rights = true
  | _ => True

structure Settled (port : ArchPort) (gone : List PhysFrame) (sp : AddressSpace cfg) (l : FrameLedger σ) : Prop where
  orderly : Orderly port sp
  housed : Housed sp
  balanced : Balanced gone sp.arch [] l

omit [FrameSource σ] in
theorem unmapRange_balanced (balanced : Balanced gone sp.arch [] l) (base len : Nat) :
    Balanced (gone ++ sp.unmappedFrames base len) (sp.unmapRange base len).2.arch [] l := by
  unfold AddressSpace.unmapRange unmappedFrames
  cases found : sp.findExact base len with
  | none =>
    rw [append_nil]
    exact balanced
  | some idx =>
    dsimp only
    by_cases shared : (sp.mappings.cell idx).any (Backing.isShared ·.backing) = true
    · rw [if_pos shared, if_pos shared, append_nil]
      exact balanced
    rw [if_neg shared, if_neg shared]
    split
    · rename_i unmapped
      exact unmapPages_balanced balanced unmapped
    rename_i unmapped
    have taken := unmapPages_balanced balanced unmapped
    exact taken

theorem snapshotCow_balanced (balanced : Balanced gone sp.arch [] l)
    (done : sp.snapshotCow port src dst len l = (.ok (), sp', l')) : Balanced gone sp'.arch [] l' := by
  rcases snapshotCow_cases done with ⟨⟨_,failed⟩,_⟩ | ⟨_,_,_,_,_,_,_,_,_,_,copied,⟨⟨_,failed⟩,_⟩ | ⟨_,rfl⟩⟩
  · cases failed
  · cases failed
  have shared := (balanceAccount gone).snapshotPages balanced (fun _ _ _ => trivial) (fun _ _ => trivial)
    .none (fun failed => absurd rfl failed) copied
  rw [recordMapped_arch]
  exact shared.1

theorem Orderly.forgives (orderly : Orderly port sp) (found : sp.mappingCovering va = some m)
    (accepted : port.accepts m.rights = true) :
    (balanceAccount gone : FrameAccount (FrameLedger σ)).Forgives port sp (alignDown va) m.rights := by
  intro _ _ _ _ _ _ _ unmapped mapped _
  obtain ⟨_,i,cell⟩ := mappingCovering_some found
  have ok := map_again orderly.walked unmapped (by simp only [alignDown, frameSize]; omega)
    (orderly.plain i m cell) accepted mapped
  cases ok

theorem snapshotCow_kept {P : AddressSpace cfg → FrameLedger σ → Prop}
    (careful : sp.Conserves port l (.snapshotCow src dst len)) (before : P sp l)
    (after : ∀ mid l', sp.snapshotCow port src dst len l = (.ok (), mid, l') → P mid l')
    (done : sp.perform port l (.snapshotCow src dst len) = (some sp', l')) : P sp' l' := by
  cases call : sp.snapshotCow port src dst len l with
  | mk =>
    rw [AddressSpace.perform, call] at done
    cases done
    rw [Conserves, call] at careful
    rcases careful with ok | same
    · dsimp only at ok
      subst ok
      exact after _ _ call
    subst same
    exact before

variable {a : VmAction}

theorem housed_perform (orderly : Orderly port sp) (housed : Housed sp) (careful : sp.Conserves port l a)
    (done : sp.perform port l a = (some sp', l')) : Housed sp' := by
  cases a with cases done
  | mapAnonymous => exact housed.mapAnonymous rfl
  | mapShared => exact housed.mapShared rfl
  | mapAnonymousDemand | mapObject => exact housed.mapLazy rfl
  | installObjectPage => exact housed.installObjectPage orderly rfl
  | grantWrite va => exact housed.reflag (rfl : sp.reflag port va id = (_, (sp.grantWrite port va).2))
  | reprotectRo va => exact housed.reflag (rfl : sp.reflag port va readOnly = (_, (sp.reprotectRo port va).2))
  | evictPage => exact housed.evictPage rfl
  | resolveFault => exact housed.resolveFault orderly rfl
  | snapshotCow =>
    exact snapshotCow_kept (P := fun sp _ => Housed sp) careful housed (fun _ _ call => housed.snapshotCow call) rfl
  | unmapRange => exact housed.unmapRange orderly rfl
  | reclaimRange => exact housed.reclaimRange orderly rfl
  | protectRange => exact housed.protectRange rfl
  | _ => exact absurd careful id

theorem balanced_perform (orderly : Orderly port sp) (balanced : Balanced gone sp.arch [] l)
    (careful : sp.Conserves port l a) (done : sp.perform port l a = (some sp', l')) :
    Balanced (gone ++ sp.handsOn port a) sp'.arch [] l' := by
  cases a with cases done
  | unmapRange base len => exact unmapRange_balanced balanced base len
  | mapDeviceRange | unmapDevicePages | unmapDevicePage => exact absurd careful id
  | mapAnonymous => exact nothing ((balanceAccount gone).mapAnonymous balanced rfl)
  | mapShared => exact nothing ((balanceAccount gone).mapShared balanced trivial rfl)
  | mapAnonymousDemand | mapObject => exact nothing ((balanceAccount gone).mapLazy balanced rfl)
  | installObjectPage va frame => exact nothing ((balanceAccount gone).installRetained (balanced.retain frame) rfl)
  | grantWrite => exact nothing ((balanceAccount gone).reflag id balanced (fun _ => trivial) rfl)
  | reprotectRo => exact nothing ((balanceAccount gone).reflag readOnly balanced (fun _ => trivial) rfl)
  | evictPage => exact nothing ((balanceAccount gone).evictPage balanced trivial rfl)
  | resolveFault =>
    exact nothing ((balanceAccount gone).resolveFault balanced (fun _ => trivial)
      (fun m found cow => orderly.forgives found (careful m found cow)) rfl)
  | snapshotCow =>
    have copied := snapshotCow_kept (P := fun sp l => Balanced gone sp.arch [] l) careful balanced
      (fun _ _ call => snapshotCow_balanced balanced call) rfl
    exact nothing copied
  | reclaimRange => exact nothing ((balanceAccount gone).reclaimRange balanced (fun _ _ _ _ => trivial) rfl)
  | protectRange => exact nothing ((balanceAccount gone).protectRange balanced (fun _ _ _ _ => trivial) rfl)

theorem Settled.perform (settled : Settled port gone sp l) (careful : sp.Conserves port l a)
    (done : sp.perform port l a = (some sp', l')) : Settled port (gone ++ sp.handsOn port a) sp' l' :=
  ⟨settled.orderly.perform done,housed_perform settled.orderly settled.housed careful done,
    balanced_perform settled.orderly settled.balanced careful done⟩

omit [FrameSource σ] in
theorem closeWindow_tables (sp : AddressSpace cfg) (base pages i : Nat) :
    (sp.closeWindow base pages i).arch.tables = sp.arch.tables := by
  induction pages generalizing sp i with
  | zero => rfl
  | succ pages ih => exact (ih _ _).trans (unmap_tables sp.arch _).1

structure Emptied (places : List Nat) (sp sp' : AddressSpace cfg) : Prop where
  cells : ∀ j, sp'.mappings.cell j = if j ∈ places then none else sp.mappings.cell j
  tables : sp'.arch.tables = sp.arch.tables

theorem teardownSlot_emptied (orderly : Orderly port sp) (housed : Housed sp)
    (done : sp.teardownSlot l idx = (sp', l')) : Orderly port sp' ∧ Housed sp' ∧ Emptied [idx] sp sp' := by
  have cells : ∀ j, sp'.mappings.cell j = if j ∈ [idx] then none else sp.mappings.cell j := by
    intro _
    rw [teardownSlot_cell done]
    simp
  unfold AddressSpace.teardownSlot at done
  split at done
  · cases done
    exact ⟨orderly,housed,cells,rfl⟩
  rename_i m cell
  split at done
  rename_i mid _ loop
  cases done
  have within := unmapAndFree_within loop
  have edits : Edits port (fun _ _ => True) (sp.dropRecord idx) mid := unmapAndFree_edits (fun _ _ _ => trivial) loop
  refine ⟨(orderly.drop idx).kept edits.mappings edits.walked,?_,cells,?_⟩
  swap
  · rw [unmapAndFree_space loop]
    exact closeWindow_tables ..
  exact housed.drop cell (orderly.aligned idx m cell) within.pages within.mappings within.count

theorem teardownSlots_emptied (idxs : List Nat) (orderly : Orderly port sp) (housed : Housed sp)
    (done : sp.teardownSlots l idxs = (sp', l')) : Housed sp' ∧ Emptied idxs sp sp' := by
  induction idxs generalizing sp l with
  | nil =>
    cases done
    exact ⟨housed,fun j => by rw [if_neg not_mem_nil],rfl⟩
  | cons idx rest ih =>
    unfold AddressSpace.teardownSlots at done
    split at done
    rename_i slot
    obtain ⟨orderly,housed,first⟩ := teardownSlot_emptied orderly housed slot
    obtain ⟨housed,later⟩ := ih orderly housed done
    refine ⟨housed,fun j => ?_,later.tables.trans first.tables⟩
    rw [later.cells, first.cells]
    by_cases here : j ∈ rest <;> by_cases same : j = idx <;> simp [here, same]

theorem Settled.teardown (settled : Settled port gone sp l) (f : PhysFrame) : (sp.teardown port l).taken f =
      (sp.teardown port l).returned f + (gone ++ sp.handsOn port .teardown).count f := by
  unfold AddressSpace.teardown
  split
  rename_i down l' loop
  obtain ⟨housed,emptied⟩ := teardownSlots_emptied _ settled.orderly settled.housed loop
  have balanced : Balanced gone down.arch [] l' :=
    (balanceAccount gone).teardownSlots _ settled.balanced (fun _ _ _ _ _ _ => trivial) loop
  have noRecord : ∀ j, down.mappings.cell j = none := by
    intro _
    rw [emptied.cells]
    split
    · rfl
    · rename_i outside
      exact sp.mappings.cell_of_le (Nat.not_lt.mp fun inside => outside (mem_range.mpr inside))
  have noPage : ∀ p, down.arch.pages p = none := by
    intro p
    by_contra there
    obtain ⟨_,_,cell,_⟩ := housed.covered p there
    rw [noRecord] at cell
    cases cell
  have common : sp.handsOn port .teardown = down.arch.commonTables port := by
    unfold handsOn ArchSpace.commonTables
    rw [emptied.tables]
  rw [common]
  exact balanced.freeTables noPage f

theorem settled_new (created : AddressSpace.new ⟨src, []⟩ = (.ok sp, l)) : Settled port [] sp l := by
  unfold AddressSpace.new ArchSpace.new at created
  split at created
  · cases created
  rename_i made
  split at made
  · cases made
  rename_i drawn
  have counts := FrameLedger.taken_alloc_some drawn
  cases made
  cases created
  refine ⟨orderly_fromArch fun p there => absurd rfl there,housed_fromArch fun _ => rfl,fun f => ?_⟩
  obtain ⟨taken,returned⟩ := counts f
  refine ⟨0,Tally.exactly_zero fun p there => (nomatch there),?_⟩
  rw [taken, returned]
  simp [fromArch, tableFrames, FrameLedger.taken, FrameLedger.returned]

end AddressSpace

structure SpaceAccount (cfg : Config) (σ : Type) where
  world : VmWorld cfg (FrameLedger σ)
  handedOn : List PhysFrame

namespace SpaceAccount
open Transition
variable [FrameSource σ]

section
variable (port : ArchPort) (s : SpaceAccount cfg σ)

def perform (port : ArchPort) (s : SpaceAccount cfg σ) (a : VmAction) : Option (SpaceAccount cfg σ) :=
  s.world.space.bind fun sp => (s.world.perform port a).map fun world => ⟨world, s.handedOn ++ sp.handsOn port a⟩

def Step (a : VmAction) (s' : SpaceAccount cfg σ) : Prop :=
  s.perform port a = some s'

def Careful (a : VmAction) : Prop :=
  ∀ sp, s.world.space = some sp → sp.Conserves port s.world.source a

def Accounted : Prop :=
  match s.world.space with
  | some sp => sp.Settled port s.handedOn s.world.source
  | none => ∀ f, s.world.source.taken f = s.world.source.returned f + s.handedOn.count f

end

theorem Accounted.step {s s' : SpaceAccount cfg σ} (acc : s.Accounted port)
    (careful : s.Careful port a) (step : Step port s a s') : s'.Accounted port := by
  obtain ⟨sp,there,rest⟩ := bind_eq_some_iff.mp step
  obtain ⟨_,performed,rfl⟩ := map_eq_some_iff.mp rest
  rw [VmWorld.perform, there, map_some] at performed
  cases performed
  rw [Accounted, there] at acc
  cases done : sp.perform port s.world.source a with
  | mk space =>
    cases space with
    | some => exact acc.perform (careful sp there) done
    | none =>
      cases a with
      | teardown =>
        cases done
        exact acc.teardown
      | _ => cases done

theorem accounted_run {start s : SpaceAccount cfg σ} (acc : start.Accounted port)
    (run : Disciplined (fun _ => Careful port) (Step port) start history s) : s.Accounted port := by
  refine run.invariant (fun _ s => s.Accounted port) ?_ acc
  intro _ _ _ _ acc careful step
  exact acc.step careful step

/-- In every run of a space the references given back and handed on are never more than
    those taken, and when the space is torn down they are just those taken. -/
theorem references_return_once {source : σ} {sp : AddressSpace cfg} {l : FrameLedger σ} {history : List VmAction}
    {s : SpaceAccount cfg σ} (created : AddressSpace.new ⟨source, []⟩ = (.ok sp, l))
    (run : Disciplined (fun _ => Careful port) (Step port) ⟨⟨some sp, l⟩, []⟩ history s) (f : PhysFrame) :
    s.world.source.returned f + s.handedOn.count f ≤ s.world.source.taken f ∧
      (s.world.space = none → s.world.source.taken f = s.world.source.returned f + s.handedOn.count f) := by
  have start : Accounted port (⟨⟨some sp, l⟩, []⟩ : SpaceAccount cfg σ) := AddressSpace.settled_new created
  have acc := accounted_run start run
  unfold Accounted at acc
  cases there : s.world.space with
  | some =>
    rw [there] at acc
    obtain ⟨_,_,_⟩ := acc.balanced f
    exact ⟨by omega,nofun⟩
  | none =>
    rw [there] at acc
    have settled := acc f
    exact ⟨by omega,fun _ => settled⟩

def clearlyCareful (port : ArchPort) (s : SpaceAccount cfg σ) (a : VmAction) : Bool :=
  s.world.space.all fun sp =>
    match a with
    | .mapDeviceRange _ _ _ _ | .unmapDevicePages _ _ | .unmapDevicePage _ => false
    | .snapshotCow src dst len => (sp.snapshotCow port src dst len s.world.source).1.isOk
    | .resolveFault va _ => (sp.mappingCovering va).all (port.accepts ·.rights)
    | _ => true

theorem careful_of_clearly {s : SpaceAccount cfg σ} (clear : s.clearlyCareful port a = true) : s.Careful port a := by
  intro sp there
  rw [clearlyCareful, there, all_some] at clear
  cases a with
  | mapDeviceRange | unmapDevicePages | unmapDevicePage => cases clear
  | snapshotCow src dst len =>
    dsimp only at clear
    refine .inl ?_
    cases result : (sp.snapshotCow port src dst len s.world.source).1 with
    | ok => rfl
    | error =>
      rw [result] at clear
      cases clear
  | resolveFault =>
    dsimp only at clear
    intro _ found _
    rw [found] at clear
    exact clear
  | _ => trivial

/-- A range is filled on a fault, shared with a snapshot, copied where it is written and
    partly evicted; the rest goes with the space, and every reference is back. -/
theorem snapshot_and_copy_return : ∃ sp l s, AddressSpace.new ⟨BumpFrameAllocator.new VmWorld.machineMemory, []⟩ = (.ok sp, l) ∧
    Disciplined (fun _ => Careful ArchPort.x8664) (Step ArchPort.x8664)
      (⟨⟨some sp, l⟩, []⟩ : SpaceAccount Config.default (BumpFrameAllocator Config.default))
      [.mapAnonymous 0x40000000 8192 PageFlags.rw.user, .snapshotCow 0x40000000 0x50000000 8192,
        .resolveFault 0x50000010 true, .evictPage 0x40001000, .teardown] s ∧
    s.handedOn = [] ∧ ∀ f, s.world.source.taken f = s.world.source.returned f := by
  obtain ⟨sp,l,s,created,clear,torn,nothing⟩ := VmWorld.booted_reaches
    (fun _ s a => clearlyCareful ArchPort.x8664 s a = true) (perform ArchPort.x8664) (fun w => ⟨w, []⟩)
    [.mapAnonymous 0x40000000 8192 PageFlags.rw.user, .snapshotCow 0x40000000 0x50000000 8192,
      .resolveFault 0x50000010 true, .evictPage 0x40001000, .teardown]
    (fun s => s.world.space.isNone = true ∧ s.handedOn = []) (by decide +kernel)
  have run := clear.mono fun _ _ _ => careful_of_clearly
  refine ⟨sp,l,s,created,run,nothing,fun f => ?_⟩
  have settled := (references_return_once created run f).2 (isNone_iff_eq_none.mp torn)
  rwa [nothing, count_nil, Nat.add_zero] at settled

/-- A range that is unmapped before the space goes: its frame is never given back. -/
theorem unmapped_frame_is_not_returned :
    ∃ sp l w f, AddressSpace.new ⟨BumpFrameAllocator.new VmWorld.machineMemory, []⟩ = (.ok sp, l) ∧
      Run (VmWorld.Step ArchPort.x8664)
        (⟨some sp, l⟩ : VmWorld Config.default (FrameLedger (BumpFrameAllocator Config.default)))
        [.mapAnonymous 0x40000000 4096 PageFlags.rw.user, .unmapRange 0x40000000 4096, .teardown] w ∧
      w.space = none ∧ w.source.taken f = 1 ∧ w.source.returned f = 0 := by
  obtain ⟨sp,l,w,created,run,torn,facts⟩ := VmWorld.booted_reaches (fun _ _ _ => True) (VmWorld.perform ArchPort.x8664) id
    [.mapAnonymous 0x40000000 4096 PageFlags.rw.user, .unmapRange 0x40000000 4096, .teardown]
    (fun w => w.space.isNone = true ∧ w.source.taken ⟨0x101000, by decide⟩ = 1 ∧
      w.source.returned ⟨0x101000, by decide⟩ = 0) (by decide +kernel)
  exact ⟨sp,l,w,_,created,run,isNone_iff_eq_none.mp torn,facts⟩

end SpaceAccount
end Tessera
