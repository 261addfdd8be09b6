import Tessera.Lib.GenerationBarrier
import Tessera.Lib.Transition
import Tessera.Vm.PageProgram

/-!
Processors that keep translations of their own, and the messages that make them
drop these. One address space is changed by one operation at a time, cut into the
steps of its program; between any two steps the processors that run on the space
read translations out of the page tables, serve requests, and come and go. A cached
translation stays until its processor drops everything, or until the processor
that changes the page drops that page.
-/
namespace Tessera

structure Translation where
  page : Nat
  frame : PhysFrame
  flags : PageFlags
  deriving DecidableEq

structure CpuView where
  running : Bool
  cache : List Translation

/-- What an operation has taken away so far: access to a page, or writing to it. -/
inductive Revoked where
  | access (page : Nat) (frame : PhysFrame)
  | write (page : Nat) (frame : PhysFrame)
  deriving DecidableEq

namespace Revoked

def frame : Revoked → PhysFrame
  | .access _ f | .write _ f => f

def usedBy : Revoked → Translation → Bool
  | .access p f, t => t.page = p && t.frame = f
  | .write p f, t => t.page = p && t.frame = f && t.flags.writable

end Revoked

inductive VmCall (cfg : Config) where
  | evictPage (va : Nat)
  | unmapRange (base len : Nat)
  | reclaimRange (base len : Nat)
  | teardown
  | unmapDevicePages (va pages : Nat)
  | unmapDevicePage (va : Nat)
  | protectRange (base len : Nat) (rights : PageFlags)
  | reprotectRo (va : Nat)
  | snapshotCow (src dst len : Nat)
  | resolveFault (va : Nat) (write : Bool)
  /-- Any other use of the space: whatever it does to the page tables. -/
  | other (program : VmProgram cfg)

/-- How an operation takes things away: telling the other processors, telling
    nobody, or not at all. -/
inductive Manner where
  | told | untold | keeps
  deriving DecidableEq

namespace VmCall
variable {cfg : Config}

def program (sp : AddressSpace cfg) : VmCall cfg → VmProgram cfg
  | .evictPage va => .evictPage va
  | .unmapRange base len => .unmapRange sp base len
  | .reclaimRange base len => .reclaimRange sp base len
  | .teardown => .teardown sp
  | .unmapDevicePages va pages => .unmapDevicePages va pages
  | .unmapDevicePage va => .unmapDevicePage va
  | .protectRange base len rights => .protectRange sp base len rights
  | .reprotectRo va => .reprotectRo sp va
  | .snapshotCow src dst len => .snapshotCow sp src dst len
  | .resolveFault va write => .resolveFault sp va write
  | .other program => program

def manner (sp : AddressSpace cfg) : VmCall cfg → Manner
  | .evictPage _ | .unmapRange _ _ | .reclaimRange _ _ | .teardown | .unmapDevicePages _ _
  | .unmapDevicePage _ | .protectRange _ _ _ => .told
  | .reprotectRo _ | .snapshotCow _ _ _ => .untold
  | .resolveFault va write => if write && sp.backingAt va == some .cow then .untold else .keeps
  | .other _ => .keeps

section
variable {σ : Type} [FrameSource σ] (port : ArchPort)

/-- What a call answers and leaves behind when it is made with nobody else about. A
    space that was torn down is not used again: it stays as the steps leave it. -/
def carryOut (sp : AddressSpace cfg) (source : σ) : VmCall cfg → VmReturn × AddressSpace cfg × σ
  | .evictPage va => (sp.evictPage va source).map .call id
  | .unmapRange base len => (.call (sp.unmapRange base len).1, (sp.unmapRange base len).2, source)
  | .reclaimRange base len => (sp.reclaimRange base len source).map .call id
  | .teardown =>
    (((VmProgram.teardown sp).alone port sp source).1, ((VmProgram.teardown sp).alone port sp source).2.1,
      sp.teardown port source)
  | .unmapDevicePages va pages => (.unit, sp.unmapDevicePages va pages, source)
  | .unmapDevicePage va => (.call (sp.unmapDevicePage va).1, (sp.unmapDevicePage va).2, source)
  | .protectRange base len rights =>
    (.call (sp.protectRange port base len rights).1, (sp.protectRange port base len rights).2, source)
  | .reprotectRo va => (.call (sp.reprotectRo port va).1, (sp.reprotectRo port va).2, source)
  | .snapshotCow src dst len => (sp.snapshotCow port src dst len source).map .call id
  | .resolveFault va write => (sp.resolveFault port va write source).map .fault id
  | .other program => program.alone port sp source

open VmProgram AddressSpace in
/-- Run alone, the steps of a call add up to the call. -/
theorem program_alone (call : VmCall cfg) (sp : AddressSpace cfg) (source : σ) :
    (call.program sp).alone port sp source = call.carryOut port sp source := by
  cases call with simp only [program, carryOut]
  | evictPage va => fun_cases sp.evictPage va source <;> simp_all [VmProgram.evictPage, fail, setArch]
  | unmapRange base len => fun_cases sp.unmapRange base len <;> simp_all [VmProgram.unmapRange, unmapPages_alone, fail]
  | reclaimRange base len =>
    fun_cases sp.reclaimRange base len source <;> simp_all [VmProgram.reclaimRange, unmapAndFree_alone, fail]
  | teardown => simp [← teardown_alone]
  | unmapDevicePages => exact closeWindow_alone
  | unmapDevicePage va => fun_cases sp.unmapDevicePage va <;> simp_all [VmProgram.unmapDevicePage, fail]
  | protectRange base len rights =>
    fun_cases sp.protectRange port base len rights <;> simp_all [VmProgram.protectRange, protectPages_alone, fail]
  | reprotectRo va =>
    unfold VmProgram.reprotectRo AddressSpace.reprotectRo reflag
    cases sp.mappingCovering va <;> rfl
  | snapshotCow src dst len =>
    fun_cases sp.snapshotCow port src dst len source <;>
      simp_all [VmProgram.snapshotCow, snapshotPages_alone, fail, Nat.not_le_of_lt]
  | resolveFault va write =>
    fun_cases sp.resolveFault port va write source <;>
      simp_all [VmProgram.resolveFault, demandFill_alone, cowCopy_alone, outcome]
    rename_i clean
    rw [if_neg fun set => by simp [clean set.1.1 set.1.2] at set]
    rfl

end

end VmCall

inductive Stage (cfg : Config) where
  | run (program : VmProgram cfg)
  | holders (targets : List (Fin cfg.maxCpus)) (next : VmProgram cfg)
  | waiting (generation : Nat) (targets remaining : List (Fin cfg.maxCpus)) (left : Nat) (next : VmProgram cfg)

structure Task (cfg : Config) where
  manner : Manner
  cpu : Fin cfg.maxCpus
  stage : Stage cfg
  revoked : List Revoked

structure TlbWorld (cfg : Config) (σ : Type) where
  space : AddressSpace cfg
  source : σ
  activeEverywhere : Bool
  activeCores : Fin cfg.maxCpus → Bool
  online : Fin cfg.maxCpus → Bool
  spins : Nat
  barrier : GenerationBarrier.State (Fin cfg.maxCpus)
  cpus : Fin cfg.maxCpus → CpuView
  task : Option (Task cfg)

inductive Sent where
  | noSender | unsent | sent
  deriving DecidableEq

inductive TlbAction (cfg : Config) where
  | start (cpu : Fin cfg.maxCpus) (call : VmCall cfg)
  | advance
  | request (how : Sent)
  | poll
  | access (cpu : Fin cfg.maxCpus) (page : Nat)
  | load (cpu : Fin cfg.maxCpus)
  | flush (cpu : Fin cfg.maxCpus)
  | acknowledge (cpu : Fin cfg.maxCpus)
  | activate (cpu : Fin cfg.maxCpus)
  | resume (cpu : Fin cfg.maxCpus)
  | leave (cpu : Fin cfg.maxCpus)
  | bringOnline (cpu : Fin cfg.maxCpus)
  | requestElsewhere

namespace TlbWorld
variable {cfg : Config} {σ : Type} (port : ArchPort)

section
variable (w : TlbWorld cfg σ) (cpu : Fin cfg.maxCpus)

def counted : Bool :=
  if w.activeEverywhere then w.online cpu else w.activeCores cpu

def remoteHolders : List (Fin cfg.maxCpus) :=
  if port.invalidateIsBroadcast then [] else (List.finRange cfg.maxCpus).filter fun c => w.counted c && c != cpu

def setCpu (view : CpuView) : TlbWorld cfg σ :=
  { w with cpus := Function.update w.cpus cpu view }

def setStage (t : Task cfg) (stage : Stage cfg) : TlbWorld cfg σ :=
  { w with task := some { t with stage } }

/-- Drops the page on the processor that changed it, or on all of them if the
    port's invalidate reaches them. -/
def invalidate (va : Nat) : TlbWorld cfg σ :=
  { w with
    cpus := fun c =>
      if c = cpu ∨ port.invalidateIsBroadcast then
        { w.cpus c with cache := (w.cpus c).cache.filter (·.page ≠ va / frameSize) }
      else w.cpus c }

def revokedBy (arch : ArchSpace) (va : Nat) (flags : PageFlags) : List Revoked :=
  match arch.translate va with
  | .some (frame, old) => if old.writable && !flags.writable then [.write (va / frameSize) frame] else []
  | .none => []

end

variable [FrameSource σ]

section
variable (w : TlbWorld cfg σ) (t : Task cfg)

def execute : VmProgram cfg → TlbWorld cfg σ
  | .translate va next => w.setStage t (.run (next (w.space.arch.translate va)))
  | .unmap va next =>
    match w.space.arch.unmap va with
    | (.error e, _) => w.setStage t (.run (next (.error e)))
    | (.ok frame, arch) =>
      ({ w with space := w.space.setArch arch }.invalidate port t.cpu va).setStage
        { t with revoked := .access (va / frameSize) frame :: t.revoked } (.run (next (.ok frame)))
  | .protect va flags next =>
    match w.space.arch.protect port va flags with
    | (.error e, _) => w.setStage t (.run (next (.error e)))
    | (.ok (), arch) =>
      ({ w with space := w.space.setArch arch }.invalidate port t.cpu va).setStage
        { t with revoked := revokedBy w.space.arch va flags ++ t.revoked } (.run (next (.ok ())))
  | .map va frame flags next =>
    match w.space.arch.map port va frame flags w.source with
    | (.error e, arch, source) =>
      { w with space := w.space.setArch arch, source }.setStage t (.run (next (.error e)))
    | (.ok (), arch, source) =>
      ({ w with space := w.space.setArch arch, source }.invalidate port t.cpu va).setStage t
        (.run (next (.ok ())))
  | .alloc next =>
    match FrameSource.allocFrame w.source with
    | (frame, source) => { w with source }.setStage t (.run (next frame))
  | .retain frame next => { w with source := FrameSource.retainFrame w.source frame }.setStage t (.run next)
  | .free frame next => { w with source := FrameSource.freeFrame w.source frame }.setStage t (.run next)
  | .freeTables next => { w with source := w.space.arch.freeTables port w.source }.setStage t (.run next)
  | .shootDown next =>
    if (w.remoteHolders port t.cpu).isEmpty then w.setStage t (.run next)
    else w.setStage t (.holders (w.remoteHolders port t.cpu) next)
  | .ret _ finish => { w with space := finish w.space, task := none }

/-- The wait ends when every target has been seen to have answered in one pass, or
    when the bound is reached; the caller is told neither. -/
def pollTask (generation : Nat) (targets : List (Fin cfg.maxCpus))
    (left : Nat) (next : VmProgram cfg) : List (Fin cfg.maxCpus) → TlbWorld cfg σ
  | [] => w.setStage t (.run next)
  | c :: rest =>
    if generation ≤ (w.barrier.party c).acked then w.setStage t (.waiting generation targets rest left next)
    else if left = 0 then w.setStage t (.run next)
    else w.setStage t (.waiting generation targets targets (left - 1) next)

def requestTask (targets : List (Fin cfg.maxCpus)) (next : VmProgram cfg) : Sent → TlbWorld cfg σ
  | .noSender => w.setStage t (.run next)
  | .unsent => { w with barrier := w.barrier.request }.setStage t (.run next)
  | .sent =>
    { w with barrier := w.barrier.request }.setStage t
      (.waiting (w.barrier.requested + 1) targets targets w.spins next)

def perform : TlbAction cfg → Option (TlbWorld cfg σ)
  | .start cpu call =>
    match w.task with
    | .none => some { w with task := some ⟨call.manner w.space, cpu, .run (call.program w.space), []⟩ }
    | .some _ => none
  | .advance =>
    match w.task with
    | .some ⟨manner, cpu, .run program, revoked⟩ =>
      some (w.execute port ⟨manner, cpu, .run program, revoked⟩ program)
    | _ => none
  | .request how =>
    match w.task with
    | .some ⟨manner, cpu, .holders targets next, revoked⟩ =>
      some (w.requestTask ⟨manner, cpu, .holders targets next, revoked⟩ targets next how)
    | _ => none
  | .poll =>
    match w.task with
    | .some ⟨manner, cpu, .waiting generation targets remaining left next, revoked⟩ =>
      some (w.pollTask ⟨manner, cpu, .waiting generation targets remaining left next, revoked⟩ generation targets
        left next remaining)
    | _ => none
  | .access cpu page =>
    match w.space.arch.pages page with
    | .some (frame, flags) =>
      if (w.cpus cpu).running then
        some (w.setCpu cpu { w.cpus cpu with cache := ⟨page, frame, flags⟩ :: (w.cpus cpu).cache })
      else none
    | .none => none
  | .load cpu => some { w with barrier := w.barrier.load cpu }
  | .flush cpu =>
    (w.barrier.act cpu).map fun barrier => { w with barrier }.setCpu cpu { w.cpus cpu with cache := [] }
  | .acknowledge cpu => (w.barrier.publish cpu).map fun barrier => { w with barrier }
  | .activate cpu =>
    some ({ w with activeCores := Function.update w.activeCores cpu true }.setCpu cpu
      { w.cpus cpu with running := true })
  | .resume cpu => some (w.setCpu cpu { w.cpus cpu with running := true })
  | .leave cpu => some (w.setCpu cpu { w.cpus cpu with running := false })
  | .bringOnline cpu => some { w with online := Function.update w.online cpu true }
  | .requestElsewhere => some { w with barrier := w.barrier.request }

def Step (a : TlbAction cfg) (w' : TlbWorld cfg σ) : Prop := w.perform port a = some w'

end

end TlbWorld

end Tessera
