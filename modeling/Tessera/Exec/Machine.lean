import Tessera.Exec.Residence
import Tessera.Exec.Preemption
import Tessera.Job.JobTable

/-!
The executive with the rest of what can stop or start a thread: each processor's
clock, the set of threads that wait for a word of memory, and the jobs. A wait
compares the word under the same hold that enrolls the thread; a kill ends the
member threads it finds on the killing processor and signals the jobs' ports.
-/
namespace Tessera
variable {cfg : Config} {M : Type}

structure WaitKey where
  frame : Nat
  offset : Nat
  deriving DecidableEq

structure Waiter where
  key : WaitKey
  thread : ThreadId
  deriving DecidableEq

structure WaitSet (cfg : Config) where
  waiters : Slots Waiter cfg.maxWaiters
  deriving DecidableEq

namespace WaitSet

def new : WaitSet cfg := ⟨.empty⟩

def enroll (t : WaitSet cfg) (key : WaitKey) (thread : ThreadId) : Option (WaitSet cfg) :=
  t.waiters.free?.map fun slot => ⟨t.waiters.put slot ⟨key, thread⟩⟩

def popMatching (t : WaitSet cfg) (key : WaitKey) : Option (ThreadId × WaitSet cfg) :=
  (t.waiters.index? (·.key = key)).bind fun slot =>
    (t.waiters.cell slot).map fun waiter => (waiter.thread, ⟨t.waiters.clear slot⟩)

end WaitSet

structure Machine (M : Type) (cfg : Config) where
  exec : Executive M cfg
  clocks : Fin cfg.maxCpus → Clock
  waits : WaitSet cfg
  jobs : JobTable cfg

inductive MachineAction (M : Type) (cfg : Config) where
  | exec (a : ExecAction M cfg)
  | sched (cpu : Fin cfg.maxCpus) (a : SchedAction Frame)
  | waitOnAddress (cpu : Fin cfg.maxCpus) (key : WaitKey) (expected : Nat) (read : Except KError Nat)
  | wake (cpu : Fin cfg.maxCpus) (key : WaitKey) (count : Nat)
  | portCreate
  | portBind (port : PortId) (source signal : Nat)
  | portSignal (cpu : Fin cfg.maxCpus) (source signal edges : Nat)
  | portWait (cpu : Fin cfg.maxCpus) (port : PortId)
  | jobCreateRoot (object : ObjectId) (limits : JobLimits)
  | jobCreateChild (parent : JobId) (object : ObjectId) (limits : JobLimits) (rights : Rights)
  | jobAddProcess (id : JobId) (member : Member) (rights : Rights)
  | jobKill (cpu : Fin cfg.maxCpus) (root : JobId) (rights : Rights)

def signalMemberExit : Nat := 1

def signalEmpty : Nat := 2

namespace Executive

def terminateHere (x : Executive M cfg) (cpu : Fin cfg.maxCpus) (id : ThreadId) : Executive M cfg :=
  match (x.sched cpu).indexOf id with
  | none => x
  | some slot => x.onCpu cpu (·.terminate slot)

def killMember (cpu : Fin cfg.maxCpus) (stateSource : Nat) (x : Executive M cfg) (member : Member) :
    Executive M cfg :=
  ((x.terminateHere cpu member.thread).portSignal cpu stateSource signalMemberExit 1).2

def killJob (cpu : Fin cfg.maxCpus) (jobs : JobTable cfg) (x : Executive M cfg) (id : JobId) : Executive M cfg :=
  match jobs.job id with
  | none => x
  | some job =>
    ((job.members.live.foldl (killMember cpu job.stateSource) x).portSignal cpu job.stateSource signalEmpty 1).2

end Executive

namespace Machine

section
variable (w : Machine M cfg) (cpu : Fin cfg.maxCpus)

def new (ports : PortTable cfg) (quantum tickLimit : Nat) : Machine M cfg where
  exec := .new ports
  clocks _ := .new quantum tickLimit
  waits := .new
  jobs := .new

def waitOnAddress (key : WaitKey) (expected : Nat) (read : Except KError Nat) : Outcome M × Machine M cfg :=
  match ((w.exec.noteResidence cpu).sched cpu).currentId with
  | none => (.failed .badHandle, { w with exec := w.exec.noteResidence cpu })
  | some me =>
    match read with
    | .error e => (.failed e, { w with exec := w.exec.noteResidence cpu })
    | .ok word =>
      if word ≠ expected then (.failed .wouldBlock, { w with exec := w.exec.noteResidence cpu })
      else
        match w.waits.enroll key me with
        | none => (.failed .outOfMemory, { w with exec := w.exec.noteResidence cpu })
        | some waits => (.parked, { w with waits, exec := (w.exec.noteResidence cpu).park cpu none .address })

/-- Each turn takes a waiter out, so there are at most as many turns as waiters. -/
def wakeLoop (cpu : Fin cfg.maxCpus) (key : WaitKey) (count : Nat) : Nat → Nat → Machine M cfg → Nat × Machine M cfg
  | 0, woken, w => (woken, w)
  | turns + 1, woken, w =>
    if woken < count then
      match w.waits.popMatching key with
      | none => (woken, w)
      | some (thread, waits) =>
        wakeLoop cpu key count turns (match w.exec.locateThread cpu thread with | .gone => woken | _ => woken + 1)
          { w with waits, exec := w.exec.wakeThread cpu thread }
    else (woken, w)

def wake (key : WaitKey) (count : Nat) : Nat × Machine M cfg :=
  wakeLoop cpu key count cfg.maxWaiters 0 w

def jobKill (root : JobId) (rights : Rights) : Except KError (List ObjectId) × Machine M cfg :=
  match w.jobs.killOrder root rights cfg.maxJobs with
  | (.error e, jobs) => (.error e, { w with jobs })
  | (.ok order, jobs) =>
    (.ok (order.flatMap jobs.processes), { w with jobs, exec := order.foldl (Executive.killJob cpu jobs) w.exec })

def clocked : ClockedScheduler Frame cfg :=
  ⟨cpu, w.exec.sched cpu, w.clocks cpu⟩

def setClocked (d : ClockedScheduler Frame cfg) : Machine M cfg :=
  { w with exec := w.exec.onCpu cpu fun _ => d.sched, clocks := Function.update w.clocks cpu d.clock }

def perform [Stamped M] (w : Machine M cfg) : MachineAction M cfg → Option (Machine M cfg)
  | .exec a => (w.exec.perform a).map fun done => { w with exec := done.2 }
  | .sched cpu a => ((w.clocked cpu).perform a).map (w.setClocked cpu)
  | .waitOnAddress cpu key expected read =>
    if w.exec.atEntry cpu then some (w.waitOnAddress cpu key expected read).2 else none
  | .wake cpu key count => if w.exec.atEntry cpu then some (w.wake cpu key count).2 else none
  | .portCreate => some { w with exec := { w.exec with ports := w.exec.ports.create.2 } }
  | .portBind port source signal =>
    some { w with exec := { w.exec with ports := (w.exec.ports.bind port source signal).2 } }
  | .portSignal cpu source signal edges =>
    if w.exec.atEntry cpu then some { w with exec := (w.exec.portSignal cpu source signal edges).2 } else none
  | .portWait cpu port => if w.exec.atEntry cpu then some { w with exec := (w.exec.portWait cpu port).2 } else none
  | .jobCreateRoot object limits => some { w with jobs := (w.jobs.createRoot object limits).2 }
  | .jobCreateChild parent object limits rights =>
    some { w with jobs := (w.jobs.createChild parent object limits rights).2 }
  | .jobAddProcess id member rights => some { w with jobs := (w.jobs.addProcess id member rights).2 }
  | .jobKill cpu root rights => if w.exec.atEntry cpu then some (w.jobKill cpu root rights).2 else none

def Step [Stamped M] (w : Machine M cfg) (a : MachineAction M cfg) (v : Machine M cfg) : Prop :=
  w.perform a = some v

end

end Machine
end Tessera
