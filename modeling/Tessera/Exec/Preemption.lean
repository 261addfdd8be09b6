import Tessera.Exec.Scheduler

/-!
The rest of one processor's scheduler: the timer's tick with the quantum it
counts down, and the end of a thread. A thread that ends keeps its slot until it
is reaped. The clock stands beside the scheduler, since nothing but a tick and a
dispatch reads it.
-/
namespace Tessera
variable {C : Type} {cfg : Config}

structure Clock where
  quantum : Nat
  quantumReset : Nat
  ticks : Nat
  tickLimit : Nat
  deriving DecidableEq

namespace Clock

def new (quantum tickLimit : Nat) : Clock := ⟨max quantum 1, max quantum 1, 0, tickLimit⟩

def atLimit (c : Clock) : Bool := c.tickLimit ≠ 0 ∧ c.tickLimit ≤ c.ticks + 1

end Clock

namespace Scheduler

section
variable (s : Scheduler C cfg) (slot : Nat)

/-- A refused entry is counted by the kernel and not reported. -/
def enqueue : Scheduler C cfg :=
  match s.ready.push slot with
  | none => s
  | some ready => { s with ready }

def requeueCurrent : Scheduler C cfg :=
  match s.current with
  | none => s
  | some slot => (s.setState slot .ready).enqueue slot

def onTick (clock : Clock) : Scheduler C cfg × Clock :=
  if clock.atLimit then
    (s.requeueCurrent.switchTo none, { clock with ticks := clock.ticks + 1 })
  else if 1 < clock.quantum then
    (s, { clock with ticks := clock.ticks + 1, quantum := clock.quantum - 1 })
  else
    match s.popReady with
    | (none, s) => (s, { clock with ticks := clock.ticks + 1, quantum := clock.quantumReset })
    | (some next, s) =>
      (s.requeueCurrent.switchTo (some next), { clock with ticks := clock.ticks + 1, quantum := clock.quantumReset })

/-- A dispatch starts a fresh quantum, if there is a thread to give it to. -/
def runClock (clock : Clock) : Clock :=
  match s.popReady.1 with
  | none => clock
  | some _ => { clock with quantum := clock.quantumReset }

def terminate : Scheduler C cfg := s.setState slot .exited

def endCurrent : Scheduler C cfg :=
  match s.current with
  | none => s
  | some slot => s.terminate slot

def exitCurrent : Scheduler C cfg :=
  s.endCurrent.popReady.2.switchTo s.endCurrent.popReady.1

def withoutEntry : Scheduler C cfg :=
  s.setReady (s.ready.items.filter (· ≠ slot)) ((List.length_filter_le ..).trans s.ready.fits)

/-- The thread that runs is never reaped. -/
def reap : Option (Thread C) × Scheduler C cfg :=
  if s.current = some slot then (none, s)
  else (s.thread slot, { s.withoutEntry slot with threads := s.threads.clear slot })

end

section
variable (s : Scheduler C cfg)

theorem threadState_setState (slot other : Nat) (state : ThreadState) : (s.setState slot state).threadState other =
      if slot = other then (s.threadState other).map fun _ => state else s.threadState other := by
  unfold threadState
  rw [setState, thread_alter]
  split
  · rw [Option.map_map, Option.map_map]
    rfl
  · rfl

theorem threadState_switchTo (next : Option Nat) (slot : Nat) : (s.switchTo next).threadState slot =
      if next = some slot then (s.threadState slot).map fun _ => .running else s.threadState slot := by
  unfold threadState
  rw [switchTo_thread]
  split
  · rw [Option.map_map, Option.map_map]
    rfl
  · rfl

theorem switchTo_ready (next : Option Nat) : (s.switchTo next).ready = s.ready := by
  cases next <;> rfl

theorem popReady_current : s.popReady.2.current = s.current := by
  unfold popReady
  split <;> rfl

section
variable (slot : Nat)

theorem enqueue_threads : (s.enqueue slot).threads = s.threads := by
  unfold enqueue
  split <;> rfl

theorem enqueue_nextThreadId : (s.enqueue slot).nextThreadId = s.nextThreadId := by
  unfold enqueue
  split <;> rfl

theorem enqueue_items : (s.enqueue slot).ready.items = s.ready.items ++ [slot] ∨
      s.ready.items.length = cfg.maxThreads ∧ (s.enqueue slot).ready.items = s.ready.items := by
  unfold enqueue
  split
  · rename_i full
    exact .inr ⟨Bounded.push_eq_none.mp full,rfl⟩
  · rename_i pushed
    exact .inl (Bounded.push_eq_some.mp pushed).2

theorem popReady_threadState : s.popReady.2.threadState slot = s.threadState slot := by
  rw [threadState, popReady_thread]
  rfl

theorem reap_cases : (s.reap slot).2 = s ∨ (s.reap slot).2.ready.items = s.ready.items.filter (· ≠ slot) ∧
      ∀ other, (s.reap slot).2.thread other = if slot = other then none else s.thread other := by
  unfold reap
  split
  · exact .inl rfl
  refine .inr ⟨rfl,?_⟩
  exact fun other => s.threads.cell_clear slot other

theorem reap_current : (s.reap slot).2.current = s.current := by
  unfold reap
  split <;> rfl

theorem reap_nextThreadId : (s.reap slot).2.nextThreadId = s.nextThreadId := by
  unfold reap
  split <;> rfl

end

theorem enqueue_threadState (slot other : Nat) : (s.enqueue slot).threadState other = s.threadState other := by
  rw [threadState, thread, enqueue_threads]
  rfl

end

end Scheduler

structure ClockedScheduler (C : Type) (cfg : Config) where
  cpu : Nat
  sched : Scheduler C cfg
  clock : Clock

inductive SchedAction (C : Type) where
  | addThread (thread : Thread C) (correlation : Nat)
  | dispatch
  | blockCurrent
  | handoffTo (target : Nat)
  | unblock (slot : Nat)
  | unblockThread (slot : Nat) (id : ThreadId)
  | onTick
  | exitCurrent
  | terminate (slot : Nat)
  | reap (slot : Nat)

namespace ClockedScheduler

def new (cpu quantum tickLimit : Nat) : ClockedScheduler C cfg := ⟨cpu, .new, .new quantum tickLimit⟩

/-- The run loop dispatches only when no thread runs, and a switch to an empty
    slot has no context to load. -/
def perform (d : ClockedScheduler C cfg) : SchedAction C → Option (ClockedScheduler C cfg)
  | .addThread thread correlation => some { d with sched := (d.sched.addThread d.cpu thread correlation).2 }
  | .dispatch =>
    if d.sched.current = none then some { d with sched := d.sched.run, clock := d.sched.runClock d.clock } else none
  | .blockCurrent => some { d with sched := d.sched.blockCurrent }
  | .handoffTo target =>
    if (d.sched.thread target).isSome then some { d with sched := d.sched.handoffTo target } else none
  | .unblock slot => some { d with sched := d.sched.unblock slot }
  | .unblockThread slot id => some { d with sched := d.sched.unblockThread slot id }
  | .onTick => some { d with sched := (d.sched.onTick d.clock).1, clock := (d.sched.onTick d.clock).2 }
  | .exitCurrent => some { d with sched := d.sched.exitCurrent }
  | .terminate slot => some { d with sched := d.sched.terminate slot }
  | .reap slot => some { d with sched := (d.sched.reap slot).2 }

def Step (d : ClockedScheduler C cfg) (a : SchedAction C) (e : ClockedScheduler C cfg) : Prop :=
  d.perform a = some e

end ClockedScheduler
end Tessera
