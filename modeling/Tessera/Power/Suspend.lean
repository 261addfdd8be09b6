import Tessera.Device.DeviceGraph
import Tessera.Exec.Executive
import Tessera.Lib.Transition

/-!
Stopping the machine. A wake event moves a counter that is never reset, and a hold
keeps the machine awake until it is released or its tick has come. A suspend names
the count its caller read before it began, and stops the machine only if that is
still the count and nobody holds the machine awake. One action is one section under
the machine lock, and every CPU has a clock of its own. The event ring is left out.
-/
namespace Tessera
open Slots
variable {cfg : Config} {M : Type}

def wakeGraceTicks : Nat := 4

inductive WakeError where
  | noSpace
  deriving DecidableEq

structure Hold where
  holder : ObjectId
  expiresAt : Option Nat
  deriving DecidableEq

namespace Hold

def expired (now : Nat) (h : Hold) : Bool := h.expiresAt.any (· ≤ now)

/-- A hold without a deadline counts until it is released. -/
def counts (now : Nat) (h : Hold) : Bool := h.expiresAt.all (now < ·)

theorem counts_eq (now : Nat) (h : Hold) : h.counts now = !h.expired now := by
  cases due : h.expiresAt with
  | none => simp [counts, expired, due]
  | some => simp [counts, expired, due, ← decide_not]

end Hold

structure WakeState (cfg : Config) where
  events : UInt64
  holds : Slots Hold cfg.maxWakeHolds
  deriving DecidableEq

namespace WakeState

section
variable (w : WakeState cfg) (holder : ObjectId)

def new : WakeState cfg := ⟨0, .empty⟩

def acquire (expiresAt : Option Nat) : Except WakeError Unit × WakeState cfg :=
  match w.holds.free? with
  | none => (.error .noSpace, w)
  | some slot => (.ok (), { w with holds := w.holds.put slot ⟨holder, expiresAt⟩ })

/-- The count moves whether or not there is room for the hold of the event itself. -/
def recordWake (source : ObjectId) (now : Nat) : Bool × WakeState cfg :=
  match { w with events := w.events + 1 }.acquire source (some (now + wakeGraceTicks)) with
  | (.ok (), w) => (true, w)
  | (.error _, w) => (false, w)

def release : Bool × WakeState cfg :=
  match w.holds.index? (·.holder = holder) with
  | none => (false, w)
  | some slot => (true, { w with holds := w.holds.clear slot })

def releaseAll : Nat × WakeState cfg :=
  (w.holds.live.countP (·.holder = holder), { w with holds := w.holds.discard (·.holder = holder) })

def expire (now : Nat) : Nat × WakeState cfg :=
  (w.holds.live.countP (Hold.expired now), { w with holds := w.holds.discard (Hold.expired now) })

def held (now : Nat) : Nat := w.holds.live.countP (Hold.counts now)

def holderAt (now index : Nat) : Option ObjectId :=
  ((w.holds.live.filter (Hold.counts now))[index]?).map (·.holder)

end

@[simp] theorem events_acquire (w : WakeState cfg) (holder : ObjectId) (expiresAt : Option Nat) :
    (w.acquire holder expiresAt).2.events = w.events := by
  unfold acquire
  split <;> rfl

@[simp] theorem events_recordWake (w : WakeState cfg) (src : ObjectId) (now : Nat) :
    (w.recordWake src now).2.events = w.events + 1 := by
  have moved := events_acquire { w with events := w.events + 1 } src (some (now + wakeGraceTicks))
  unfold recordWake
  split
  · rename_i taken
    rwa [taken] at moved
  · rename_i refused
    rwa [refused] at moved

@[simp] theorem events_release (w : WakeState cfg) (holder : ObjectId) : (w.release holder).2.events = w.events := by
  unfold release
  split <;> rfl

theorem holderAt_zero_eq_none {w : WakeState cfg} :
    w.holderAt now 0 = none ↔ ∀ h ∈ w.holds.live, h.counts now = false := by
  unfold holderAt
  rw [← List.head?_eq_getElem?]
  simp

theorem holderAt_expire_eq_none {w : WakeState cfg} :
    (w.expire now).2.holderAt now 0 = none ↔ ∀ h ∈ w.holds.live, h.counts now = false := by
  rw [holderAt_zero_eq_none]
  constructor
  · intro none h present
    cases gone : h.expired now with
    | true =>
      rw [Hold.counts_eq, gone]
      rfl
    | false =>
      obtain ⟨i,here⟩ := mem_live.mp present
      have kept : (w.expire now).2.holds.cell i = some h := by
        simp [expire, cell_discard, here, gone]
      exact none h (mem_live.mpr ⟨i,kept⟩)
  · intro none h present
    obtain ⟨i,here⟩ := mem_live.mp present
    have before : w.holds.cell i = some h := by
      simp only [expire, cell_discard, Option.filter_eq_some_iff] at here
      exact here.1
    exact none h (mem_live.mpr ⟨i,before⟩)

end WakeState

namespace DeviceGraph

def setWakeSource (g : DeviceGraph cfg) (id : ObjectId) (armed : Bool) : Except KError Unit × DeviceGraph cfg :=
  if !g.contains id then (.error .badHandle, g)
  else if armed && (g.state id).intid.isNone then (.error .invalidArgument, g)
  else (.ok (), g.setState id { g.state id with wakeSource := armed })

def armedWakeSource (g : DeviceGraph cfg) (intid : Nat) : Option ObjectId :=
  g.objects.find? fun id => (g.state id).wakeSource && (g.state id).intid = some intid

end DeviceGraph

inductive SuspendOutcome where
  | resumed | wakeArrived | vetoed
  deriving DecidableEq

structure SuspendReport where
  outcome : SuspendOutcome
  events : UInt64
  source : Option ObjectId
  deriving DecidableEq

/-- What a suspend comes to: it is refused at once, or its thread is off the CPU and
    the report is made when a wake puts it back. -/
inductive Suspension where
  | refused (report : SuspendReport)
  | parked
  deriving DecidableEq

structure PowerMachine (M : Type) (cfg : Config) where
  exec : Executive M cfg
  devices : DeviceGraph cfg
  ticks : Fin cfg.maxCpus → Nat
  wake : WakeState cfg
  sleeper : Option ThreadId
  resumedBy : Option ObjectId

namespace PowerMachine

section
variable (m : PowerMachine M cfg) (cpu : Fin cfg.maxCpus)

def rouse (source : ObjectId) : PowerMachine M cfg :=
  match m.sleeper with
  | none => m
  | some sleeper =>
    { m with sleeper := none, resumedBy := some source, exec := m.exec.wakeThread cpu sleeper }

def recordWake (m : PowerMachine M cfg) (cpu : Fin cfg.maxCpus) (intid : Nat) :
    Option ObjectId × PowerMachine M cfg :=
  match m.devices.armedWakeSource intid with
  | none => (none, m)
  | some source => (some source, { m with wake := (m.wake.recordWake source (m.ticks cpu)).2 }.rouse cpu source)

def acquireWakeHold (holder : ObjectId) (ticks : Nat) : Except WakeError Unit × PowerMachine M cfg :=
  match (m.wake.expire (m.ticks cpu)).2.acquire holder (if ticks = 0 then none else some (m.ticks cpu + ticks)) with
  | (taken, wake) => (taken, { m with wake })

def releaseWakeHold (holder : ObjectId) : Bool × PowerMachine M cfg :=
  ((m.wake.release holder).1, { m with wake := (m.wake.release holder).2 })

def releaseWakeHoldsOf (holder : ObjectId) : Nat × PowerMachine M cfg :=
  ((m.wake.releaseAll holder).1, { m with wake := (m.wake.releaseAll holder).2 })

def wakeHoldsHeld : Nat × PowerMachine M cfg :=
  ((m.wake.expire (m.ticks cpu)).2.held (m.ticks cpu), { m with wake := (m.wake.expire (m.ticks cpu)).2 })

def resumed (m : PowerMachine M cfg) : SuspendReport × PowerMachine M cfg :=
  (⟨.resumed, m.wake.events, m.resumedBy⟩, { m with resumedBy := none })

def systemSuspend (snapshot : UInt64) : Suspension × PowerMachine M cfg :=
  if m.wake.events ≠ snapshot then (.refused ⟨.wakeArrived, m.wake.events, none⟩, m)
  else
    match (m.wake.expire (m.ticks cpu)).2.holderAt (m.ticks cpu) 0 with
    | some holder =>
      (.refused ⟨.vetoed, m.wake.events, some holder⟩, { m with wake := (m.wake.expire (m.ticks cpu)).2 })
    | none =>
      (.parked, { m with
        wake := (m.wake.expire (m.ticks cpu)).2
        sleeper := (m.exec.sched cpu).currentId
        resumedBy := none
        exec := m.exec.onCpu cpu (·.blockCurrent) })

end

theorem systemSuspend_eq_parked {m : PowerMachine M cfg} : (m.systemSuspend cpu snapshot).1 = .parked ↔
      m.wake.events = snapshot ∧ ∀ h ∈ m.wake.holds.live, h.counts (m.ticks cpu) = false := by
  rw [← WakeState.holderAt_expire_eq_none]
  unfold systemSuspend
  split
  · rename_i moved
    simp [moved]
  rename_i still
  rw [not_not] at still
  split
  · rename_i vetoed
    simp [vetoed]
  · rename_i clear
    simp [clear, still]

/-- The operations on the counter and the holds, from any CPU, the clocks, the arming of
    devices, and whatever else the kernel does to its threads and its device graph. -/
inductive Action (M : Type) (cfg : Config) where
  | wake (cpu : Fin cfg.maxCpus) (intid : Nat)
  | acquire (cpu : Fin cfg.maxCpus) (holder : ObjectId) (ticks : Nat)
  | release (holder : ObjectId)
  | releaseAll (holder : ObjectId)
  | expire (cpu : Fin cfg.maxCpus)
  | suspend (cpu : Fin cfg.maxCpus) (snapshot : UInt64)
  | resume
  | arm (device : ObjectId) (armed : Bool)
  | tick (cpu : Fin cfg.maxCpus)
  | elsewhere (exec : Executive M cfg) (devices : DeviceGraph cfg)

def perform (m : PowerMachine M cfg) : Action M cfg → PowerMachine M cfg
  | .wake cpu intid => (m.recordWake cpu intid).2
  | .acquire cpu holder ticks => (m.acquireWakeHold cpu holder ticks).2
  | .release holder => (m.releaseWakeHold holder).2
  | .releaseAll holder => (m.releaseWakeHoldsOf holder).2
  | .expire cpu => (m.wakeHoldsHeld cpu).2
  | .suspend cpu snapshot => (m.systemSuspend cpu snapshot).2
  | .resume => m.resumed.2
  | .arm device armed => { m with devices := (m.devices.setWakeSource device armed).2 }
  | .tick cpu => { m with ticks := Function.update m.ticks cpu (m.ticks cpu + 1) }
  | .elsewhere exec devices => { m with exec, devices }

def records (m : PowerMachine M cfg) : Action M cfg → Bool
  | .wake _ intid => (m.devices.armedWakeSource intid).isSome
  | _ => false

section
variable (m : PowerMachine M cfg)

@[simp] theorem wake_rouse (cpu : Fin cfg.maxCpus) (src : ObjectId) : (m.rouse cpu src).wake = m.wake := by
  unfold rouse
  split <;> rfl

theorem events_recordWake (cpu : Fin cfg.maxCpus) (intid : Nat) : (m.recordWake cpu intid).2.wake.events
      = if (m.devices.armedWakeSource intid).isSome then m.wake.events + 1 else m.wake.events := by
  unfold recordWake
  split <;> rename_i armed <;> simp [armed]

theorem events_systemSuspend (cpu : Fin cfg.maxCpus) (snapshot : UInt64) :
    (m.systemSuspend cpu snapshot).2.wake.events = m.wake.events := by
  unfold systemSuspend
  split
  · rfl
  · split <;> rfl

theorem events_perform (a : Action M cfg) :
    (m.perform a).wake.events = if m.records a then m.wake.events + 1 else m.wake.events := by
  cases a with
  | wake cpu intid => exact m.events_recordWake cpu intid
  | acquire cpu holder ticks => exact (m.wake.expire (m.ticks cpu)).2.events_acquire holder _
  | release holder => exact m.wake.events_release holder
  | suspend cpu snapshot => exact m.events_systemSuspend cpu snapshot
  | releaseAll | expire | resume | arm | tick | elsewhere => rfl

end

end PowerMachine

structure Watched (M : Type) (cfg : Config) where
  machine : PowerMachine M cfg
  recorded : Nat

namespace Watched

def perform (w : Watched M cfg) (a : PowerMachine.Action M cfg) : Watched M cfg :=
  ⟨w.machine.perform a, if w.machine.records a then w.recorded + 1 else w.recorded⟩

def Step (w : Watched M cfg) (a : PowerMachine.Action M cfg) (w' : Watched M cfg) : Prop :=
  some (w.perform a) = some w'

theorem events_of_run (run : Transition.Run Step ⟨m, 0⟩ history w) :
    w.machine.wake.events = m.wake.events + UInt64.ofNat w.recorded := by
  refine run.invariant (fun w => w.machine.wake.events = m.wake.events + UInt64.ofNat w.recorded) ?_ ?_
  · intro _ _ _ counted step
    cases step
    dsimp only [perform]
    rw [PowerMachine.events_perform, counted]
    split
    · rw [UInt64.ofNat_add, UInt64.add_assoc]
      rfl
    · rfl
  · exact (UInt64.add_zero _).symm

theorem ofNat_eq_zero (few : n < 2 ^ 64) (same : UInt64.ofNat n = 0) : n = 0 := by
  have values := congrArg UInt64.toNat same
  rwa [UInt64.toNat_ofNat', Nat.mod_eq_of_lt few] at values

/-- Suspend does not sleep through a wake: with the count the caller read, the machine
    is stopped exactly when no wake event has been recorded since and no hold counts at
    the tick of the commit. -/
theorem suspend_stops_iff_nothing_wakes {m : PowerMachine M cfg} {history : List (PowerMachine.Action M cfg)}
    {w : Watched M cfg} (run : Transition.Run Step ⟨m, 0⟩ history w) (few : w.recorded < 2 ^ 64)
    (cpu : Fin cfg.maxCpus) : (w.machine.systemSuspend cpu m.wake.events).1 = .parked ↔
      w.recorded = 0 ∧ ∀ h ∈ w.machine.wake.holds.live, h.counts (w.machine.ticks cpu) = false := by
  rw [PowerMachine.systemSuspend_eq_parked, events_of_run run]
  refine and_congr_left fun _ => ?_
  constructor
  · intro same
    exact ofNat_eq_zero few (UInt64.add_eq_left.mp same)
  · intro none
    rw [none]
    exact UInt64.add_zero _

def armedMachine : PowerMachine Unit .minimal where
  exec := .new .new
  devices := DeviceGraph.setState ⟨(DeviceTable.new.registerIdentified ⟨9⟩ 0 4096 .map).2, fun _ => .new⟩ ⟨9⟩
    { NodeState.new with intid := some 5, wakeSource := true }
  ticks := fun _ => 0
  wake := .new
  sleeper := none
  resumedBy := none

def powerCpu : Fin Config.minimal.maxCpus := ⟨0, Config.only_cpu⟩

def quietHistory : List (PowerMachine.Action Unit .minimal) :=
  [.acquire powerCpu ⟨1⟩ 1, .acquire powerCpu ⟨2⟩ 0, .tick powerCpu, .release ⟨2⟩]

/-- The machine stops if nothing happens meanwhile, and stays up if its armed device wakes it. -/
theorem quiet_machine_stops :
    (∃ w : Watched Unit .minimal, Transition.Run Step ⟨armedMachine, 0⟩ quietHistory w ∧
      (w.machine.systemSuspend powerCpu armedMachine.wake.events).1 = .parked) ∧
    ∃ w : Watched Unit .minimal, Transition.Run Step ⟨armedMachine, 0⟩ (quietHistory ++ [.wake powerCpu 5]) w ∧
      (w.machine.systemSuspend powerCpu armedMachine.wake.events).1 ≠ .parked := by
  constructor
  · obtain ⟨w,run,quiet⟩ : ∃ w, Transition.Run Step ⟨armedMachine, 0⟩ quietHistory w ∧ w.recorded = 0 ∧
        ∀ h ∈ w.machine.wake.holds.live, h.counts (w.machine.ticks powerCpu) = false :=
      Transition.Disciplined.reaches (by decide +kernel)
    have few : w.recorded < 2 ^ 64 := by
      rw [quiet.1]
      decide
    exact ⟨w,run,(suspend_stops_iff_nothing_wakes run few powerCpu).mpr quiet⟩
  · obtain ⟨w,run,woken⟩ : ∃ w, Transition.Run Step ⟨armedMachine, 0⟩ (quietHistory ++ [.wake powerCpu 5]) w ∧
        w.recorded = 1 := Transition.Disciplined.reaches (by decide +kernel)
    have few : w.recorded < 2 ^ 64 := by
      rw [woken]
      decide
    refine ⟨w,run,fun stopped => ?_⟩
    cases woken.symm.trans ((suspend_stops_iff_nothing_wakes run few powerCpu).mp stopped).1

end Watched
end Tessera
