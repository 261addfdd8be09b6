import Tessera.Config
import Tessera.Lib.ScopedLock

/-!
The machine lock and the executive's methods as sequences of lock scopes, table
accesses and parks. A guard that lives to the end of a method is a scope around
its body. Each method is given with all its paths: a lookup that fails ends it
early, a loop turns any number of times. Threads never change processors.
-/
namespace Tessera
open ScopedLock Config

inductive MachineTable where
  | channels | waits | ports | residents | expiredCallers
  deriving DecidableEq

inductive ExecMethod where
  | send | receive | tryReceive | receiveAny | callUntil | reply | replyAndContinue | replyReceive
  | closeEndpoint | closeEndpointsOf | portSignal | portWait | waitOnAddress | wake
  deriving DecidableEq

namespace ExecMethod

abbrev Body := Code MachineTable ExecMethod

def sequence : List Body → Body
  | [] => .skip
  | [p] => p
  | p :: rest => .seq p (sequence rest)

def optional (p : Body) : Body := .choice p .skip

def several (t : MachineTable) : Body := .seq (.access t) (.loop (.access t))

/-- A thread of this processor is found in its own scheduler, any other one in
    the shared table of residents. -/
def locateThread : Body := optional (.scope (.access .residents))

def wakeThread : Body := locateThread

def noteResidence : Body := optional (.scope (.access .residents))

def enterBlocking : Body := noteResidence

def takeExpired : Body := .scope (several .expiredCallers)

def signalEndpointArrival : Body := optional (.enter .portSignal)

def deliverReply : Body := sequence [.access .channels, optional (several .channels)]

def body : ExecMethod → Body
  | .send => sequence [.access .channels, optional (sequence [several .channels, optional wakeThread,
      signalEndpointArrival])]
  | .receive => sequence [enterBlocking, .loop (sequence [several .channels, .park]), several .channels]
  | .tryReceive => several .channels
  | .receiveAny => .scope (sequence [enterBlocking, optional (sequence [
      .loop (sequence [several .channels, .park, several .channels]), .loop (.access .channels)])])
  | .callUntil => .scope (sequence [enterBlocking, optional (sequence [several .channels,
      optional (sequence [signalEndpointArrival, locateThread, .park, optional takeExpired, several .channels])])])
  | .reply => sequence [enterBlocking, deliverReply, optional (sequence [locateThread, optional .park])]
  | .replyAndContinue => sequence [deliverReply, optional wakeThread]
  | .replyReceive => sequence [enterBlocking, optional (sequence [deliverReply, optional (sequence [
      locateThread, .loop (sequence [several .channels, .park]), several .channels])])]
  | .closeEndpoint => sequence [.access .channels, optional (sequence [several .channels, optional wakeThread])]
  | .closeEndpointsOf => .scope (.loop (sequence [several .channels, optional (.enter .closeEndpoint)]))
  | .portSignal => .scope (.loop (sequence [several .ports, optional wakeThread]))
  | .portWait => .scope (sequence [enterBlocking, .loop (sequence [several .ports, .park]), several .ports])
  | .waitOnAddress => .scope (sequence [enterBlocking, optional (sequence [.access .waits, optional .park])])
  | .wake => .scope (.loop (sequence [.access .waits, optional wakeThread]))

/-- The methods that touch the channels and take no hold for their body. -/
def needsLock : ExecMethod → Bool
  | .send | .receive | .tryReceive | .reply | .replyAndContinue | .replyReceive | .closeEndpoint => true
  | _ => false

theorem sheltered : Sheltered body needsLock where
  whole m free := by
    cases m <;> first | exact ⟨_,rfl,rfl⟩ | cases free
  inner m _ := by
    cases m <;> rfl

end ExecMethod

abbrev LockWorld (cfg : Config) := World MachineTable ExecMethod (Fin cfg.maxCpus) Nat
abbrev LockEvent (cfg : Config) := Event MachineTable ExecMethod (Fin cfg.maxCpus) Nat

namespace LockWorld
variable {cfg : Config}
open Transition

/-- If every method without a hold of its own is entered by a processor that
    holds the machine lock, each access is made by the lock's owner, and between
    two accesses a method makes without parking no other processor makes one. -/
theorem tables_change_under_lock {start s : LockWorld cfg} {history : List (LockEvent cfg)}
    (fresh : Fresh start) (run : Runs ExecMethod.body ExecMethod.needsLock start history s) :
    (∀ c t u, World.Step ExecMethod.body s (.access c t) u → s.owner = some c) ∧
    (∀ before c x mid y, history = before ++ [.access c x] ++ mid ++ [.access c y] →
      .park c ∉ mid → .leave c true ∉ mid → ∀ c' z, c' ≠ c → .access c' z ∉ mid) := by
  have sound := fresh.sound
  constructor
  · intro _ _ _ step
    exact ((sound.run ExecMethod.sheltered run).access step).1
  · intro _ _ _ _ _ same unparked unfinished
    subst same
    exact sound.exclusive ExecMethod.sheltered run unparked unfinished

def about (m : ExecMethod) (home : Fin cfg.maxCpus) : LockWorld cfg where
  owner := none
  depth _ := 0
  current _ := none
  home _ := home
  stack _ := [.code (.enter m)]
  saved _ := 0

theorem fresh_about (m : ExecMethod) (home : Fin cfg.maxCpus) : Fresh (about m home) :=
  ⟨rfl,fun _ => rfl,fun _ => rfl,fun _ => rfl,fun _ => ⟨_,rfl,rfl⟩⟩

def bootCpu : Fin default.maxCpus := ⟨0, Config.boot_cpu⟩

/-- Signalling a port: the first port is looked at by the owner of the lock. -/
theorem port_signal_owns_lock : ∃ (history : List (LockEvent default)) (s u : LockWorld default),
      Runs ExecMethod.body ExecMethod.needsLock (about .portSignal bootCpu) history s ∧
      World.Step ExecMethod.body s (.access bootCpu .ports) u ∧ s.owner = some bootCpu := by
  have dispatched : Runs ExecMethod.body ExecMethod.needsLock (about .portSignal bootCpu)
      [.dispatch bootCpu 0] _ :=
    Disciplined.start.more trivial (.dispatch rfl rfl (fun saved => absurd rfl saved))
  have entered := dispatched.onward (.enter bootCpu .portSignal) (.enter rfl rfl) (fun needs => by cases needs)
  have held := entered.onward (.hold bootCpu) (.hold rfl rfl (fun _ => rfl)) trivial
  have turned := held.onward (.tick bootCpu true) (.tick rfl rfl rfl) trivial
  have opened := turned.onward (.tick bootCpu true) (.tick rfl rfl rfl) trivial
  have walked := opened.onward (.tick bootCpu true) (.tick rfl rfl rfl) trivial
  refine ⟨_,_,_,walked,.access rfl rfl,?_⟩
  exact (tables_change_under_lock (fresh_about _ _) walked).1 _ _ _ (.access rfl rfl)

/-- A send reads the channel table with the lock free: entering it takes no hold. -/
theorem send_touches_channels_unlocked : ∃ (history : List (LockEvent default)) (s u : LockWorld default),
      Fresh (about .send bootCpu : LockWorld default) ∧
      Run (World.Step ExecMethod.body) (about .send bootCpu) history s ∧
      World.Step ExecMethod.body s (.access bootCpu .channels) u ∧ s.owner = none := by
  have dispatched : Run (World.Step ExecMethod.body) (about .send bootCpu) [.dispatch bootCpu 0] _ :=
    (Run.start _).more (.dispatch rfl rfl (fun saved => absurd rfl saved))
  have entered := Run.more dispatched (a := .enter bootCpu .send) (.enter rfl rfl)
  have opened := Run.more entered (a := .tick bootCpu true) (.tick rfl rfl rfl)
  exact ⟨_,_,_,fresh_about _ _,opened,.access rfl rfl,rfl⟩

end LockWorld
end Tessera
