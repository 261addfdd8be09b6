import Tessera.Exec.Executive
import Tessera.Lib.Transition

/-!
The steps of the executive and what they leave alone. Most of what an operation
does besides its endpoints only rouses threads: a blocked one becomes ready or
has a wakeup posted, and no context, identity or current slot changes.
-/
namespace Tessera
open Scheduler
variable {M : Type} {cfg : Config} {slot : Nat}

inductive ExecAction (M : Type) (cfg : Config) where
  | channelCreate
  | channelCreateWithObjects
  | addThread (cpu : Fin cfg.maxCpus) (priority correlation : Nat)
  | send (cpu : Fin cfg.maxCpus) (origin : EndpointId) (message : M)
  | receive (cpu : Fin cfg.maxCpus) (on : EndpointId)
  | tryReceive (cpu : Fin cfg.maxCpus) (on : EndpointId)
  | receiveAny (cpu : Fin cfg.maxCpus) (endpoints : List EndpointId) (deadline : Option Nat) (now : Nat)
  | callUntil (cpu : Fin cfg.maxCpus) (origin : EndpointId) (request : M) (deadline : Option Nat) (now : Nat)
  | reply (cpu : Fin cfg.maxCpus) (on : EndpointId) (response : M)
  | replyAndContinue (cpu : Fin cfg.maxCpus) (on : EndpointId) (response : M)
  | replyReceive (cpu : Fin cfg.maxCpus) (on : EndpointId) (response : M)
  | closeEndpoint (cpu : Fin cfg.maxCpus) (e : EndpointId)
  | leave (cpu : Fin cfg.maxCpus)
  | resume (cpu : Fin cfg.maxCpus) (now later : Nat)
  | dispatch (cpu : Fin cfg.maxCpus)
  | drain (cpu : Fin cfg.maxCpus)
  | expire (cpu : Fin cfg.maxCpus) (now : Nat)

namespace Executive

def spawned (priority : Nat) : Thread Frame where
  id := .unassigned
  context := .outside
  state := .ready
  priority
  correlation := 0
  blockedDeadline := none

/-- An operation begins outside the executive; the run loop works on a processor
    that has no thread. -/
def perform [Stamped M] (x : Executive M cfg) : ExecAction M cfg → Option (Outcome M × Executive M cfg)
  | .channelCreate => some (.done, { x with channels := x.channels.create.2 })
  | .channelCreateWithObjects => some (.done, { x with channels := x.channels.createWithObjects.2 })
  | .addThread cpu priority correlation =>
    if x.atEntry cpu then some (.done, x.onCpu cpu fun s => (s.addThread cpu (spawned priority) correlation).2)
    else none
  | .send cpu origin message => if x.atEntry cpu then some (x.send cpu origin message) else none
  | .receive cpu on => if x.atEntry cpu then some (x.receive cpu on) else none
  | .tryReceive cpu on => if x.atEntry cpu then some (x.tryReceive cpu on) else none
  | .receiveAny cpu endpoints deadline now =>
    if x.atEntry cpu then some (x.receiveAny cpu endpoints deadline now) else none
  | .callUntil cpu origin request deadline now =>
    if x.atEntry cpu then some (x.callUntil cpu origin request deadline now) else none
  | .reply cpu on response => if x.atEntry cpu then some (x.reply cpu on response) else none
  | .replyAndContinue cpu on response =>
    if x.atEntry cpu then some (x.replyAndContinue cpu on response) else none
  | .replyReceive cpu on response => if x.atEntry cpu then some (x.replyReceive cpu on response) else none
  | .closeEndpoint cpu e => if x.atEntry cpu then some (x.closeEndpoint cpu e) else none
  | .leave cpu => (x.leave cpu).map fun y => (.done, y)
  | .resume cpu now later => x.resume cpu now later
  | .dispatch cpu => if (x.sched cpu).current = none then some (.done, x.onCpu cpu (·.run)) else none
  | .drain cpu => if (x.sched cpu).current = none then some (.done, x.drain cpu) else none
  | .expire cpu now =>
    if (x.sched cpu).current = none then some (.done, x.expireTimedOutWaits cpu now) else none

def bootCpu : Fin Config.default.maxCpus := ⟨0, Config.boot_cpu⟩

def otherCpu : Fin Config.default.maxCpus := ⟨1, Config.next_cpu⟩

def blank : Message Config.default := ⟨⟨0, 0, 0, 0, 0⟩, .empty, .empty⟩

end Executive

structure Thread.Roused {C : Type} (t t' : Thread C) : Prop where
  id : t'.id = t.id
  context : t'.context = t.context
  state : t'.state = t.state ∨ t.state = .blocked ∧ t'.state = .ready

theorem Thread.Roused.trans {C : Type} {a b c : Thread C} (first : a.Roused b) (second : b.Roused c) :
    a.Roused c := by
  refine ⟨second.id.trans first.id,second.context.trans first.context,?_⟩
  rcases second.state with same | ⟨slept,woke⟩
  · rw [same]
    exact first.state
  rcases first.state with same | ⟨_,ready⟩
  · exact .inr ⟨same ▸ slept,woke⟩
  · rw [ready] at slept
    cases slept

namespace Scheduler
variable {C : Type}

structure Rouses (s s' : Scheduler C cfg) : Prop where
  current : s'.current = s.current
  nextThreadId : s'.nextThreadId = s.nextThreadId
  thread : ∀ slot, ∃ f : Thread C → Thread C, s'.thread slot = (s.thread slot).map f ∧
    ∀ t, s.thread slot = some t → t.Roused (f t)

theorem Rouses.trans {a b c : Scheduler C cfg} (first : a.Rouses b) (second : b.Rouses c) : a.Rouses c := by
  refine ⟨second.current.trans first.current,second.nextThreadId.trans first.nextThreadId,?_⟩
  intro slot
  obtain ⟨f,hf,roused⟩ := first.thread slot
  obtain ⟨g,hg,again⟩ := second.thread slot
  refine ⟨g ∘ f,by simp [hg, hf],?_⟩
  intro t ht
  exact (roused t ht).trans (again (f t) (by simp [hf, ht]))

section
variable (s : Scheduler C cfg)

theorem Rouses.refl : s.Rouses s :=
  ⟨rfl,rfl,fun _ => ⟨id,by simp,fun _ _ => ⟨rfl,rfl,.inl rfl⟩⟩⟩

theorem rouses_alter (slot : Nat) (keeps : ∀ t : Thread C, t.Roused (f t)) : s.Rouses (s.alter slot f) := by
  refine ⟨rfl,rfl,?_⟩
  intro other
  by_cases same : slot = other
  · exact ⟨f,by simp [alter, thread, Slots.cell_alter, same],fun t _ => keeps t⟩
  · exact ⟨id,by simp [alter, thread, Slots.cell_alter, same],fun _ _ => ⟨rfl,rfl,.inl rfl⟩⟩

theorem rouses_unblock (slot : Nat) : s.Rouses (s.unblock slot) := by
  unfold unblock
  split
  · rename_i slept
    split
    · exact .refl s
    refine ⟨rfl,rfl,?_⟩
    intro other
    by_cases same : slot = other
    · subst same
      refine ⟨fun t => { t with state := .ready },by simp [setState, alter, thread, Slots.cell_alter],?_⟩
      intro _ ht
      refine ⟨rfl,rfl,.inr ⟨?_,rfl⟩⟩
      simpa [threadState, ht] using slept
    · exact ⟨id,by simp [setState, alter, thread, Slots.cell_alter, same],fun _ _ => ⟨rfl,rfl,.inl rfl⟩⟩
  · exact .refl s

theorem rouses_unblockThread (slot : Nat) (id : ThreadId) : s.Rouses (s.unblockThread slot id) := by
  unfold unblockThread
  split
  · exact .refl s
  · exact s.rouses_unblock slot

end

variable {s s' : Scheduler C cfg}

theorem Rouses.thread_some (rouses : s.Rouses s') (found : s'.thread slot = some t') :
    ∃ t, s.thread slot = some t ∧ t.Roused t' := by
  obtain ⟨_,same,roused⟩ := rouses.thread slot
  rw [same] at found
  obtain ⟨t,ht,rfl⟩ := Option.map_eq_some_iff.mp found
  exact ⟨t,ht,roused t ht⟩

theorem Rouses.some_thread (rouses : s.Rouses s') (found : s.thread slot = some t) :
    ∃ t', s'.thread slot = some t' ∧ t.Roused t' := by
  obtain ⟨f,same,roused⟩ := rouses.thread slot
  exact ⟨f t,by simp [same, found],roused t found⟩

end Scheduler

namespace Executive

/-- From one state to the other only sleepers were roused. A wakeup is posted
    where the thread it names was last recorded. -/
structure Rouses (x y : Executive M cfg) : Prop where
  channels : y.channels = x.channels
  nextTxn : y.nextTxn = x.nextTxn
  residents : y.residents = x.residents
  sched : ∀ cpu, (x.sched cpu).Rouses (y.sched cpu)
  wakeups : ∀ cpu slot, y.wakeups cpu slot = x.wakeups cpu slot ∨
    y.wakeups cpu slot = some (x.residents cpu slot) ∧ x.residents cpu slot ≠ .unassigned

theorem Rouses.refl (x : Executive M cfg) : x.Rouses x :=
  ⟨rfl,rfl,rfl,fun _ => .refl _,fun _ _ => .inl rfl⟩

variable {x : Executive M cfg} {id : ThreadId} {cpu other : Fin cfg.maxCpus}

theorem Rouses.trans {y z : Executive M cfg} (first : x.Rouses y) (second : y.Rouses z) : x.Rouses z := by
  refine ⟨second.channels.trans first.channels,second.nextTxn.trans first.nextTxn,
    second.residents.trans first.residents,fun cpu => (first.sched cpu).trans (second.sched cpu),?_⟩
  intro cpu slot
  rcases second.wakeups cpu slot with same | posted
  · rw [same]
    exact first.wakeups cpu slot
  · rw [first.residents] at posted
    exact .inr posted

theorem rouses_onCpu (x : Executive M cfg) (cpu : Fin cfg.maxCpus)
    (rouses : (x.sched cpu).Rouses (f (x.sched cpu))) : x.Rouses (x.onCpu cpu f) := by
  refine ⟨rfl,rfl,rfl,?_,fun _ _ => .inl rfl⟩
  intro other
  by_cases same : other = cpu
  · subst same
    simpa [onCpu] using rouses
  · simpa [onCpu, Function.update_of_ne same] using Scheduler.Rouses.refl _

theorem locateResident_eq_some (found : x.locateResident id = some (cpu, slot)) :
    x.residents cpu slot = id ∧ id ≠ .unassigned ∧ slot < cfg.maxThreads := by
  unfold locateResident at found
  split at found
  · cases found
  rename_i assigned
  split at found
  · obtain ⟨_,hplace,same⟩ := Option.map_eq_some_iff.mp found
    cases same
    refine ⟨by simpa using List.find?_some hplace,assigned,?_⟩
    simpa using List.mem_of_find?_eq_some hplace
  · cases found

section
variable (located : x.locateThread cpu id = .elsewhere other slot)
include located

theorem locateThread_elsewhere : x.residents other slot = id ∧ id ≠ .unassigned ∧ slot < cfg.maxThreads := by
  unfold locateThread at located
  split at located
  · cases located
  split at located
  · rename_i found
    split at located
    · cases located
      exact locateResident_eq_some found
    · cases located
  · cases located

theorem rouses_post : x.Rouses (x.post other slot id) := by
  obtain ⟨recorded,assigned,inside⟩ := locateThread_elsewhere located
  rw [post, if_neg (Nat.not_le.mpr inside)]
  refine ⟨rfl,rfl,rfl,fun _ => .refl _,?_⟩
  intro c s
  by_cases same : c = other
  · subst same
    by_cases place : s = slot
    · subst place
      exact .inr ⟨by simp [recorded],recorded ▸ assigned⟩
    · exact .inl (by simp [place])
  · exact .inl (by simp [Function.update_of_ne same])

end

section
variable (x : Executive M cfg)

theorem rouses_wakeThread (cpu : Fin cfg.maxCpus) (id : ThreadId) : x.Rouses (x.wakeThread cpu id) := by
  unfold wakeThread
  split
  · exact x.rouses_onCpu cpu (rouses_unblock _ _)
  · rename_i located
    exact rouses_post located
  · exact .refl x

theorem rouses_wakeIfAny (cpu : Fin cfg.maxCpus) (id : Option ThreadId) : x.Rouses (x.wakeIfAny cpu id) := by
  cases id with
  | none => exact .refl x
  | some id => exact x.rouses_wakeThread cpu id

theorem noteResidence_eq (cpu : Fin cfg.maxCpus) : ∃ residents, x.noteResidence cpu = { x with residents } := by
  unfold noteResidence
  split
  · exact ⟨_,rfl⟩
  · split <;> exact ⟨_,rfl⟩

theorem rouses_setPort (port : PortId) (new : Port cfg) : x.Rouses (x.setPort port new) :=
  ⟨rfl,rfl,rfl,fun _ => .refl _,fun _ _ => .inl rfl⟩

section
variable (cpu : Fin cfg.maxCpus)

theorem rouses_signalPort (src signal edges index : Nat) : x.Rouses (x.signalPort cpu src signal edges index).2 := by
  unfold signalPort
  split
  · exact .refl x
  split
  · exact .refl x
  rename_i port _
  refine Rouses.trans ?_ (rouses_wakeIfAny _ cpu port.takeBlockedDrainer.1)
  exact ⟨rfl,rfl,rfl,fun _ => .refl _,fun _ _ => .inl rfl⟩

theorem rouses_portSignal (src signal edges : Nat) : x.Rouses (x.portSignal cpu src signal edges).2 := by
  unfold portSignal
  generalize 0 = delivered
  induction List.range cfg.maxPorts generalizing x delivered with
  | nil => exact .refl x
  | cons index rest ih => exact (x.rouses_signalPort cpu src signal edges index).trans (ih _ _)

theorem rouses_signalEndpointArrival (obj : Option ObjectId) : x.Rouses (x.signalEndpointArrival cpu obj) := by
  cases obj with
  | none => exact .refl x
  | some => exact x.rouses_portSignal cpu _ _ _

theorem rouses_adoptCorrelation (correlation : Nat) : x.Rouses (x.adoptCorrelation cpu correlation) := by
  unfold adoptCorrelation
  split
  · exact .refl x
  split
  · exact .refl x
  · exact x.rouses_onCpu cpu (rouses_alter _ _ fun _ => ⟨rfl,rfl,.inl rfl⟩)

theorem rouses_setCurrentDeadline (due : Option Nat) : x.Rouses (x.setCurrentDeadline cpu due) := by
  unfold setCurrentDeadline
  split
  · exact .refl x
  · exact x.rouses_onCpu cpu (rouses_alter _ _ fun _ => ⟨rfl,rfl,.inl rfl⟩)

theorem rouses_unblockLocal (slot : Option Nat) : x.Rouses (x.unblockLocal cpu slot) := by
  cases slot with
  | none => exact .refl x
  | some => exact x.rouses_onCpu cpu (rouses_unblock _ _)

theorem rouses_changeDepth (slot : Nat) (f : Nat → Nat) : x.Rouses (x.changeDepth cpu slot f) :=
  ⟨rfl,rfl,rfl,fun _ => .refl _,fun _ _ => .inl rfl⟩

theorem rouses_setSavedCorrelation (slot correlation : Nat) : x.Rouses (x.setSavedCorrelation cpu slot correlation) :=
  ⟨rfl,rfl,rfl,fun _ => .refl _,fun _ _ => .inl rfl⟩

theorem rouses_lend (caller callee : Nat) : x.Rouses (x.lend cpu caller callee) := by
  have saved := x.rouses_setSavedCorrelation cpu callee (((x.sched cpu).threadCorrelation callee).getD 0)
  refine saved.trans (Rouses.trans (rouses_onCpu _ cpu ?_) (rouses_onCpu _ cpu ?_)) <;>
  · apply rouses_alter
    exact fun _ => ⟨rfl,rfl,.inl rfl⟩

theorem rouses_giveBack (callee : Option Nat) : x.Rouses (x.giveBack cpu callee) := by
  cases callee with
  | none => exact .refl x
  | some callee =>
    refine Rouses.trans (rouses_onCpu _ cpu ?_) (rouses_setSavedCorrelation _ cpu callee 0)
    exact rouses_alter _ _ fun _ => ⟨rfl,rfl,.inl rfl⟩

end

theorem rouses_takeExpired (id : ThreadId) : x.Rouses (x.takeExpired id).2 := by
  unfold takeExpired
  split
  · exact .refl x
  · exact ⟨rfl,rfl,rfl,fun _ => .refl _,fun _ _ => .inl rfl⟩

theorem rouses_takeWakeups (s : Scheduler Frame cfg) (posted : Nat → Option ThreadId) (slots : List Nat) :
    s.Rouses (takeWakeups s posted slots) := by
  induction slots generalizing s with
  | nil => exact .refl s
  | cons slot rest ih =>
    refine Scheduler.Rouses.trans ?_ (ih _)
    dsimp only
    split
    · exact .refl s
    · exact s.rouses_unblockThread slot _

theorem rouses_expireTimedOutWaits (cpu : Fin cfg.maxCpus) (now : Nat) :
    x.Rouses (x.expireTimedOutWaits cpu now) := by
  unfold expireTimedOutWaits
  induction x.overdue cpu now generalizing x with
  | nil => exact .refl x
  | cons id rest ih => exact (x.rouses_wakeThread cpu id).trans (ih _)

end

end Executive
end Tessera
