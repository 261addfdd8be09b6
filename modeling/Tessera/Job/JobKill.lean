import Tessera.Exec.ExitedThreads
import Tessera.Job.JobTree

/-!
What a job kill does to the threads of the machine. It walks the subtree in kill
order, ends every member thread that it finds on the killing processor, and
signals the jobs' ports. The threads that wait for those signals are the only
ones outside the subtree that change.
-/
namespace Tessera
open Scheduler List Option Slots Executive JobTable Transition
variable {cfg : Config} {M : Type}
namespace Port

def Binds (p : Port cfg) (source signal : Nat) : Prop :=
  ∃ i b, p.bindings.cell i = some b ∧ b.source = source ∧ b.signal = signal

theorem deliver_eq_true {p q : Port cfg} (done : p.deliver src signal edges = (true, q)) :
    p.Binds src signal ∧ q.blockedDrainer = p.blockedDrainer ∧ ∀ s g, q.Binds s g → p.Binds s g := by
  unfold deliver at done
  split at done
  · cases done
  rename_i b found
  cases done
  obtain ⟨matching,i,_,here⟩ := find?_eq_some found
  obtain ⟨sources,signals⟩ := of_decide_eq_true matching
  refine ⟨⟨i,b,here,sources,signals⟩,rfl,?_⟩
  rintro _ _ ⟨j,c,there,rfl,rfl⟩
  rcases cell_modify_cases there with same | ⟨old,before,_,rfl⟩
  · exact ⟨j,c,same,rfl,rfl⟩
  · exact ⟨j,old,before,rfl,rfl⟩

end Port

namespace Executive
variable {cpu : Fin cfg.maxCpus}
variable {s slot : Nat} {id : ThreadId} {x y : Executive M cfg} {jobs : JobTable cfg} {ids : List ThreadId}

theorem indexOf_eq_some {s : Scheduler Frame cfg} (found : s.indexOf id = some slot) :
    ∃ t, s.thread slot = some t ∧ t.id = id := by
  unfold Scheduler.indexOf at found
  split at found
  · cases found
  · obtain ⟨t,here,same⟩ := index?_eq_some found
    exact ⟨t,here,of_decide_eq_true same⟩

theorem wakeThread_thread (x : Executive M cfg) (id : ThreadId) (found : (x.sched c).thread slot = some t) :
    ∃ t', ((x.wakeThread cpu id).sched c).thread slot = some t' ∧ t'.id = t.id ∧
      (t'.state = t.state ∨ c = cpu ∧ t.id = id ∧ t.state = .blocked ∧ t'.state = .ready) := by
  obtain ⟨t',after,roused⟩ := ((x.rouses_wakeThread cpu id).sched c).some_thread found
  refine ⟨t',after,roused.id,?_⟩
  rcases roused.state with same | woke
  · exact .inl same
  unfold wakeThread at after
  split at after
  · rename_i place located
    by_cases here : c = cpu
    · subst here
      rw [onCpu_sched_self] at after
      by_cases own : place = slot
      · subst own
        have named : (x.sched c).indexOf id = some place := by
          unfold locateThread at located
          split at located
          · rename_i index
            cases located
            exact index
          split at located
          · split at located <;> cases located
          · cases located
        obtain ⟨_,there,same⟩ := indexOf_eq_some named
        rw [found] at there
        cases there
        exact .inr ⟨rfl,same,woke⟩
      · left
        rcases (x.sched c).unblock_cases place with same | ⟨_,_,_,states⟩
        · rw [same, found] at after
          cases after
          rfl
        have state := states slot
        rw [threadState_setState, if_neg own, threadState, threadState, after, found] at state
        exact Option.some.inj state
    · rw [onCpu_sched_ne _ _ here, found] at after
      cases after
      exact .inl rfl
  · unfold post at after
    split at after <;> rw [found] at after <;> cases after <;> exact .inl rfl
  · rw [found] at after
    cases after
    exact .inl rfl

def Awaits (x : Executive M cfg) (source : Nat → Prop) (id : ThreadId) : Prop :=
  ∃ index port s g, x.ports.ports.cell index = some port ∧ port.blockedDrainer = some id ∧ source s ∧ port.Binds s g

/-- From the first state to the second some victims of the processor ended, and
    threads that waited for a signal of the given sources were roused there. -/
structure Struck (x y : Executive M cfg) (cpu : Fin cfg.maxCpus) (victim : ThreadId → Prop) (source : Nat → Prop) :
    Prop where
  thread : ∀ c slot t, (x.sched c).thread slot = some t → ∃ t', (y.sched c).thread slot = some t' ∧ t'.id = t.id ∧
    (t'.state = t.state ∨ c = cpu ∧ victim t.id ∧ t'.state = .exited ∨
      c = cpu ∧ x.Awaits source t.id ∧ t.state = .blocked ∧ t'.state = .ready)
  back : ∀ c slot, ((y.sched c).thread slot).isSome → ((x.sched c).thread slot).isSome
  port : ∀ index q, y.ports.ports.cell index = some q → ∃ p, x.ports.ports.cell index = some p ∧
    (∀ id, q.blockedDrainer = some id → p.blockedDrainer = some id) ∧ ∀ s g, q.Binds s g → p.Binds s g

variable {victim : ThreadId → Prop} {src : Nat → Prop}

theorem Struck.refl (x : Executive M cfg) : x.Struck x cpu victim src :=
  ⟨fun _ _ t found => ⟨t,found,rfl,.inl rfl⟩,fun _ _ => id,fun _ q found => ⟨q,found,fun _ => id,fun _ _ => id⟩⟩

theorem Struck.terminateHere (struck : x.Struck y cpu victim src) (chosen : victim id) :
    x.Struck (y.terminateHere cpu id) cpu victim src := by
  unfold Executive.terminateHere
  split
  · exact struck
  rename_i named
  obtain ⟨_,there,own⟩ := indexOf_eq_some named
  refine ⟨?_,?_,struck.port⟩
  rotate_left
  · intro c slot stands
    apply struck.back
    by_cases here : c = cpu
    · subst here
      rw [onCpu_sched_self, terminate, setState, thread_alter] at stands
      split at stands
      · rwa [isSome_map] at stands
      · exact stands
    · rwa [onCpu_sched_ne _ _ here] at stands
  intro c slot t found
  obtain ⟨t',after,same,change⟩ := struck.thread c slot t found
  by_cases here : c = cpu
  · subst here
    rw [onCpu_sched_self, terminate, setState, thread_alter]
    split
    · rename_i spot
      subst spot
      rw [there] at after
      cases after
      rw [there]
      refine ⟨_,rfl,same,.inr (.inl ⟨rfl,?_,rfl⟩)⟩
      rw [← same, own]
      exact chosen
    · exact ⟨t',after,same,change⟩
  · rw [onCpu_sched_ne _ _ here]
    exact ⟨t',after,same,change⟩

theorem wakeThread_ports (x : Executive M cfg) (cpu : Fin cfg.maxCpus) (id : ThreadId) :
    (x.wakeThread cpu id).ports = x.ports := by
  unfold wakeThread
  split
  · rfl
  · unfold post
    split <;> rfl
  · rfl

section
variable (struck : x.Struck y cpu victim src)
include struck

theorem Struck.wakeThread (awaits : x.Awaits src id) : x.Struck (y.wakeThread cpu id) cpu victim src := by
  refine ⟨?_,?_,?_⟩
  · intro c slot t found
    obtain ⟨_,between,same,change⟩ := struck.thread c slot t found
    obtain ⟨u,after,named,woke⟩ := y.wakeThread_thread id between
    refine ⟨u,after,named.trans same,?_⟩
    rcases woke with unchanged | ⟨here,own,slept,ready⟩
    · rw [unchanged]
      exact change
    rcases change with before | ⟨_,_,ended⟩ | ⟨_,_,_,early⟩
    · refine .inr (.inr ⟨here,?_,before.symm.trans slept,ready⟩)
      rw [← same, own]
      exact awaits
    · rw [ended] at slept
      cases slept
    · rw [early] at slept
      cases slept
  · intro c slot stands
    obtain ⟨_,found⟩ := isSome_iff_exists.mp stands
    obtain ⟨_,before,_⟩ := ((y.rouses_wakeThread cpu id).sched c).thread_some found
    exact struck.back c slot (by rw [before]; rfl)
  · rw [wakeThread_ports]
    exact struck.port

section
variable (announced : src s)
include announced

theorem Struck.signalPort
    (signal edges index : Nat) : x.Struck (y.signalPort cpu s signal edges index).2 cpu victim src := by
  unfold Executive.signalPort
  split
  · exact struck
  rename_i port found
  split
  · exact struck
  rename_i port' delivered
  obtain ⟨bound,drainer,binds⟩ := Port.deliver_eq_true delivered
  obtain ⟨p,before,same,earlier⟩ := struck.port index port found
  have put : x.Struck { y with ports := { y.ports with
      ports := y.ports.ports.put index port'.takeBlockedDrainer.2 } } cpu victim src := by
    refine ⟨struck.thread,struck.back,?_⟩
    intro i q stands
    rcases cell_put_cases stands with ⟨rfl,rfl⟩ | ⟨_,old⟩
    · exact ⟨p,before,nofun,fun s g holds => earlier s g (binds s g holds)⟩
    · exact struck.port i q old
  cases waiting : port'.takeBlockedDrainer.1 with
  | none => exact put
  | some id =>
    apply put.wakeThread
    refine ⟨index,p,s,signal,before,same id ?_,announced,earlier s signal bound⟩
    rw [← drainer]
    exact waiting

theorem Struck.portSignal (signal edges : Nat) : x.Struck (y.portSignal cpu s signal edges).2 cpu victim src := by
  unfold Executive.portSignal
  generalize List.range cfg.maxPorts = indices
  generalize 0 = delivered
  induction indices generalizing y delivered with
  | nil => exact struck
  | cons index rest ih => exact ih (struck.signalPort announced signal edges index) _

theorem Struck.killMember (chosen : victim mem.thread) : x.Struck (killMember cpu s y mem) cpu victim src :=
  (struck.terminateHere chosen).portSignal announced _ _

theorem Struck.killMembers {members : List Member} (chosen : ∀ m ∈ members, victim m.thread) :
    x.Struck (members.foldl (Executive.killMember cpu s) y) cpu victim src := by
  induction members generalizing y with
  | nil => exact struck
  | cons m rest ih =>
    apply ih (struck.killMember announced (chosen m mem_cons_self))
    exact fun m mem => chosen m (mem_cons_of_mem _ mem)

end

theorem Struck.killJob {id : JobId} (announced : ∀ job, jobs.job id = some job → src job.stateSource)
    (chosen : ∀ m ∈ jobs.members id, victim m.thread) : x.Struck (killJob cpu jobs y id) cpu victim src := by
  unfold Executive.killJob
  split
  · exact struck
  rename_i job found
  have own := announced job found
  apply Struck.portSignal _ own
  apply struck.killMembers own
  intro _ mem
  apply chosen
  rw [members, found]
  exact mem

theorem Struck.killJobs {order : List JobId}
    (announced : ∀ id ∈ order, ∀ job, jobs.job id = some job → src job.stateSource)
    (chosen : ∀ id ∈ order, ∀ m ∈ jobs.members id, victim m.thread) :
    x.Struck (order.foldl (Executive.killJob cpu jobs) y) cpu victim src := by
  induction order generalizing y with
  | nil => exact struck
  | cons id rest ih =>
    apply ih (struck.killJob (announced id mem_cons_self) (chosen id mem_cons_self))
    · exact fun id mem => announced id (mem_cons_of_mem _ mem)
    · exact fun id mem => chosen id (mem_cons_of_mem _ mem)

end

def Stopped (x : Executive M cfg) (cpu : Fin cfg.maxCpus) (ids : List ThreadId) : Prop :=
  ∀ id ∈ ids, ∀ slot t, (x.sched cpu).thread slot = some t → t.id = id → t.state = .exited

theorem Stopped.struck (stopped : x.Stopped cpu ids) (struck : x.Struck y cpu victim src) : y.Stopped cpu ids := by
  intro id mem slot _ found named
  obtain ⟨t,before⟩ := isSome_iff_exists.mp (struck.back cpu slot (by rw [found]; rfl))
  obtain ⟨_,after,same,change⟩ := struck.thread cpu slot t before
  rw [found] at after
  cases after
  have ended := stopped id mem slot t before (same.symm.trans named)
  rcases change with unchanged | ⟨_,_,exited⟩ | ⟨_,_,slept,_⟩
  · exact unchanged.trans ended
  · exact exited
  · rw [ended] at slept
    cases slept

theorem Stopped.append (first : x.Stopped cpu ids) (second : x.Stopped cpu more) : x.Stopped cpu (ids ++ more) := by
  intro id mem
  rcases mem_append.mp mem with old | new
  · exact first id old
  · exact second id new

theorem struck_portSignal (x : Executive M cfg) (s signal edges : Nat) :
    x.Struck (x.portSignal cpu s signal edges).2 cpu (fun _ => True) fun _ => True :=
  (Struck.refl x).portSignal trivial signal edges

section
variable (enrolled : (x.sched cpu).Enrolled cpu)
include enrolled

theorem stopped_terminateHere (id : ThreadId) : (x.terminateHere cpu id).Stopped cpu [id] := by
  intro _ mem slot t found own
  rw [mem_singleton.mp mem] at own
  unfold terminateHere at found
  split at found
  · rename_i absent
    obtain ⟨_,positive,_,_,minted⟩ := enrolled.minted slot t found
    unfold Scheduler.indexOf at absent
    split at absent
    · rename_i unassigned
      exact absurd (minted.symm.trans (own.trans unassigned)) (ThreadId.mint_ne_unassigned positive)
    · exact absurd own (of_decide_eq_false (index?_eq_none.mp absent slot t found))
  · rename_i place index
    obtain ⟨u,there,same⟩ := indexOf_eq_some index
    rw [onCpu_sched_self, terminate, setState, thread_alter] at found
    split at found
    · obtain ⟨_,_,rfl⟩ := map_eq_some_iff.mp found
      rfl
    · rename_i elsewhere
      exact absurd (enrolled.distinct place slot u t there found (same.trans own.symm)) elsewhere

section
variable (stopped : x.Stopped cpu ids)
include stopped

theorem stopped_killMembers (s : Nat) (members : List Member) :
    (members.foldl (killMember cpu s) x).Stopped cpu (ids ++ members.map (·.thread)) := by
  induction members generalizing x ids with
  | nil => simpa using stopped
  | cons m rest ih =>
    have ended := (stopped_terminateHere enrolled m.thread).struck (struck_portSignal _ s signalMemberExit 1)
    have others : x.Struck (killMember cpu s x m) cpu (fun _ => True) fun _ => True :=
      (Struck.refl x).killMember trivial trivial
    have kept : x.Follows False (killMember cpu s x m) := follows_killMember cpu s x m
    have onward := ih ((kept cpu).enrolled enrolled) ((stopped.struck others).append ended)
    rw [append_assoc] at onward
    exact onward

theorem stopped_killJob (jobs : JobTable cfg) (id : JobId) :
    (killJob cpu jobs x id).Stopped cpu (ids ++ (jobs.members id).map (·.thread)) := by
  unfold killJob members
  cases found : jobs.job id with
  | none => simpa using stopped
  | some => exact (stopped_killMembers enrolled stopped _ _).struck (struck_portSignal _ _ _ _)

theorem stopped_killJobs (jobs : JobTable cfg) (order : List JobId) :
    (order.foldl (killJob cpu jobs) x).Stopped cpu (ids ++ (order.flatMap jobs.members).map (·.thread)) := by
  induction order generalizing x ids with
  | nil => simpa using stopped
  | cons id rest ih =>
    have kept : x.Follows False (killJob cpu jobs x id) := follows_killJob cpu jobs x id
    have onward := ih ((kept cpu).enrolled enrolled) (stopped_killJob enrolled stopped jobs id)
    rw [append_assoc, ← map_append] at onward
    exact onward

end

end

end Executive

namespace JobTable

theorem killOrder_ok {t u : JobTable cfg} {entries : Nat} {order : List JobId}
    (done : t.killOrder root rights entries = (.ok order, u)) :
    rights.contains .kill = true ∧ (t.job root).isSome := by
  unfold killOrder at done
  split at done
  · cases done
  rename_i allowed
  split at done
  · cases done
  · rename_i live
    exact ⟨not_not.mp allowed,by simpa [isSome_iff_ne_none] using live⟩

theorem members_markKilled (t : JobTable cfg) (order : List JobId) (id : JobId) :
    (t.markKilled order).members id = t.members id := by
  unfold members
  rw [job_markKilled]
  cases t.job id <;> rfl

end JobTable

namespace Machine

def InSubtree (w : Machine M cfg) (root : JobId) (id : ThreadId) : Prop :=
  ∃ job, Forest.Below w.jobs.childIds job root ∧ ∃ m ∈ w.jobs.members job, m.thread = id

def StateSource (w : Machine M cfg) (root : JobId) (source : Nat) : Prop :=
  ∃ j job, Forest.Below w.jobs.childIds j root ∧ w.jobs.job j = some job ∧ job.stateSource = source

theorem grown_run [Stamped M] {ports : PortTable cfg}
    {w : Machine M cfg} (run : Run Step (new ports quantum tickLimit) history w) : w.jobs.Grown := by
  refine run.invariant (fun w : Machine M cfg => w.jobs.Grown) ?_ grown_new
  intro w a _ grown step
  cases a with first | cases step | obtain rfl := eq_of_guard step | skip
  | exec | sched =>
    obtain ⟨_,_,same⟩ := map_eq_some_iff.mp step
    cases same
    exact grown
  | waitOnAddress cpu key expected read =>
    have same : (w.waitOnAddress cpu key expected read).2.jobs = w.jobs := by
      unfold waitOnAddress
      split
      · rfl
      split
      · rfl
      split
      · rfl
      · split <;> rfl
    rw [same]
    exact grown
  | wake cpu key count =>
    have same (turns woken : Nat) (w : Machine M cfg) : (wakeLoop cpu key count turns woken w).2.jobs = w.jobs := by
      induction turns generalizing woken w with
      | zero => rfl
      | succ turns ih =>
        unfold wakeLoop
        split
        · split
          · rfl
          · rw [ih]
        · rfl
    rw [wake, same]
    exact grown
  | portCreate | portBind => exact grown
  | portSignal | portWait => exact grown
  | jobCreateRoot obj limits => exact grown.step (.createRoot obj limits)
  | jobCreateChild parent obj limits rights => exact grown.step (.createChild parent obj limits rights)
  | jobAddProcess id mem rights => exact grown.step (.addProcess id mem rights)
  | jobKill cpu root rights =>
    have same : (w.jobKill cpu root rights).2.jobs = (w.jobs.killOrder root rights cfg.maxJobs).2 := by
      unfold jobKill
      split <;> rename_i killed <;> rw [killed]
    rw [same]
    exact grown.step (.killOrder root rights cfg.maxJobs)

/-- A kill ends every member thread of the subtree that lives on the killing
    processor. No other thread changes, but for those that wait at a port for the
    jobs' signals and are woken by them. -/
theorem job_kill_ends_local_members [Stamped M] {ports : PortTable cfg} {quantum tickLimit : Nat}
    {history : List (MachineAction M cfg)} {w v : Machine M cfg}
    (run : Run Step (new ports quantum tickLimit) history w) {cpu : Fin cfg.maxCpus} {root : JobId} {rights : Rights}
    {killed : List ObjectId} (done : w.jobKill cpu root rights = (.ok killed, v)) :
    (∀ slot t, (v.exec.sched cpu).thread slot = some t → w.InSubtree root t.id → t.state = .exited) ∧
    ∀ c slot t, (w.exec.sched c).thread slot = some t → ¬ w.InSubtree root t.id →
      ∃ t', (v.exec.sched c).thread slot = some t' ∧ t'.id = t.id ∧ (t'.state = t.state ∨
          c = cpu ∧ w.exec.Awaits (w.StateSource root) t.id ∧ t.state = .blocked ∧ t'.state = .ready) := by
  have enrolled := enrolled_run run cpu
  have grown := grown_run run
  unfold jobKill at done
  split at done
  · cases done
  rename_i order _ listed
  cases done
  obtain ⟨allowed,live⟩ := killOrder_ok listed
  obtain ⟨_,result,_,within,_⟩ := grown.killOrder allowed live cfg.maxJobs
  rw [listed] at result
  split at result
  · cases result
  obtain ⟨orders,marked⟩ := Prod.mk.inj result
  cases orders
  subst marked
  constructor
  · intro slot t found ⟨job,below,m,mem,same⟩
    have none : w.exec.Stopped cpu [] := nofun
    have stopped := stopped_killJobs enrolled none (w.jobs.markKilled order) order
    apply stopped m.thread _ slot t found same.symm
    rw [nil_append, List.mem_map]
    refine ⟨m,mem_flatMap.mpr ⟨job,(within job).mpr below,?_⟩,rfl⟩
    rw [members_markKilled]
    exact mem
  · intro c slot t found outside
    have struck : w.exec.Struck (order.foldl (killJob cpu (w.jobs.markKilled order)) w.exec) cpu
        (w.InSubtree root) (w.StateSource root) := by
      apply (Executive.Struck.refl w.exec).killJobs
      · intro id mem _ there
        rw [job_markKilled] at there
        obtain ⟨old,before,rfl⟩ := map_eq_some_iff.mp there
        exact ⟨id,old,(within id).mp mem,before,rfl⟩
      · intro id mem m inside
        rw [members_markKilled] at inside
        exact ⟨id,(within id).mp mem,m,inside,rfl⟩
    obtain ⟨t',after,same,change⟩ := struck.thread c slot t found
    refine ⟨t',after,same,?_⟩
    rcases change with unchanged | ⟨_,victim,_⟩ | roused
    · exact .inl unchanged
    · exact absurd victim outside
    · exact .inr roused

/-- Two threads on the boot processor, the second of them a member of a job, and
    one on the other processor that is a member of the child job. -/
def spreadFamily : List (MachineAction (Message .default) .default) :=
  [.exec (.addThread otherCpu 16 0), .exec (.dispatch otherCpu), .exec (.addThread bootCpu 16 0),
    .exec (.addThread bootCpu 16 0), .exec (.dispatch bootCpu), .jobCreateRoot ⟨1⟩ ⟨8⟩,
    .jobCreateChild ⟨0⟩ ⟨2⟩ ⟨4⟩ .createJob, .jobAddProcess ⟨0⟩ ⟨⟨10⟩, .mint 0 2⟩ .createProcess,
    .jobAddProcess ⟨1⟩ ⟨⟨11⟩, .mint 1 1⟩ .createProcess]

def watchedJob : List (MachineAction (Message .default) .default) :=
  [.portCreate, .portBind ⟨0⟩ 1 signalEmpty, .exec (.addThread bootCpu 16 0), .exec (.addThread bootCpu 16 0),
    .exec (.dispatch bootCpu), .portWait bootCpu ⟨0⟩, .exec (.leave bootCpu), .jobCreateRoot ⟨1⟩ ⟨8⟩]

def standing (w : Machine (Message .default) .default) (cpu : Fin Config.default.maxCpus) (slot : Nat) :
    Option (ThreadId × ThreadState) :=
  ((w.exec.sched cpu).thread slot).map fun t => (t.id, t.state)

theorem spread_family_is_killed_here :
    ∃ w v : Machine (Message .default) .default, Run Step (new .new 1 0) spreadFamily w ∧
      w.jobKill bootCpu ⟨0⟩ .kill = (.ok [⟨11⟩, ⟨10⟩], v) ∧ w.standing bootCpu 1 = some (.mint 0 2, .ready) ∧
      w.InSubtree ⟨0⟩ (.mint 0 2) ∧
      ∃ t, (v.exec.sched bootCpu).thread 1 = some t ∧ t.id = .mint 0 2 ∧ t.state = .exited := by
  obtain ⟨w,run,⟨killed,ready⟩,member,t,there,named⟩ : ∃ w : Machine (Message .default) .default,
      Run Step (new .new 1 0) spreadFamily w ∧
      ((w.jobKill bootCpu ⟨0⟩ .kill).1 = .ok [⟨11⟩, ⟨10⟩] ∧ w.standing bootCpu 1 = some (.mint 0 2, .ready)) ∧
      ⟨⟨10⟩, .mint 0 2⟩ ∈ w.jobs.members ⟨0⟩ ∧
      ∃ t, ((w.jobKill bootCpu ⟨0⟩ .kill).2.exec.sched bootCpu).thread 1 = some t ∧ t.id = .mint 0 2 :=
    Disciplined.reaches (by decide +kernel)
  have result : w.jobKill bootCpu ⟨0⟩ .kill = (.ok [⟨11⟩, ⟨10⟩], (w.jobKill bootCpu ⟨0⟩ .kill).2) := Prod.ext killed rfl
  have inside : w.InSubtree ⟨0⟩ (.mint 0 2) := ⟨⟨0⟩,.refl,_,member,rfl⟩
  have ended := (job_kill_ends_local_members run result).1 1 t there
  rw [named] at ended
  exact ⟨w,_,run,result,ready,inside,t,there,named,ended inside⟩

/-- A member thread of another processor runs on after the kill, and a thread of no
    job that waits for the job's signal is made ready by it. -/
theorem kill_leaves_remote_member_running :
    (∃ w v : Machine (Message .default) .default, Run Step (new .new 1 0) spreadFamily w ∧
      Step w (.jobKill bootCpu ⟨0⟩ .kill) v ∧ (w.jobKill bootCpu ⟨0⟩ .kill).1 = .ok [⟨11⟩, ⟨10⟩] ∧
      w.jobs.childIds ⟨0⟩ = [⟨1⟩] ∧ w.jobs.members ⟨1⟩ = [⟨⟨11⟩, .mint 1 1⟩] ∧
      v.standing otherCpu 0 = some (.mint 1 1, .running)) ∧
    ∃ w v : Machine (Message .default) .default, Run Step (new .new 1 0) watchedJob w ∧
      Step w (.jobKill bootCpu ⟨0⟩ .kill) v ∧ (w.jobKill bootCpu ⟨0⟩ .kill).1 = .ok [] ∧
      w.jobs.childIds ⟨0⟩ = [] ∧ w.jobs.members ⟨0⟩ = [] ∧
      w.standing bootCpu 0 = some (.mint 0 1, .blocked) ∧ v.standing bootCpu 0 = some (.mint 0 1, .ready) := by
  constructor
  · simp only [exists_and_left, Step]
    exact Disciplined.reaches (by decide +kernel)
  · simp only [exists_and_left, Step]
    exact Disciplined.reaches (by decide +kernel)

end Machine
end Tessera
