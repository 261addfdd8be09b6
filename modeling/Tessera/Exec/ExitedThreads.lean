import Tessera.Exec.Machine
import Tessera.Exec.RunQueue

/-!
What becomes of a thread that has ended. A step keeps every thread that it does
not add: under its identity in its slot, or not at all. A thread that has ended
stays so unless the processor is handed to it, or it is the one that runs and it
parks or is preempted.
-/
namespace Tessera
open Option ThreadId Executive Scheduler Transition
variable {cfg : Config} {keep : Prop} {M : Type} {x y : Executive M cfg}
namespace Scheduler
variable {C : Type}

structure Enrolled (s : Scheduler C cfg) (cpu : Nat) : Prop where
  positive : 0 < s.nextThreadId
  minted : ∀ slot t, s.thread slot = some t →
    ∃ n, 0 < n ∧ n < s.nextThreadId ∧ n < 2 ^ cpuShift ∧ t.id = .mint cpu n
  distinct : ∀ slot slot' t t', s.thread slot = some t → s.thread slot' = some t' → t.id = t'.id → slot = slot'

/-- Whatever stands in a slot afterwards stood there before, or it is new. A step
    that keeps to the condition also leaves a thread that had ended as it was, and
    the processor on it only if it was there. -/
structure Follows (keep : Prop) (s s' : Scheduler C cfg) (cpu : Nat) : Prop where
  next : s.nextThreadId ≤ s'.nextThreadId
  enrolled : s.Enrolled cpu → s'.Enrolled cpu
  thread : ∀ slot t', s'.thread slot = some t' →
    (∃ t, s.thread slot = some t ∧ t.id = t'.id ∧
      (keep → t.state = .exited → t'.state = .exited ∧ (s'.current = some slot → s.current = some slot))) ∨
    ∃ n, s.nextThreadId ≤ n ∧ n < s'.nextThreadId ∧ n < 2 ^ cpuShift ∧ t'.id = .mint cpu n

theorem Follows.refl (s : Scheduler C cfg) (cpu : Nat) : s.Follows keep s cpu :=
  ⟨le_rfl,id,fun _ t found => .inl ⟨t,found,rfl,fun _ exited => ⟨exited,id⟩⟩⟩

variable {cpu : Nat} {s s' : Scheduler C cfg} {state : ThreadState}

theorem Follows.trans {a b c : Scheduler C cfg} (first : a.Follows keep b cpu) (second : b.Follows keep c cpu) :
    a.Follows keep c cpu := by
  refine ⟨first.next.trans second.next,second.enrolled ∘ first.enrolled,?_⟩
  intro slot t found
  rcases second.thread slot t found with ⟨u,between,same,ended⟩ | ⟨n,past,below,fits,minted⟩
  · rcases first.thread slot u between with ⟨v,before,earlier,first⟩ | ⟨n,past,below,fits,minted⟩
    · refine .inl ⟨v,before,earlier.trans same,?_⟩
      intro strict exited
      obtain ⟨still,unmoved⟩ := first strict exited
      obtain ⟨now,kept⟩ := ended strict still
      exact ⟨now,unmoved ∘ kept⟩
    · exact .inr ⟨n,past,below.trans_le second.next,fits,same ▸ minted⟩
  · exact .inr ⟨n,first.next.trans past,below,fits,minted⟩

theorem follows_of_map (next : s.nextThreadId ≤ s'.nextThreadId)
    (thread : ∀ slot t', s'.thread slot = some t' → ∃ t, s.thread slot = some t ∧ t.id = t'.id ∧
      (keep → t.state = .exited → t'.state = .exited ∧ (s'.current = some slot → s.current = some slot))) :
    s.Follows keep s' cpu := by
  refine ⟨next,?_,fun slot t' found => .inl (thread slot t' found)⟩
  intro enrolled
  constructor
  · exact enrolled.positive.trans_le next
  · intro slot t' found
    obtain ⟨t,before,same,_⟩ := thread slot t' found
    obtain ⟨n,positive,below,fits,minted⟩ := enrolled.minted slot t before
    exact ⟨n,positive,below.trans_le next,fits,same ▸ minted⟩
  · intro slot slot' t t' found found' equal
    obtain ⟨u,before,same,_⟩ := thread slot t found
    obtain ⟨u',before',same',_⟩ := thread slot' t' found'
    exact enrolled.distinct slot slot' u u' before before' (by rw [same, same', equal])

theorem follows_of_kept (next : s.nextThreadId ≤ s'.nextThreadId) (current : s'.current = s.current)
    (kept : ∀ slot t, s'.thread slot = some t → s.thread slot = some t) : s.Follows keep s' cpu := by
  apply follows_of_map next
  intro slot t found
  rw [current]
  exact ⟨t,kept slot t found,rfl,fun _ exited => ⟨exited,id⟩⟩

theorem Rouses.follows (rouses : s.Rouses s') (cpu : Nat) : s.Follows keep s' cpu := by
  apply follows_of_map rouses.nextThreadId.ge
  intro _ _ found
  obtain ⟨t,before,roused⟩ := rouses.thread_some found
  refine ⟨t,before,roused.id.symm,?_⟩
  intro _ exited
  rw [rouses.current]
  rcases roused.state with same | ⟨slept,_⟩
  · exact ⟨same.trans exited,id⟩
  · rw [exited] at slept
    cases slept

section
variable (s : Scheduler C cfg)

theorem follows_alter (cpu slot : Nat)
    (keeps : ∀ t, s.thread slot = some t → (f t).id = t.id ∧ (keep → t.state = .exited → (f t).state = .exited)) :
    s.Follows keep (s.alter slot f) cpu := by
  apply follows_of_map (show s.nextThreadId ≤ (s.alter slot f).nextThreadId from le_rfl)
  intro _ t' found
  rw [thread_alter] at found
  split at found
  · rename_i same
    subst same
    obtain ⟨t,before,rfl⟩ := map_eq_some_iff.mp found
    obtain ⟨id,ended⟩ := keeps t before
    exact ⟨t,before,id.symm,fun strict exited => ⟨ended strict exited,fun current => current⟩⟩
  · exact ⟨t',found,rfl,fun _ exited => ⟨exited,fun current => current⟩⟩

theorem follows_setContext (cpu slot : Nat) (context : C) : s.Follows keep (s.setContext slot context) cpu := by
  apply follows_alter
  intro _ _
  exact ⟨rfl,fun _ => id⟩

theorem threadState_setContext (slot other : Nat) (context : C) :
    (s.setContext slot context).threadState other = s.threadState other := by
  rw [threadState, setContext, thread_alter]
  split
  · rw [map_map]
    rfl
  · rfl

theorem follows_terminate (cpu slot : Nat) : s.Follows keep (s.terminate slot) cpu := by
  apply follows_alter
  intro _ _
  exact ⟨rfl,fun _ _ => rfl⟩

theorem follows_popReady (cpu : Nat) : s.Follows keep s.popReady.2 cpu := by
  apply follows_of_kept s.popReady_nextThreadId.ge s.popReady_current
  intro _ _ found
  rwa [popReady_thread] at found

theorem follows_enqueue (cpu slot : Nat) : s.Follows keep (s.enqueue slot) cpu := by
  have current : (s.enqueue slot).current = s.current := by
    unfold enqueue
    split <;> rfl
  apply follows_of_kept (s.enqueue_nextThreadId slot).ge current
  intro _ _ found
  rwa [thread, enqueue_threads] at found

end

def currentLive (s : Scheduler C cfg) : Bool := s.current.all fun slot => s.threadState slot ≠ some .exited

section
variable (s : Scheduler C cfg)

theorem currentLive_popReady : s.popReady.2.currentLive = s.currentLive := by
  simp [currentLive, popReady_current, popReady_threadState]

section
variable (cpu : Nat)

theorem follows_switchTo {next : Option Nat}
    (live : keep → ∀ slot, next = some slot → s.threadState slot ≠ some .exited) : s.Follows keep (s.switchTo next) cpu := by
  apply follows_of_map (s.switchTo_nextThreadId next).ge
  intro slot t' found
  rw [switchTo_thread] at found
  rw [switchTo_current]
  split at found
  · rename_i chosen
    obtain ⟨t,before,rfl⟩ := map_eq_some_iff.mp found
    refine ⟨t,before,rfl,?_⟩
    intro strict exited
    exact absurd (by simp [threadState, before, exited]) (live strict slot chosen)
  · rename_i other
    exact ⟨t',found,rfl,fun _ exited => ⟨exited,fun chosen => absurd chosen other⟩⟩

section
variable (live : keep → s.currentLive = true ∨ state = .exited)
include live

theorem follows_settle : s.Follows keep (s.settle state) cpu := by
  unfold settle
  split
  · exact .refl s cpu
  rename_i running
  apply follows_alter
  intro _ found
  refine ⟨rfl,?_⟩
  intro strict exited
  rcases live strict with live | ends
  · simp [currentLive, running, threadState, found, exited] at live
  · exact ends

theorem follows_leave : s.Follows keep ((s.settle state).popReady.2.switchTo (s.settle state).popReady.1) cpu := by
  apply ((s.follows_settle cpu live).trans (follows_popReady _ cpu)).trans
  apply follows_switchTo
  intro _ _ popped
  rw [popReady_threadState, popReady_ready popped]
  exact nofun

end

theorem follows_handoffTo {target : Nat} (live : keep → s.currentLive = true)
    (awake : keep → s.threadState target ≠ some .exited) : s.Follows keep (s.handoffTo target) cpu := by
  apply (s.follows_settle cpu fun strict => .inl (live strict)).trans
  apply follows_switchTo
  intro strict _ chosen
  cases chosen
  rw [settle_threadState]
  split
  · intro ended
    obtain ⟨_,_,same⟩ := map_eq_some_iff.mp ended
    cases same
  · exact awake strict

theorem follows_run : s.Follows keep s.run cpu := by
  rcases s.run_eq with ⟨_,same⟩ | ⟨_,popped,same⟩
  · rw [same]
    exact s.follows_popReady cpu
  rw [same]
  apply (s.follows_popReady cpu).trans
  apply follows_switchTo
  intro _ _ chosen
  cases chosen
  rw [popReady_threadState, popReady_ready popped]
  exact nofun

theorem follows_requeueCurrent (live : keep → s.currentLive = true) : s.Follows keep s.requeueCurrent cpu := by
  rcases s.requeueCurrent_cases with ⟨_,same⟩ | ⟨slot,_,same⟩
  · rw [same]
    exact .refl s cpu
  · rw [same]
    exact (s.follows_settle cpu fun strict => .inl (live strict)).trans (follows_enqueue _ cpu slot)

theorem follows_onTick (clock : Clock) (live : keep → s.currentLive = true) :
    s.Follows keep (s.onTick clock).1 cpu := by
  rcases s.onTick_cases clock with ⟨_,same⟩ | same | ⟨_,same⟩ | ⟨_,popped,same⟩
  · rw [same]
    exact (s.follows_requeueCurrent cpu live).trans (follows_switchTo _ cpu nofun)
  · rw [same]
    exact .refl s cpu
  · rw [same]
    exact s.follows_popReady cpu
  rw [same]
  apply ((s.follows_popReady cpu).trans (follows_requeueCurrent _ cpu (s.currentLive_popReady ▸ live))).trans
  apply follows_switchTo
  intro _ _ chosen
  cases chosen
  rw [requeueCurrent_threadState, settle_threadState]
  split
  · intro ended
    obtain ⟨_,_,same⟩ := map_eq_some_iff.mp ended
    cases same
  · rw [popReady_threadState, popReady_ready popped]
    exact nofun

theorem follows_addThread (new : Thread C) (correlation : Nat) :
    s.Follows keep (s.addThread cpu new correlation).2 cpu := by
  obtain ⟨current,⟨next,_,same⟩ | ⟨slot,_,fits,next,_,threads⟩⟩ := s.addThread_cases cpu new correlation
  · exact follows_of_kept next current fun slot t found => same slot ▸ found
  · have cases' (other : Nat) (t : Thread C) (found : (s.addThread cpu new correlation).2.thread other = some t) :
        slot = other ∧ t.id = .mint cpu s.nextThreadId ∨ s.thread other = some t := by
      rw [threads] at found
      split at found
      · rename_i here
        cases found
        exact .inl ⟨here,rfl⟩
      · exact .inr found
    have older (enrolled : s.Enrolled cpu) (other : Nat) (t : Thread C) (found : s.thread other = some t) :
        t.id ≠ .mint cpu s.nextThreadId := by
      intro same
      obtain ⟨n,_,_,_,minted⟩ := enrolled.minted other t found
      rw [minted] at same
      have := mint_injective same
      omega
    refine ⟨by omega,?_,?_⟩
    · intro enrolled
      constructor
      · omega
      · intro other t found
        rcases cases' other t found with ⟨_,minted⟩ | before
        · exact ⟨s.nextThreadId,enrolled.positive,by omega,fits,minted⟩
        · obtain ⟨n,positive,_,small,minted⟩ := enrolled.minted other t before
          exact ⟨n,positive,by omega,small,minted⟩
      · intro a b t u found found' equal
        rcases cases' a t found with ⟨here,minted⟩ | before
        · rcases cases' b u found' with ⟨there,_⟩ | before'
          · exact here.symm.trans there
          · exact absurd (equal ▸ minted) (older enrolled b u before')
        rcases cases' b u found' with ⟨_,minted⟩ | before'
        · exact absurd (equal.trans minted) (older enrolled a t before)
        · exact enrolled.distinct a b t u before before' equal
    · intro other t found
      rw [current]
      rcases cases' other t found with ⟨_,minted⟩ | before
      · exact .inr ⟨s.nextThreadId,le_rfl,by omega,fits,minted⟩
      · exact .inl ⟨t,before,rfl,fun _ exited => ⟨exited,id⟩⟩

end

theorem follows_reap (cpu slot : Nat) : s.Follows keep (s.reap slot).2 cpu := by
  apply follows_of_kept (s.reap_nextThreadId slot).ge (s.reap_current slot)
  intro _ _ found
  rcases s.reap_cases slot with same | ⟨_,threads⟩
  · rwa [same] at found
  rw [threads] at found
  split at found
  · cases found
  · exact found

end

end Scheduler

namespace Executive
variable {cpu : Fin cfg.maxCpus} {fed listened : List EndpointId}

def Follows (keep : Prop) (x y : Executive M cfg) : Prop := ∀ c, (x.sched c).Follows keep (y.sched c) c

theorem Follows.refl (x : Executive M cfg) : x.Follows keep x := fun c => .refl _ c

theorem Follows.trans {z : Executive M cfg} (first : x.Follows keep y) (second : y.Follows keep z) :
    x.Follows keep z :=
  fun c => (first c).trans (second c)

theorem Rouses.follows (rouses : x.Rouses y) : x.Follows keep y :=
  fun c => (rouses.sched c).follows c

theorem follows_onCpu (x : Executive M cfg)
    (step : (x.sched cpu).Follows keep (f (x.sched cpu)) cpu) : x.Follows keep (x.onCpu cpu f) := by
  intro c
  by_cases same : c = cpu
  · subst same
    rw [onCpu_sched_self]
    exact step
  · rw [onCpu_sched_ne x f same]
    exact .refl _ c

theorem follows_of_sched (same : y.sched = x.sched) : x.Follows keep y := by
  intro c
  rw [same]
  exact .refl _ c

theorem Minds.follows (minds : x.Minds y cpu fed listened) : x.Follows keep y :=
  fun c => (minds.sched c).follows c

theorem Operates.follows (operates : x.Operates cpu fed listened y) : x.Follows keep y := by
  cases operates with
  | returns minds => exact minds.follows
  | parks minds => exact minds.follows.trans (follows_onCpu _ (follows_setContext _ cpu _ _))

theorem follows_noteResidence (x : Executive M cfg) (cpu : Fin cfg.maxCpus) : x.Follows keep (x.noteResidence cpu) := by
  have works : x.Works (x.noteResidence cpu) cpu (.waiting M []) := x.works_noteResidence cpu
  exact works.minds.follows

theorem Does.follows (does : x.Does cpu scope sources r) : x.Follows keep r.2 := by
  cases does with
  | returns works => exact works.minds.follows
  | @parks y slot target wait _ works _ _ _ =>
    have saved : y.Follows keep (y.onCpu cpu (·.setContext slot (.parking target wait))) :=
      y.follows_onCpu (follows_setContext _ cpu _ _)
    exact works.minds.follows.trans saved

section
variable [Stamped M]

theorem follows_resumeWait (x : Executive M cfg) (slot : Nat) (wait : Wait) (now later : Nat) :
    x.Follows keep (x.resumeWait cpu slot wait now later).2 := by
  rcases @resumeWait_does _ _ cpu _ x slot wait now later with does | ⟨_,works⟩
  · exact does.follows
  · exact works.minds.follows

def handoffTarget (x : Executive M cfg) (cpu : Fin cfg.maxCpus) : Option Nat :=
  (x.sched cpu).current.bind fun slot =>
    match x.frame? cpu slot with
    | some (.parking target _) => target
    | _ => none

omit [Stamped M] in
theorem follows_leave (left : x.leave cpu = some y) (live : keep → (x.sched cpu).currentLive = true)
    (awake : keep → ∀ target, x.handoffTarget cpu = some target → (x.sched cpu).threadState target ≠ some .exited) :
    x.Follows keep y := by
  unfold leave at left
  cases running : (x.sched cpu).current with
  | none => simp [running] at left
  | some slot =>
    simp only [running] at left
    -- the context is saved before the state changes
    have saved (wait : Wait) (strict : keep) : ((x.sched cpu).setContext slot (.parked wait)).currentLive = true := by
      simp only [currentLive, threadState_setContext]
      exact live strict
    split at left
    · cases left
      apply follows_onCpu
      apply (follows_setContext _ cpu slot _).trans
      exact follows_leave _ cpu fun strict => .inl (saved _ strict)
    · rename_i target wait frame
      cases left
      apply follows_onCpu
      apply (follows_setContext _ cpu slot _).trans
      apply follows_handoffTo _ cpu (saved wait)
      intro strict
      have chosen : x.handoffTarget cpu = some target := by
        simp [handoffTarget, running, frame]
      rw [threadState_setContext]
      exact awake strict target chosen
    · cases left

/-- A thread that parks has not ended, and neither has the one it hands its
    processor to. -/
def Lively (x : Executive M cfg) : ExecAction M cfg → Prop
  | .leave cpu => (x.sched cpu).currentLive = true ∧
    (x.handoffTarget cpu).all (fun target => (x.sched cpu).threadState target ≠ some .exited) = true
  | _ => True

instance (x : Executive M cfg) : (a : ExecAction M cfg) → Decidable (x.Lively a)
  | .leave _ => inferInstanceAs (Decidable (_ ∧ _))
  | .channelCreate | .channelCreateWithObjects | .addThread .. | .send .. | .receive .. | .tryReceive ..
  | .receiveAny .. | .callUntil .. | .reply .. | .replyAndContinue .. | .replyReceive .. | .closeEndpoint ..
  | .resume .. | .dispatch _ | .drain _ | .expire .. => inferInstanceAs (Decidable True)

theorem perform_follows (done : x.perform a = some (out, y)) (lively : keep → x.Lively a) : x.Follows keep y := by
  by_cases operation : ∃ cpu, operator a = some cpu
  · obtain ⟨cpu,own⟩ := operation
    exact (perform_operates done own).2.follows
  cases a with first | cases done | obtain ⟨_,_,rfl⟩ := guarded done | skip
  | channelCreate | channelCreateWithObjects => exact follows_of_sched rfl
  | addThread cpu priority correlation =>
    dsimp only
    apply follows_onCpu
    exact follows_addThread _ cpu _ correlation
  | leave =>
    obtain ⟨_,left,same⟩ := map_eq_some_iff.mp done
    cases same
    refine follows_leave left (fun strict => (lively strict).1) ?_
    intro strict _ chosen
    have awake := (lively strict).2
    rw [chosen] at awake
    exact of_decide_eq_true awake
  | resume cpu now later =>
    obtain ⟨slot,wait,_,_,went⟩ := resume_eq_some done
    have resumed : (x.onCpu cpu (·.setContext slot .outside)).Follows keep
        ((x.onCpu cpu (·.setContext slot .outside)).resumeWait cpu slot wait now later).2 :=
      follows_resumeWait _ slot wait now later
    rw [went] at resumed
    exact (x.follows_onCpu (follows_setContext _ cpu slot _)).trans resumed
  | dispatch cpu => exact x.follows_onCpu (follows_run _ cpu)
  | drain cpu =>
    have taken : x.Rouses (x.onCpu cpu (takeWakeups · (x.wakeups cpu) (List.range cfg.maxThreads))) :=
      x.rouses_onCpu cpu (rouses_takeWakeups ..)
    exact taken.follows.trans (follows_of_sched rfl)
  | expire cpu now => exact (x.rouses_expireTimedOutWaits cpu now).follows
  | _ => exact absurd ⟨_,rfl⟩ operation

end

theorem follows_terminateHere (x : Executive M cfg) (cpu : Fin cfg.maxCpus) (id : ThreadId) :
    x.Follows keep (x.terminateHere cpu id) := by
  unfold terminateHere
  split
  · exact .refl x
  · exact x.follows_onCpu (follows_terminate _ cpu _)

theorem follows_killMember (cpu : Fin cfg.maxCpus) (stateSource : Nat) (x : Executive M cfg) (mem : Member) :
    x.Follows keep (killMember cpu stateSource x mem) :=
  (x.follows_terminateHere cpu mem.thread).trans (rouses_portSignal _ cpu _ _ _).follows

theorem follows_killJob (cpu : Fin cfg.maxCpus) (jobs : JobTable cfg) (x : Executive M cfg) (id : JobId) :
    x.Follows keep (killJob cpu jobs x id) := by
  unfold killJob
  split
  · exact .refl x
  rename_i job _
  have members : x.Follows keep (job.members.live.foldl (killMember cpu job.stateSource) x) := by
    induction job.members.live generalizing x with
    | nil => exact .refl x
    | cons mem rest ih => exact (follows_killMember cpu job.stateSource x mem).trans (ih _)
  exact members.trans (rouses_portSignal _ cpu _ _ _).follows

theorem follows_killJobs (cpu : Fin cfg.maxCpus) (jobs : JobTable cfg) (x : Executive M cfg) (order : List JobId) :
    x.Follows keep (order.foldl (killJob cpu jobs) x) := by
  induction order generalizing x with
  | nil => exact .refl x
  | cons id rest ih => exact (follows_killJob cpu jobs x id).trans (ih _)

end Executive

namespace Machine

theorem follows_jobKill (w : Machine M cfg) (cpu : Fin cfg.maxCpus) (root : JobId) (rights : Rights) :
    w.exec.Follows keep (w.jobKill cpu root rights).2.exec := by
  unfold jobKill
  split
  · exact .refl w.exec
  · rename_i order jobs _
    exact follows_killJobs cpu jobs w.exec order

theorem follows_wakeLoop (cpu : Fin cfg.maxCpus) (key : WaitKey) (count turns woken : Nat) (w : Machine M cfg) :
    w.exec.Follows keep (wakeLoop cpu key count turns woken w).2.exec := by
  induction turns generalizing woken w with
  | zero => exact .refl w.exec
  | succ turns ih =>
    unfold wakeLoop
    split
    · split
      · exact .refl w.exec
      · rename_i thread waits _
        exact (w.exec.rouses_wakeThread cpu thread).follows.trans
          (ih _ { w with waits, exec := w.exec.wakeThread cpu thread })
    · exact .refl w.exec

theorem follows_waitOnAddress (w : Machine M cfg) (cpu : Fin cfg.maxCpus) (key : WaitKey) (expected : Nat)
    (read : Except KError Nat) : w.exec.Follows keep (w.waitOnAddress cpu key expected read).2.exec := by
  have noted : w.exec.Follows keep (w.exec.noteResidence cpu) := w.exec.follows_noteResidence cpu
  unfold waitOnAddress
  split
  · exact noted
  split
  · exact noted
  split
  · exact noted
  split
  · exact noted
  have parked : (w.exec.noteResidence cpu).Does cpu (.waiting M []) []
      (.parked, (w.exec.noteResidence cpu).park cpu none .address) :=
    does_park trivial (.refl _) rfl rfl
  exact noted.trans parked.follows

/-- The running thread and a handoff's target have not ended when the processor
    changes hands without the ring. -/
def Lively [Stamped M] (w : Machine M cfg) : MachineAction M cfg → Prop
  | .exec a => w.exec.Lively a
  | .sched cpu .blockCurrent | .sched cpu .onTick => (w.exec.sched cpu).currentLive = true
  | .sched cpu (.handoffTo target) =>
    (w.exec.sched cpu).currentLive = true ∧ (w.exec.sched cpu).threadState target ≠ some .exited
  | _ => True

instance [Stamped M] (w : Machine M cfg) : (a : MachineAction M cfg) → Decidable (w.Lively a)
  | .exec a => inferInstanceAs (Decidable (w.exec.Lively a))
  | .sched _ .blockCurrent | .sched _ .onTick => inferInstanceAs (Decidable (_ = true))
  | .sched _ (.handoffTo _) => inferInstanceAs (Decidable (_ ∧ _))
  | .sched _ (.addThread ..) | .sched _ .dispatch | .sched _ (.unblock _) | .sched _ (.unblockThread ..)
  | .sched _ .exitCurrent | .sched _ (.terminate _) | .sched _ (.reap _) | .waitOnAddress .. | .wake ..
  | .portCreate | .portBind .. | .portSignal .. | .portWait .. | .jobCreateRoot .. | .jobCreateChild ..
  | .jobAddProcess .. | .jobKill .. => inferInstanceAs (Decidable True)

section
variable [Stamped M] {w v : Machine M cfg} {history : List (MachineAction M cfg)}

theorem follows_sched {cpu : Fin cfg.maxCpus}
    (lively : keep → w.Lively (.sched cpu a)) (done : w.perform (.sched cpu a) = some v) :
    w.exec.Follows keep v.exec := by
  obtain ⟨d,step,same⟩ := map_eq_some_iff.mp done
  cases same
  change w.exec.Follows keep (w.exec.onCpu cpu fun _ => d.sched)
  apply follows_onCpu
  cases a with first | cases step | obtain rfl := eq_of_guard step
  | addThread thread correlation => exact follows_addThread _ cpu thread correlation
  | dispatch => exact follows_run _ cpu
  | blockCurrent => exact follows_leave _ cpu fun strict => .inl (lively strict)
  | handoffTo => exact follows_handoffTo _ cpu (fun strict => (lively strict).1) fun strict => (lively strict).2
  | unblock slot => exact (rouses_unblock _ slot).follows cpu
  | unblockThread slot id => exact (rouses_unblockThread _ slot id).follows cpu
  | onTick => exact follows_onTick _ cpu _ lively
  | exitCurrent => exact follows_leave _ cpu fun _ => .inr rfl
  | terminate slot => exact follows_terminate _ cpu slot
  | reap slot => exact follows_reap _ cpu slot

theorem Step.follows (lively : keep → w.Lively a) (step : w.Step a v) : w.exec.Follows keep v.exec := by
  cases a with try obtain rfl := eq_of_guard step
  | exec =>
    obtain ⟨⟨_,_⟩,done,same⟩ := map_eq_some_iff.mp step
    cases same
    exact perform_follows done lively
  | sched => exact follows_sched lively step
  | waitOnAddress cpu key expected read => exact w.follows_waitOnAddress cpu key expected read
  | wake cpu key count => exact follows_wakeLoop cpu key count cfg.maxWaiters 0 w
  | jobKill cpu root rights => exact w.follows_jobKill cpu root rights
  | portCreate | portBind | jobCreateRoot | jobCreateChild | jobAddProcess =>
    cases step
    exact follows_of_sched rfl
  | portSignal cpu src signal edges => exact (w.exec.rouses_portSignal cpu src signal edges).follows
  | portWait cpu port =>
    have awaits : (w.exec.noteResidence cpu).Does cpu (.waiting M []) [] _ :=
      awaitEvent_does _ trivial port
    exact (w.exec.follows_noteResidence cpu).trans awaits.follows

theorem follows_run (run : Disciplined (fun _ w a => keep → Lively w a) Step w history v) :
    w.exec.Follows keep v.exec := by
  refine run.invariant (fun _ v => w.exec.Follows keep v.exec) ?_ (.refl w.exec)
  intro _ _ _ _ follows lively step
  exact follows.trans (step.follows lively)

omit [Stamped M] in
theorem enrolled_new (ports : PortTable cfg) (quantum tickLimit : Nat) (c : Fin cfg.maxCpus) :
    ((new ports quantum tickLimit : Machine M cfg).exec.sched c).Enrolled c := by
  constructor
  · exact Nat.one_pos
  · intro _ _ found
    simp [new, Executive.new, Scheduler.new, Scheduler.thread] at found
  · intro _ _ _ _ found
    simp [new, Executive.new, Scheduler.new, Scheduler.thread] at found

theorem enrolled_run {ports : PortTable cfg}
    (run : Run Step (new ports quantum tickLimit) history w) (c : Fin cfg.maxCpus) : (w.exec.sched c).Enrolled c := by
  have follows : (new ports quantum tickLimit : Machine M cfg).exec.Follows False w.exec :=
    follows_run (run.mono fun _ _ _ _ => False.elim)
  exact (follows c).enrolled (enrolled_new ports quantum tickLimit c)

/-- In every run that keeps to the condition a thread that has ended is found
    nowhere again but in its slot, ended, and its processor is not switched to it. -/
theorem exited_thread_stays_exited {ports : PortTable cfg} {quantum tickLimit : Nat}
    {before after : List (MachineAction M cfg)} {w v : Machine M cfg}
    (reached : Disciplined (fun _ => Lively) Step (new ports quantum tickLimit) before w)
    (onward : Disciplined (fun _ => Lively) Step w after v) {cpu : Fin cfg.maxCpus} {slot : Nat} {t : Thread Frame}
    (found : (w.exec.sched cpu).thread slot = some t) (exited : t.state = .exited) :
    ∀ cpu' slot' t', (v.exec.sched cpu').thread slot' = some t' → t'.id = t.id →
      cpu' = cpu ∧ slot' = slot ∧ t'.state = .exited ∧
        ((v.exec.sched cpu).current = some slot → (w.exec.sched cpu).current = some slot) := by
  intro cpu' slot' t' later same
  have enrolled (c : Fin cfg.maxCpus) : (w.exec.sched c).Enrolled c :=
    enrolled_run (reached.mono fun _ _ _ _ => trivial) c
  have follows : w.exec.Follows True v.exec := follows_run (onward.mono fun _ _ _ lively _ => lively)
  obtain ⟨n,_,_,fits,minted⟩ := (enrolled cpu).minted slot t found
  rcases (follows cpu').thread slot' t' later with ⟨u,there,id,ended⟩ | ⟨m,_,_,small,fresh⟩
  · obtain ⟨m,_,_,small,own⟩ := (enrolled cpu').minted slot' u there
    have processors : ThreadId.cpu (.mint cpu' m) = ThreadId.cpu (.mint cpu n) := by
      rw [← own, ← minted, id, same]
    rw [mint_cpu small, mint_cpu fits] at processors
    cases Fin.ext processors
    cases (enrolled cpu).distinct slot' slot u t there found (id.trans same)
    rw [found] at there
    cases there
    exact ⟨rfl,rfl,ended trivial exited⟩
  · have equal : ThreadId.mint cpu' m = ThreadId.mint cpu n := by rw [← fresh, ← minted, same]
    have processors := congrArg ThreadId.cpu equal
    rw [mint_cpu small, mint_cpu fits] at processors
    cases Fin.ext processors
    have := mint_injective equal
    omega

end

def killedCaller : List (MachineAction (Message .default) .default) :=
  [.exec .channelCreate, .exec (.addThread bootCpu 16 0), .exec (.addThread bootCpu 16 0), .exec (.dispatch bootCpu),
    .exec (.callUntil bootCpu ⟨0, .zero⟩ blank none 0), .exec (.leave bootCpu), .exec (.receive bootCpu ⟨0, .one⟩),
    .jobCreateRoot ⟨1⟩ ⟨8⟩, .jobAddProcess ⟨0⟩ ⟨⟨10⟩, .mint 0 1⟩ .createProcess, .jobKill bootCpu ⟨0⟩ .kill]

def firstThread (w : Machine (Message .default) .default) : Option (ThreadId × ThreadState × Bool) :=
  ((w.exec.sched bootCpu).thread 0).map fun t => (t.id, t.state, (w.exec.sched bootCpu).current = some 0)

theorem firstThread_eq_some {w : Machine (Message .default) .default} {id : ThreadId} {runs : Bool}
    (first : w.firstThread = some (id, state, runs)) :
    ∃ t, (w.exec.sched bootCpu).thread 0 = some t ∧ t.id = id ∧ t.state = state := by
  obtain ⟨t,found,same⟩ := map_eq_some_iff.mp first
  cases same
  exact ⟨t,found,rfl,rfl⟩

/-- The reply that does not hand over finds the caller ended and leaves it so. -/
theorem killed_caller_stays_exited : ∃ w v : Machine (Message .default) .default,
      Disciplined (fun _ => Lively) Step (new .new 1 0) killedCaller w ∧
      Disciplined (fun _ => Lively) Step w [.exec (.replyAndContinue bootCpu ⟨0, .one⟩ blank)] v ∧
      w.firstThread = some (.mint 0 1, .exited, false) ∧ v.firstThread = some (.mint 0 1, .exited, false) := by
  obtain ⟨w,reached,ended,v,replied,t',standing,named⟩ : ∃ w : Machine (Message .default) .default,
      Disciplined (fun _ => Lively) Step (new .new 1 0) killedCaller w ∧ w.firstThread = some (.mint 0 1, .exited, false) ∧
      ∃ v, performAll (fun _ => Lively) perform [] w [.exec (.replyAndContinue bootCpu ⟨0, .one⟩ blank)] = some v ∧
        ∃ t, (v.exec.sched bootCpu).thread 0 = some t ∧ t.id = .mint 0 1 := Disciplined.reaches (by decide +kernel)
  obtain ⟨_,found,id,exited⟩ := firstThread_eq_some ended
  have onward : Disciplined (fun _ => Lively) Step w [.exec (.replyAndContinue bootCpu ⟨0, .one⟩ blank)] v :=
    Disciplined.start.performAll replied
  obtain ⟨_,_,still,unmoved⟩ := exited_thread_stays_exited reached onward found exited bootCpu 0 t' standing (by rw [id, named])
  refine ⟨w,v,reached,onward,ended,?_⟩
  have idle : (w.exec.sched bootCpu).current ≠ some 0 := by
    have runs := congrArg (·.map (·.2.2)) ended
    simpa [firstThread, found] using runs
  simp [firstThread, standing, named, still, mt unmoved idle]

/-- A reply hands the processor to the caller that was killed, and a tick makes a
    running thread that was ended ready again. -/
theorem killed_caller_runs_again :
    (∃ w v : Machine (Message .default) .default, Run Step (new .new 1 0) killedCaller w ∧
      Run Step w [.exec (.reply bootCpu ⟨0, .one⟩ blank), .exec (.leave bootCpu)] v ∧
      w.firstThread = some (.mint 0 1, .exited, false) ∧ v.firstThread = some (.mint 0 1, .running, true)) ∧
    ∃ w v : Machine (Message .default) .default,
      Run Step (new .new 1 0) [.exec (.addThread bootCpu 16 0), .exec (.addThread bootCpu 16 0),
        .exec (.dispatch bootCpu), .sched bootCpu (.terminate 0)] w ∧ Run Step w [.sched bootCpu .onTick] v ∧
      w.firstThread = some (.mint 0 1, .exited, true) ∧ v.firstThread = some (.mint 0 1, .ready, false) := by
  constructor
  · obtain ⟨w,run,ended,v,replied,runs⟩ : ∃ w : Machine (Message .default) .default,
        Run Step (new .new 1 0) killedCaller w ∧ w.firstThread = some (.mint 0 1, .exited, false) ∧
        ∃ v, performAll (fun _ _ _ => True) perform [] w [.exec (.reply bootCpu ⟨0, .one⟩ blank), .exec (.leave bootCpu)] = some v ∧
          v.firstThread = some (.mint 0 1, .running, true) := Disciplined.reaches (by decide +kernel)
    exact ⟨w,v,run,Disciplined.start.performAll replied,ended,runs⟩
  · obtain ⟨w,run,ended,v,tick,ready⟩ : ∃ w : Machine (Message .default) .default,
        Run Step (new .new 1 0) [.exec (.addThread bootCpu 16 0), .exec (.addThread bootCpu 16 0),
          .exec (.dispatch bootCpu), .sched bootCpu (.terminate 0)] w ∧ w.firstThread = some (.mint 0 1, .exited, true) ∧
        ∃ v, performAll (fun _ _ _ => True) perform [] w [.sched bootCpu .onTick] = some v ∧
          v.firstThread = some (.mint 0 1, .ready, false) := Disciplined.reaches (by decide +kernel)
    exact ⟨w,v,run,Disciplined.start.performAll tick,ended,ready⟩

end Machine
end Tessera
