import Tessera.Exec.CallEffects

/-!
Where the threads are. Each processor mints its own identities and records the
threads that enter an operation, so a wakeup aimed at a thread inside one finds
it. An operation minds what others wait for: besides the endpoints it works on
and the threads it rouses it changes nothing but its own thread's frame.
-/
namespace Tessera
open Scheduler Option ThreadId

namespace Executive
variable {M : Type} {cfg : Config}

/-- What an operation does before it returns or parks. The endpoints it feeds or
    listens to aside, no queue begins to fill and no sleeping receiver changes. -/
structure Minds (x y : Executive M cfg) (cpu : Fin cfg.maxCpus) (fed listened : List EndpointId) : Prop where
  sched : ∀ c, (x.sched c).Rouses (y.sched c)
  residents : ∀ c s, y.residents c s = x.residents c s ∨
    c = cpu ∧ (x.sched c).current = some s ∧ (x.sched c).threadId s = some (y.residents c s)
  wakeups : ∀ c s, y.wakeups c s = x.wakeups c s ∨
    ∃ id, y.wakeups c s = some id ∧ id ≠ .unassigned ∧ (x.residents c s = id ∨ (x.sched c).threadId s = some id)
  endpoints : ∀ e ep, x.channels.endpoint? e = some ep → ∃ ep', y.channels.endpoint? e = some ep' ∧
    (e ∈ fed ∨ e ∈ listened ∨ ep'.blockedReceiver = ep.blockedReceiver ∧ (ep.queue.items = [] → ep'.queue.items = []))
  closed : ∀ e ep, x.channels.endpoint? e = some ep → ep.peerClosed = true →
    ∃ ep', y.channels.endpoint? e = some ep' ∧ ep'.peerClosed = true

variable {cpu : Fin cfg.maxCpus} {fed listened : List EndpointId} {x y : Executive M cfg} {scope : Scope M}

theorem Works.minds (works : x.Works y cpu scope) : x.Minds y cpu scope.fed scope.listened where
  sched := works.sched
  residents := works.residents
  wakeups := works.wakeups
  endpoints e ep found := by
    obtain ⟨ep',after,worked⟩ := works.endpoint found
    exact ⟨ep',after,worked.quiet⟩
  closed e ep found gone := by
    obtain ⟨ep',after,worked⟩ := works.endpoint found
    exact ⟨ep',after,worked.closed gone⟩

theorem Rouses.minds (rouses : x.Rouses y) : x.Minds y cpu fed listened :=
  (rouses.works : x.Works y cpu ⟨fed, listened, fun _ _ => False, fun _ _ => False, True⟩).minds

def Noted (x : Executive M cfg) (cpu : Fin cfg.maxCpus) : Prop :=
  ∀ slot id, (x.sched cpu).current = some slot → (x.sched cpu).threadId slot = some id → x.residents cpu slot = id

theorem noted_noteResidence (x : Executive M cfg) (cpu : Fin cfg.maxCpus) : (x.noteResidence cpu).Noted cpu := by
  intro _ _ running own
  obtain ⟨_,same⟩ := x.noteResidence_eq cpu
  have sched : (x.noteResidence cpu).sched = x.sched := by rw [same]
  rw [sched] at running own
  rw [noteResidence, running]
  dsimp only
  rw [own]
  simp

theorem Minds.noted (minds : x.Minds y cpu fed listened) (noted : x.Noted cpu) : y.Noted cpu := by
  intro slot id running own
  rw [(minds.sched cpu).current] at running
  rw [(minds.sched cpu).threadId] at own
  rcases minds.residents cpu slot with same | ⟨_,_,recorded⟩
  · rw [same]
    exact noted slot id running own
  · exact Option.some.inj (recorded.symm.trans own)

/-- An operation returns, or parks its thread. -/
inductive Operates (x : Executive M cfg) (cpu : Fin cfg.maxCpus) (fed listened : List EndpointId) :
    Executive M cfg → Prop where
  | returns {y : Executive M cfg} : x.Minds y cpu fed listened → Operates x cpu fed listened y
  | parks {y : Executive M cfg} {slot : Nat} {target : Option Nat} {wait : Wait} :
      x.Minds y cpu fed listened → (x.sched cpu).current = some slot → y.Noted cpu →
      (∀ e ∈ wait.listens, e ∈ listened ∧ ∃ ep, y.channels.endpoint? e = some ep ∧ ep.queue.items = [] ∧
        ep.blockedReceiver = (x.sched cpu).threadId slot) →
      Operates x cpu fed listened (y.onCpu cpu (·.setContext slot (.parking target wait)))

theorem Does.operates (does : y.Does cpu scope sources r) (entered : x.Works y cpu scope)
    (noted : scope.parks → y.Noted cpu) : x.Operates cpu scope.fed scope.listened r.2 := by
  cases does with
  | returns works => exact .returns (entered.trans works).minds
  | parks may works running _ registered =>
    rw [(entered.sched cpu).current] at running
    refine .parks (entered.trans works).minds running (works.minds.noted (noted may)) ?_
    rw [← (entered.sched cpu).threadId]
    exact registered

theorem operates_park (works : x.Works y cpu scope) (noted : y.Noted cpu) (deaf : wait.listens = []) :
    x.Operates cpu scope.fed scope.listened (y.park cpu target wait) := by
  unfold park
  split
  · exact .returns works.minds
  rename_i running
  rw [(works.sched cpu).current] at running
  exact .parks works.minds running noted (by simp [deaf])

theorem operates_enterCall (works : x.Works y cpu scope) (noted : y.Noted cpu) :
    x.Operates cpu scope.fed scope.listened (y.enterCall cpu caller origin txn due callee) := by
  have roused : ∀ {z : Executive M cfg} {target : Option Nat} {wait : Wait}, y.Rouses z → wait.listens = [] →
      x.Operates cpu scope.fed scope.listened (z.park cpu target wait) := by
    intro z _ _ rouses deaf
    exact operates_park (works.trans rouses.works) ((rouses.minds : y.Minds z cpu [] []).noted noted) deaf
  unfold enterCall
  split
  · exact operates_park works noted rfl
  split
  · exact roused (rouses_lend y cpu caller _) rfl
  · rename_i located
    exact roused (rouses_post located) rfl
  · exact operates_park works noted rfl

section
variable [Stamped M]

theorem operates_callUntil (x : Executive M cfg) (cpu : Fin cfg.maxCpus) (origin : EndpointId) (req : M)
    (due : Option Nat) (now : Nat) : x.Operates cpu [origin.peer] [] (x.callUntil cpu origin req due now).2 := by
  rcases x.callUntil_cases cpu origin req due now with
    ⟨_,y,refused,works⟩ | ⟨caller,destination,z,_,_,works,_,placed⟩
  · rw [refused]
    have through := (works_noteResidence x cpu).trans (works (calling origin req 0))
    exact .returns through.minds
  rw [placed]
  have noted := works.minds.noted (x.noted_noteResidence cpu)
  exact operates_enterCall ((works_noteResidence x cpu).trans works) noted

theorem operates_resumeWait (noted : x.Noted cpu) (slot : Nat) (wait : Wait)
    (now later : Nat) : x.Operates cpu [] wait.listens (x.resumeWait cpu slot wait now later).2 := by
  rcases x.resumeWait_does slot wait now later with does | ⟨_,works⟩
  · exact does.operates (.refl x) fun _ => noted
  · exact .returns works.minds

end

variable {a : ExecAction M cfg} {slot : Nat} {wait : Wait}

theorem perform_operates [Stamped M] (done : x.perform a = some (out, y)) (own : operator a = some cpu) :
    x.atEntry cpu ∧ x.Operates cpu (feeds a) (awaits a) y := by
  by_cases call : ∃ c origin req due now, a = .callUntil c origin req due now
  · obtain ⟨_,origin,req,due,now,rfl⟩ := call
    cases own
    obtain ⟨entry,_,rfl⟩ := guarded done
    exact ⟨entry,x.operates_callUntil cpu origin req due now⟩
  obtain ⟨entry,does | does⟩ := perform_does done own fun _ _ _ _ _ same => call ⟨_,_,_,_,_,same⟩
  · exact ⟨entry,does.operates (.refl x) False.elim⟩
  · exact ⟨entry,does.operates (works_noteResidence x cpu) fun _ => x.noted_noteResidence cpu⟩

/-- Identities are minted in order and held by one thread each; a record of
    residence is right, and there is one for every thread inside an operation. -/
structure Placed (x : Executive M cfg) : Prop where
  positive : ∀ c, 0 < (x.sched c).nextThreadId
  minted : ∀ c s id, (x.sched c).threadId s = some id →
    ∃ n, 0 < n ∧ n < (x.sched c).nextThreadId ∧ n < 2 ^ ThreadId.cpuShift ∧ id = .mint c n
  distinct : ∀ c s s' id, (x.sched c).threadId s = some id → (x.sched c).threadId s' = some id → s = s'
  recorded : ∀ c s, x.residents c s = .unassigned ∨ (x.sched c).threadId s = some (x.residents c s)
  entered : ∀ c s id, (x.sched c).threadId s = some id → x.frame? c s ≠ some .outside → x.residents c s = id
  leaving : ∀ c s target wait, x.frame? c s = some (.parking target wait) → (x.sched c).current = some s

theorem Placed.change (placed : x.Placed) (next : ∀ c, (x.sched c).nextThreadId ≤ (y.sched c).nextThreadId)
    (ids : ∀ c s, (y.sched c).threadId s = (x.sched c).threadId s)
    (residents : ∀ c s, y.residents c s = x.residents c s ∨ (x.sched c).threadId s = some (y.residents c s))
    (entered : ∀ c s id, (x.sched c).threadId s = some id → y.frame? c s ≠ some .outside →
      x.frame? c s ≠ some .outside ∨ y.residents c s = id)
    (leaving : ∀ c s target wait, y.frame? c s = some (.parking target wait) → (y.sched c).current = some s) :
    y.Placed where
  positive c := (placed.positive c).trans_le (next c)
  minted c s id own := by
    obtain ⟨n,positive,below,fits,same⟩ := placed.minted c s id (ids c s ▸ own)
    exact ⟨n,positive,below.trans_le (next c),fits,same⟩
  distinct c s s' id own own' := placed.distinct c s s' id (ids c s ▸ own) (ids c s' ▸ own')
  recorded c s := by
    rw [ids]
    rcases residents c s with same | own
    · rw [same]
      exact placed.recorded c s
    · exact .inr own
  entered c s id own inside := by
    rw [ids] at own
    rcases entered c s id own inside with before | noted
    · rcases residents c s with same | now
      · rw [same]
        exact placed.entered c s id own before
      · exact Option.some.inj (now.symm.trans own)
    · exact noted
  leaving := leaving

theorem Minds.frame? (minds : x.Minds y cpu fed listened) (c : Fin cfg.maxCpus)
    (s : Nat) : y.frame? c s = x.frame? c s := frame?_of_rouses minds.sched c s

theorem Placed.minds (placed : x.Placed) (minds : x.Minds y cpu fed listened) : y.Placed := by
  refine placed.change (fun c => (minds.sched c).nextThreadId.ge) (fun c => (minds.sched c).threadId)
    (fun c s => (minds.residents c s).imp_right (·.2.2)) ?_ ?_
  · intro c s _ _ inside
    exact .inl (minds.frame? c s ▸ inside)
  intro c s target wait parking
  rw [minds.frame?] at parking
  rw [(minds.sched c).current]
  exact placed.leaving c s target wait parking

theorem threadId_setContext (s : Scheduler Frame cfg) (slot other : Nat) (context : Frame) :
    (s.setContext slot context).threadId other = s.threadId other := by
  rw [threadId, setContext, thread_alter]
  split
  · rw [map_map]
    rfl
  · rfl

theorem frame?_setContext (x : Executive M cfg) (cpu c : Fin cfg.maxCpus) (slot s : Nat) (context : Frame) :
    (x.onCpu cpu (·.setContext slot context)).frame? c s =
      if c = cpu ∧ slot = s then (x.frame? c s).map fun _ => context else x.frame? c s := by
  rw [frame?_onCpu]
  by_cases here : c = cpu
  · subst here
    rw [if_pos rfl, setContext_context]
    by_cases same : slot = s
    · rw [if_pos same, if_pos ⟨rfl,same⟩, Executive.frame?, map_map]
      rfl
    · rw [if_neg same, if_neg fun both => same both.2]
      rfl
  · rw [if_neg here, if_neg fun both => here both.1]

theorem Operates.frame? (operates : x.Operates cpu fed listened y) (c : Fin cfg.maxCpus)
    (s : Nat) : y.frame? c s = x.frame? c s ∨ c = cpu ∧ (x.sched cpu).current = some s := by
  cases operates with
  | returns minds => exact .inl (minds.frame? c s)
  | parks minds running =>
    rw [frame?_setContext]
    split
    · rename_i here
      exact .inr ⟨here.1,here.2 ▸ running⟩
    · exact .inl (minds.frame? c s)

section
variable {c : Fin cfg.maxCpus} (x : Executive M cfg) (f : Scheduler Frame cfg → Scheduler Frame cfg)

theorem onCpu_sched_ne (other : c ≠ cpu) : (x.onCpu cpu f).sched c = x.sched c :=
  Function.update_of_ne other _ _

theorem onCpu_sched_self : (x.onCpu cpu f).sched cpu = f (x.sched cpu) :=
  Function.update_self ..

variable {x f}

theorem onCpu_all {P : Fin cfg.maxCpus → Scheduler Frame cfg → Prop} (own : P cpu (f (x.sched cpu)))
    (others : ∀ c, P c (x.sched c)) (c : Fin cfg.maxCpus) : P c ((x.onCpu cpu f).sched c) := by
  by_cases here : c = cpu
  · subst here
    rw [onCpu_sched_self]
    exact own
  · rw [onCpu_sched_ne x f here]
    exact others c

end

theorem Placed.setContext (placed : x.Placed)
    (running : (x.sched cpu).current = some slot) (noted : context = .outside ∨ x.Noted cpu) :
    (x.onCpu cpu (·.setContext slot context)).Placed := by
  have current : ∀ c, ((x.onCpu cpu (·.setContext slot context)).sched c).current = (x.sched c).current :=
    onCpu_all (P := fun c s => s.current = (x.sched c).current) rfl fun _ => rfl
  refine placed.change (onCpu_all (P := fun c s => (x.sched c).nextThreadId ≤ s.nextThreadId) le_rfl fun _ => le_rfl)
    (onCpu_all (P := fun c s => ∀ i, s.threadId i = (x.sched c).threadId i) (threadId_setContext _ slot · context)
      fun _ _ => rfl) (fun _ _ => .inl rfl) ?_ ?_
  · intro c s id own inside
    rw [frame?_setContext] at inside
    split at inside
    · rename_i here
      obtain ⟨rfl,rfl⟩ := here
      refine .inr ?_
      rcases noted with rfl | noted
      · obtain ⟨_,found,_⟩ := map_eq_some_iff.mp own
        exact absurd (by simp [Executive.frame?, found]) inside
      · exact noted slot id running own
    · exact .inl inside
  · intro c s target wait parking
    rw [current]
    rw [frame?_setContext] at parking
    split at parking
    · rename_i here
      obtain ⟨rfl,rfl⟩ := here
      exact running
    · exact placed.leaving c s target wait parking

theorem Placed.noted_resumed (placed : x.Placed)
    (running : (x.sched cpu).current = some slot) (parked : x.frame? cpu slot = some (.parked wait)) :
    (x.onCpu cpu (·.setContext slot .outside)).Noted cpu := by
  intro _ id current held
  simp only [onCpu, Function.update_self, threadId_setContext] at current held
  cases running.symm.trans current
  exact placed.entered cpu slot id held (by simp [parked])

theorem Placed.operates (placed : x.Placed) (operates : x.Operates cpu fed listened y) : y.Placed := by
  cases operates with
  | returns minds => exact placed.minds minds
  | parks minds running noted =>
    exact (placed.minds minds).setContext ((minds.sched cpu).current.trans running) (.inr noted)

/-- The thread of a processor is gone from it: it is blocked where it parked, and
    the next one, which is the target if there was one, runs. -/
structure Departs (x y : Executive M cfg) (cpu : Fin cfg.maxCpus) (slot : Nat) (target : Option Nat)
    (wait : Wait) (next : Option Nat) : Prop where
  running : (x.sched cpu).current = some slot
  parking : x.frame? cpu slot = some (.parking target wait)
  handed : target.isSome → next = target
  switched : y = x.onCpu cpu fun _ => y.sched cpu
  current : (y.sched cpu).current = next
  nextThreadId : (y.sched cpu).nextThreadId = (x.sched cpu).nextThreadId
  thread : ∀ s, (y.sched cpu).thread s = ((x.sched cpu).thread s).map fun t =>
    { t with
      context := if slot = s then .parked wait else t.context
      state := if next = some s then .running else if slot = s then .blocked else t.state }

theorem leave_eq_some (done : (x.leave cpu).map (fun y => (o, y)) = some (out, y)) :
    ∃ slot target wait next, x.Departs y cpu slot target wait next := by
  obtain ⟨_,left,same⟩ := map_eq_some_iff.mp done
  cases same
  -- both ways out are a stop of the current thread and a switch to the next
  have stopped : ∀ (slot : Nat) (wait : Wait) (s : Scheduler Frame cfg) (next : Option Nat) (other : Nat),
      (x.sched cpu).current = some slot →
      (∀ place, s.thread place = ((x.sched cpu).setContext slot (.parked wait)).stopCurrent.thread place) →
      (s.switchTo next).thread other = ((x.sched cpu).thread other).map fun t =>
        { t with
          context := if slot = other then .parked wait else t.context
          state := if next = some other then .running else if slot = other then .blocked else t.state } := by
    intro slot wait s next other running same
    have current : ((x.sched cpu).setContext slot (.parked wait)).current = some slot := running
    rw [switchTo_thread, same, stopCurrent_thread, current, setContext, thread_alter]
    cases (x.sched cpu).thread other with
    | none => simp
    | some => by_cases here : slot = other <;> by_cases chosen : next = some other <;> simp [here, chosen]
  unfold leave at left
  split at left
  · cases left
  rename_i slot running
  split at left
  · rename_i wait parking
    cases left
    refine ⟨slot,none,wait,((x.sched cpu).setContext slot (.parked wait)).stopCurrent.popReady.1,
      running,parking,by simp,by simp [onCpu],?_,?_,?_⟩ <;> simp only [onCpu, Function.update_self]
    · exact switchTo_current _ _
    · simp only [blockCurrent, switchTo_nextThreadId, popReady_nextThreadId, stopCurrent_nextThreadId]
      rfl
    · exact fun s => stopped slot wait _ _ s running (popReady_thread _)
  · rename_i target wait parking
    cases left
    refine ⟨slot,some target,wait,some target,running,parking,fun _ => rfl,by simp [onCpu],?_,?_,?_⟩ <;>
      simp only [onCpu, Function.update_self, handoffTo]
    · exact switchTo_current _ _
    · simp only [switchTo_nextThreadId, stopCurrent_nextThreadId]
      rfl
    · exact fun s => stopped slot wait _ _ s running fun _ => rfl
  · cases left

variable {target next : Option Nat} {c : Fin cfg.maxCpus}

section
variable (departs : x.Departs y cpu slot target wait next)
include departs

theorem Departs.sched (other : c ≠ cpu) : y.sched c = x.sched c := by
  rw [departs.switched]
  simp [onCpu, Function.update_of_ne other]

theorem Departs.frame? (c : Fin cfg.maxCpus) (s : Nat) :
    y.frame? c s = if c = cpu ∧ slot = s then some (.parked wait) else x.frame? c s := by
  by_cases here : c = cpu
  · subst here
    rw [Executive.frame?, departs.thread, map_map]
    by_cases same : slot = s
    · subst same
      have parking := departs.parking
      obtain ⟨_,found,_⟩ := map_eq_some_iff.mp parking
      simp [found]
    · simp only [same]
      rfl
  · rw [if_neg fun both => here both.1, Executive.frame?, departs.sched here]
    rfl

theorem Departs.threadId (c : Fin cfg.maxCpus) (s : Nat) : (y.sched c).threadId s = (x.sched c).threadId s := by
  by_cases here : c = cpu
  · subst here
    rw [Scheduler.threadId, departs.thread, map_map]
    rfl
  · rw [departs.sched here]

end

section
variable (placed : x.Placed)
include placed

theorem Placed.departs (departs : x.Departs y cpu slot target wait next) : y.Placed := by
  refine placed.change ?_ departs.threadId ?_ ?_ ?_
  · intro c
    by_cases here : c = cpu
    · subst here
      exact departs.nextThreadId.ge
    · rw [departs.sched here]
  · intro c s
    rw [departs.switched]
    exact .inl rfl
  · intro c s _ _ inside
    rw [departs.frame?] at inside
    split at inside
    · rename_i here
      obtain ⟨rfl,rfl⟩ := here
      exact .inl (by simp [departs.parking])
    · exact .inl inside
  · intro c s other wait' leaves
    rw [departs.frame?] at leaves
    split at leaves
    · cases leaves
    rename_i apart
    have running := placed.leaving c s other wait' leaves
    have elsewhere : c ≠ cpu := by
      rintro rfl
      exact apart ⟨rfl,Option.some.inj (departs.running.symm.trans running)⟩
    rw [departs.sched elsewhere]
    exact running

theorem Placed.onCpu (next : (x.sched cpu).nextThreadId ≤ (f (x.sched cpu)).nextThreadId)
    (ids : ∀ s, (f (x.sched cpu)).threadId s = (x.sched cpu).threadId s)
    (contexts : ∀ s, ((f (x.sched cpu)).thread s).map (·.context) = x.frame? cpu s)
    (current : (x.sched cpu).current.isSome → (f (x.sched cpu)).current = (x.sched cpu).current) :
    (x.onCpu cpu f).Placed := by
  have frames : ∀ c s, (x.onCpu cpu f).frame? c s = x.frame? c s := by
    intro c s
    rw [frame?_onCpu]
    split
    · rename_i here
      rw [here, contexts]
    · rfl
  refine placed.change (onCpu_all (P := fun c s => (x.sched c).nextThreadId ≤ s.nextThreadId) next fun _ => le_rfl)
    (onCpu_all (P := fun c s => ∀ i, s.threadId i = (x.sched c).threadId i) ids fun _ _ => rfl) (fun _ _ => .inl rfl) ?_ ?_
  · intro c s _ _ inside
    exact .inl (frames c s ▸ inside)
  · intro c s target wait parking
    have running := placed.leaving c s target wait (frames c s ▸ parking)
    by_cases here : c = cpu
    · subst here
      rw [onCpu_sched_self, current (by simp [running]), running]
    · rw [onCpu_sched_ne x f here, running]

theorem Placed.dispatch (idle : (x.sched cpu).current = none) : (x.onCpu cpu (·.run)).Placed := by
  obtain ⟨_,next,thread⟩ := run_thread idle
  refine placed.onCpu next.ge ?_ ((x.sched cpu).run_context ·) (by simp [idle])
  intro _
  rw [threadId, thread, map_map]
  rfl

theorem Placed.rouses (rouses : x.Rouses y) : y.Placed := by
  refine placed.change (fun c => (rouses.sched c).nextThreadId.ge) (fun c => (rouses.sched c).threadId)
    (fun c s => .inl (by rw [rouses.residents])) ?_ ?_
  · intro c s _ _ inside
    exact .inl (rouses.frame? c s ▸ inside)
  · intro c s target wait parking
    rw [(rouses.sched c).current]
    exact placed.leaving c s target wait (rouses.frame? c s ▸ parking)

theorem Placed.drain : (x.drain cpu).Placed := by
  have taken : (x.onCpu cpu (takeWakeups · (x.wakeups cpu) (List.range cfg.maxThreads))).Placed :=
    placed.rouses (x.rouses_onCpu cpu (rouses_takeWakeups _ _ _))
  exact ⟨taken.positive,taken.minted,taken.distinct,taken.recorded,taken.entered,taken.leaving⟩

theorem Placed.addThread (priority correlation : Nat) :
    (x.onCpu cpu fun s => (s.addThread cpu (spawned priority) correlation).2).Placed := by
  obtain ⟨current,⟨later,_,thread⟩ | ⟨slot,free,fits,next,_,thread⟩⟩ :=
    (x.sched cpu).addThread_cases cpu (spawned priority) correlation
  · refine placed.onCpu later ?_ ?_ fun _ => current
    · intro s
      rw [threadId, thread]
      rfl
    · intro s
      rw [thread]
      rfl
  · have own : ∀ s, ((x.sched cpu).addThread cpu (spawned priority) correlation).2.threadId s =
        if slot = s then some (.mint cpu (x.sched cpu).nextThreadId) else (x.sched cpu).threadId s := by
      intro s
      rw [threadId, thread]
      split <;> rfl
    have frames : ∀ c s, (x.onCpu cpu fun s => (s.addThread cpu (spawned priority) correlation).2).frame? c s =
        if c = cpu ∧ slot = s then some .outside else x.frame? c s := by
      intro c s
      rw [frame?_onCpu]
      by_cases here : c = cpu
      · rw [thread]
        by_cases same : slot = s
        · simp [here, same, spawned]
        · simp [here, same, Executive.frame?]
      · simp [here]
    have unheld : (x.sched cpu).threadId slot = none := by simp [threadId, free]
    -- an identity held before was minted earlier, so it is not the new one
    have older : ∀ s, (x.sched cpu).threadId s ≠ some (.mint cpu (x.sched cpu).nextThreadId) := by
      intro s held
      obtain ⟨n,_,below,_,same⟩ := placed.minted cpu s _ held
      rw [mint_injective same] at below
      exact absurd below (lt_irrefl _)
    refine ⟨onCpu_all (P := fun _ s => 0 < s.nextThreadId) (by rw [next]; omega) placed.positive,
      onCpu_all (P := fun c s => ∀ i id, s.threadId i = some id → ∃ n, 0 < n ∧ n < s.nextThreadId ∧
        n < 2 ^ ThreadId.cpuShift ∧ id = .mint c n) (fun s id held => ?_) placed.minted,
      onCpu_all (P := fun _ s => ∀ i j id, s.threadId i = some id → s.threadId j = some id → i = j)
        (fun s s' id held held' => ?_) placed.distinct,
      onCpu_all (P := fun c s => ∀ i, x.residents c i = .unassigned ∨ s.threadId i = some (x.residents c i))
        (fun s => ?_) placed.recorded,fun c s id held inside => ?_,fun c s target wait parking => ?_⟩
    · rw [own] at held
      rw [next]
      split at held
      · cases held
        exact ⟨_,placed.positive cpu,Nat.lt_succ_self _,fits,rfl⟩
      · obtain ⟨n,positive,_,fits,same⟩ := placed.minted cpu s id held
        exact ⟨n,positive,by omega,fits,same⟩
    · rw [own] at held held'
      split at held
      · split at held'
        · omega
        · cases held
          exact absurd held' (older s')
      split at held'
      · cases held'
        exact absurd held (older s)
      · exact placed.distinct cpu s s' id held held'
    · rw [own]
      rcases placed.recorded cpu s with none | held
      · exact .inl none
      refine .inr ?_
      rw [if_neg]
      · exact held
      · rintro rfl
        cases unheld.symm.trans held
    · rw [frames] at inside
      split at inside
      · exact absurd rfl inside
      rename_i apart
      by_cases here : c = cpu
      · subst here
        rw [onCpu_sched_self, own, if_neg fun same => apart ⟨rfl,same⟩] at held
        exact placed.entered c s id held inside
      · rw [onCpu_sched_ne _ _ here] at held
        exact placed.entered c s id held inside
    · rw [frames] at parking
      split at parking
      · cases parking
      rw [← placed.leaving c s target wait parking]
      exact onCpu_all (P := fun c s => s.current = (x.sched c).current) current (fun _ => rfl) c

theorem Placed.indexOf {id : ThreadId}
    (held : (x.sched c).threadId s = some id) : (x.sched c).indexOf id = some s := by
  obtain ⟨_,positive,_,_,minted⟩ := placed.minted c s id held
  obtain ⟨t,found,same⟩ := map_eq_some_iff.mp held
  rw [Scheduler.indexOf, if_neg (minted ▸ mint_ne_unassigned positive)]
  cases search : (x.sched c).threads.index? (·.id = id) with
  | none =>
    have missed := Slots.index?_eq_none.mp search s t found
    simp [same] at missed
  | some s' =>
    obtain ⟨_,found',matched⟩ := Slots.index?_eq_some search
    have held' : (x.sched c).threadId s' = some id := by
      simpa [threadId, thread, found'] using matched
    rw [placed.distinct c s s' id held held']

theorem Placed.indexOf_other {id : ThreadId} (held : (x.sched c).threadId s = some id) (other : c ≠ cpu) :
    (x.sched cpu).indexOf id = none := by
  obtain ⟨n,positive,_,fits,minted⟩ := placed.minted c s id held
  rw [Scheduler.indexOf, if_neg (minted ▸ mint_ne_unassigned positive), Slots.index?_eq_none]
  intro s' t found
  obtain ⟨n',_,_,fits',minted'⟩ := placed.minted cpu s' t.id (by simp [threadId, thread, found])
  simp only [decide_eq_false_iff_not]
  intro same
  have cpus : (ThreadId.mint c n).cpu = (ThreadId.mint cpu n').cpu := by rw [← minted, ← minted', same]
  rw [mint_cpu fits, mint_cpu fits'] at cpus
  exact other (Fin.ext cpus)

theorem Placed.locateThread
    {id : ThreadId} (held : (x.sched c).threadId s = some id) (recorded : x.residents c s = id)
    (cpu : Fin cfg.maxCpus) : x.locateThread cpu id = if c = cpu then .here s else .elsewhere c s := by
  by_cases here : c = cpu
  · subst here
    rw [Executive.locateThread, placed.indexOf held, if_pos rfl]
  obtain ⟨_,positive,_,fits,minted⟩ := placed.minted c s id held
  have home : id.cpu = c := by rw [minted, mint_cpu fits]
  have assigned : id ≠ .unassigned := minted ▸ mint_ne_unassigned positive
  have search : (List.range cfg.maxThreads).find? (x.residents c · = id) = some s := by
    cases first : (List.range cfg.maxThreads).find? (x.residents c · = id) with
    | none =>
      have missed := List.find?_eq_none.mp first s (List.mem_range.mpr (threadId_lt held))
      simp [recorded] at missed
    | some s' =>
      have matched : x.residents c s' = id := by simpa using List.find?_some first
      rcases placed.recorded c s' with none | held'
      · exact absurd (matched.symm.trans none) assigned
      · rw [placed.distinct c s s' id held (matched ▸ held')]
  have found : x.locateResident id = some (c, s) := by
    rw [locateResident, if_neg assigned, dif_pos (home ▸ c.isLt)]
    simp only [show (⟨id.cpu, home ▸ c.isLt⟩ : Fin cfg.maxCpus) = c from Fin.ext home]
    rw [search]
    rfl
  rw [Executive.locateThread, placed.indexOf_other held here, found]
  simp [here]

end

section
variable [Stamped M]

theorem Placed.perform (placed : x.Placed) (done : x.perform a = some (out, y)) : y.Placed := by
  cases own : operator a with
  | some => exact placed.operates (perform_operates done own).2
  | none =>
    cases a with first | cases done | obtain ⟨idle,_,rfl⟩ := guarded done | skip
    | channelCreate | channelCreateWithObjects =>
      exact ⟨placed.positive,placed.minted,placed.distinct,placed.recorded,placed.entered,placed.leaving⟩
    | addThread cpu priority correlation => exact placed.addThread priority correlation
    | leave =>
      obtain ⟨slot,_,wait,_,departs⟩ := leave_eq_some done
      exact placed.departs departs
    | resume cpu now later =>
      obtain ⟨slot,wait,running,parked,went⟩ := resume_eq_some done
      have operates := operates_resumeWait (placed.noted_resumed running parked) slot wait now later
      rw [went] at operates
      exact (placed.setContext running (.inl rfl)).operates operates
    | dispatch => exact placed.dispatch idle
    | drain => exact placed.drain
    | expire cpu now => exact placed.rouses (x.rouses_expireTimedOutWaits cpu now)
    | _ => cases own

def Step (x : Executive M cfg) (a : ExecAction M cfg) (y : Executive M cfg) : Prop :=
  (x.perform a).map (·.2) = some y

theorem Step.performed (step : x.Step a y) : ∃ out, x.perform a = some (out, y) := by
  obtain ⟨⟨out,_⟩,done,rfl⟩ := map_eq_some_iff.mp step
  exact ⟨out,done⟩

end

theorem placed_new (ports : PortTable cfg) : (new ports : Executive M cfg).Placed := by
  refine ⟨fun _ => Nat.one_pos,?_,?_,fun _ _ => .inl rfl,?_,?_⟩ <;>
  · simp [new, Scheduler.new, threadId, Scheduler.thread, Executive.frame?]

end Executive
end Tessera
