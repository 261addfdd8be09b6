import Tessera.Exec.Wakeups

/-!
What closing an endpoint does for the threads that wait at its peer. The close
wakes one of them, the registered receiver or else the pending caller. The flag
it raises stays up, so whoever waits there and runs again returns; only a wait
on several endpoints goes on for the others.
-/
namespace Tessera
open Option Scheduler
namespace Executive
variable {M : Type} {cfg : Config} {cpu : Fin cfg.maxCpus} {fed listened : List EndpointId}
open Transition

def Keeps (x y : Executive M cfg) : Prop :=
  ∀ e ep, x.channels.endpoint? e = some ep → ∃ ep', y.channels.endpoint? e = some ep' ∧
    (ep.peerClosed = true → ep'.peerClosed = true)

variable {x y : Executive M cfg} {t : ChannelTable M cfg} {index live : Nat} {endpoints : List EndpointId}

theorem Keeps.of_channels (same : y.channels = x.channels) : x.Keeps y :=
  fun _ ep found => ⟨ep,same ▸ found,id⟩

theorem Minds.keeps (minds : x.Minds y cpu fed listened) : x.Keeps y := by
  intro e ep found
  obtain ⟨ep',after,_⟩ := minds.endpoints e ep found
  refine ⟨ep',after,?_⟩
  intro gone
  obtain ⟨_,again,still⟩ := minds.closed e ep found gone
  cases after.symm.trans again
  exact still

theorem Operates.keeps (operates : x.Operates cpu fed listened y) : x.Keeps y := by
  cases operates with
  | returns minds | parks minds => exact minds.keeps

theorem wakeThread_wakes (placed : x.Placed) {id : ThreadId}
    (held : (x.sched c).threadId s = some id) (recorded : x.residents c s = id)
    (here : c = cpu → (x.sched c).threadState s = some .blocked ∧ (x.sched c).ready.items.length < cfg.maxThreads) :
    ((x.wakeThread cpu id).sched c).threadState s = some .ready ∨ (x.wakeThread cpu id).wakeups c s = some id := by
  rw [wakeThread, placed.locateThread held recorded]
  by_cases same : c = cpu
  · subst same
    obtain ⟨blocked,room⟩ := here rfl
    obtain ⟨_,found,state⟩ := map_eq_some_iff.mp blocked
    refine .inl ?_
    rw [if_pos rfl]
    rw [onCpu_sched_self]
    obtain ⟨_,found',roused⟩ := ((x.sched c).rouses_unblock s).some_thread found
    rcases roused.state with same | ⟨_,ready⟩
    · refine absurd ?_ (unblock_awake room s)
      rw [threadState, found', map_some, same, state]
    · rw [threadState, found', map_some, ready]
  · rw [if_neg same]
    dsimp only
    rw [post, if_neg (Nat.not_le.mpr (threadId_lt held))]
    simp

theorem scan_live (quiet : scan t index live endpoints = .quiet live') (more : live < live') :
    ∃ e ∈ endpoints, ∃ ep, t.endpoint? e = some ep ∧ ep.peerClosed = false := by
  induction endpoints generalizing index live with
  | nil =>
    cases quiet
    exact absurd more (lt_irrefl _)
  | cons first rest ih =>
    rw [scan] at quiet
    split at quiet
    · cases quiet
    rename_i endpoint found
    split at quiet
    · cases quiet
    by_cases gone : endpoint.peerClosed = true
    · rw [if_pos gone] at quiet
      obtain ⟨e,mem,rest⟩ := ih quiet more
      exact ⟨e,List.mem_cons_of_mem _ mem,rest⟩
    · exact ⟨first,List.mem_cons_self,endpoint,found,by simpa using gone⟩

theorem scan_missing (missing : scan t index live endpoints = .missing) : ∃ e ∈ endpoints, t.endpoint? e = none := by
  induction endpoints generalizing index live with
  | nil => cases missing
  | cons first rest ih =>
    rw [scan] at missing
    split at missing
    · rename_i none
      exact ⟨first,List.mem_cons_self,none⟩
    split at missing
    · cases missing
    · obtain ⟨e,mem,none⟩ := ih missing
      exact ⟨e,List.mem_cons_of_mem _ mem,none⟩

theorem closeEndpoint_eq_done (done : x.closeEndpoint cpu e = (.done, y)) :
    ∃ ep, x.channels.endpoint? e.peer = some ep ∧ (x.alterEndpoint e.peer (·.markPeerClosed)).wakeIfAny cpu
      (ep.blockedReceiver.or (ep.pendingCaller.map (·.1))) = y := by
  unfold closeEndpoint at done
  split at done
  · cases done
  · rename_i ep found
    exact ⟨ep,found,(Prod.mk.inj done).2⟩

section
variable [Stamped M]
variable {x y : Executive M cfg} {outcome : Outcome M} {history : List (ExecAction M cfg)} {e : EndpointId}
  {ep : Endpoint M cfg} {wait : Wait} {deadline : Option Nat} {now : Nat}

theorem perform_keeps (placed : x.Placed) (done : x.perform a = some (outcome, y)) : x.Keeps y := by
  cases own : operator a with
  | some => exact (perform_operates done own).2.keeps
  | none =>
    cases a with
    | channelCreate =>
      cases done
      exact fun _ ep found => ⟨ep,ChannelTable.endpoint?_create_of_some found,id⟩
    | channelCreateWithObjects =>
      cases done
      exact fun _ ep found => ⟨ep,ChannelTable.endpoint?_createWithObjects_of_some found,id⟩
    | addThread | dispatch | drain =>
      obtain ⟨_,_,rfl⟩ := guarded done
      exact .of_channels rfl
    | leave =>
      obtain ⟨slot,_,wait,_,departs⟩ := leave_eq_some done
      refine .of_channels ?_
      rw [departs.switched]
      rfl
    | resume cpu now later =>
      obtain ⟨slot,wait,running,parked,went⟩ := resume_eq_some done
      have operates := operates_resumeWait (placed.noted_resumed running parked) slot wait now later
      rw [went] at operates
      exact operates.keeps
    | expire cpu now =>
      obtain ⟨_,_,rfl⟩ := guarded done
      exact .of_channels (x.rouses_expireTimedOutWaits cpu now).channels
    | _ => cases own

theorem placed_run {ports : PortTable cfg} (run : Run Step (new ports) history x) : x.Placed := by
  refine run.invariant Placed ?_ (placed_new ports)
  intro _ _ _ placed step
  obtain ⟨_,done⟩ := step.performed
  exact placed.perform done

theorem closed_run (placed : x.Placed) (run : Run Step x history y) (found : x.channels.endpoint? e = some ep)
    (gone : ep.peerClosed = true) : ∃ ep', y.channels.endpoint? e = some ep' ∧ ep'.peerClosed = true := by
  have kept : y.Placed ∧ ∃ ep', y.channels.endpoint? e = some ep' ∧ ep'.peerClosed = true := by
    refine run.invariant (fun y : Executive M cfg => y.Placed ∧ ∃ ep', y.channels.endpoint? e = some ep' ∧ ep'.peerClosed = true) ?_
      ⟨placed,ep,found,gone⟩
    rintro _ _ after ⟨placed,ep,found,gone⟩ step
    obtain ⟨_,done⟩ := step.performed
    obtain ⟨ep',after,still⟩ := perform_keeps placed done e ep found
    exact ⟨placed.perform done,ep',after,still gone⟩
  exact kept.2

theorem awaitMessage_closed (found : x.channels.endpoint? on = some ep) (gone : ep.peerClosed = true) :
    (∃ m, (x.awaitMessage cpu on caller wait).1 = .received m) ∨
      (x.awaitMessage cpu on caller wait).1 = .failed .peerClosed := by
  unfold awaitMessage
  rw [found]
  dsimp only
  split
  · exact .inl ⟨_,rfl⟩
  · rw [if_pos gone]
    exact .inr rfl

theorem resumeCall_returns (found : x.channels.endpoint? origin = some ep) :
    (∃ m, (x.resumeCall cpu caller origin txn deadline callee now).1 = .replied m) ∨
      (x.resumeCall cpu caller origin txn deadline callee now).1 ∈
        [.failed .timedOut, .failed .peerClosed, .failed .protocol] := by
  have back : (((x.changeDepth cpu caller (· - 1)).setCurrentDeadline cpu none).giveBack cpu callee).channels =
      x.channels :=
    ((rouses_changeDepth x cpu caller _).trans
      ((rouses_setCurrentDeadline _ cpu none).trans (rouses_giveBack _ cpu callee))).channels
  unfold resumeCall
  split
  · exact .inr (by simp)
  unfold finishCall
  rw [back, found]
  dsimp only
  split
  · exact .inl ⟨_,rfl⟩
  split
  · exact .inr (by simp)
  · refine .inr ?_
    split <;> simp

theorem awaitAny_goes_on (held : (x.sched cpu).currentId.isSome) :
    (∃ index m, (x.awaitAny cpu endpoints deadline now).1 = .receivedAny index m) ∨
      (x.awaitAny cpu endpoints deadline now).1 ∈ [.failed .peerClosed, .failed .timedOut] ∨
      (x.awaitAny cpu endpoints deadline now).1 = .failed .badHandle ∧
        (∃ e ∈ endpoints, x.channels.endpoint? e = none) ∨ (x.awaitAny cpu endpoints deadline now).1 = .parked ∧
        ∃ e ∈ endpoints, ∃ ep, x.channels.endpoint? e = some ep ∧ ep.peerClosed = false := by
  unfold awaitAny
  split
  · rename_i missing
    exact .inr (.inr (.inl ⟨rfl,scan_missing missing⟩))
  · exact .inl ⟨_,_,rfl⟩
  · exact .inr (.inl (by simp))
  rename_i quiet
  split
  · exact .inr (.inl (by simp))
  split
  · rename_i none
    simp [none] at held
  · exact .inr (.inr (.inr ⟨rfl,scan_live quiet (Nat.succ_pos _)⟩))

structure Released (x : Executive M cfg) (e : EndpointId) (wait : Wait) (outcome : Outcome M) : Prop where
  receives : wait = .receive e ∨ wait = .replyReceive e → (∃ m, outcome = .received m) ∨ outcome = .failed .peerClosed
  calls : ∀ txn deadline callee, wait = .call e txn deadline callee →
    (∃ m, outcome = .replied m) ∨ outcome ∈ [.failed .timedOut, .failed .peerClosed, .failed .protocol]
  receivesAny : ∀ endpoints deadline, wait = .receiveAny endpoints deadline → e ∈ endpoints →
    (∃ index m, outcome = .receivedAny index m) ∨ outcome ∈ [.failed .peerClosed, .failed .timedOut] ∨
      outcome = .failed .badHandle ∧ (∃ other ∈ endpoints, x.channels.endpoint? other = none) ∨
      outcome = .parked ∧ ∃ other ∈ endpoints, ∃ ep, x.channels.endpoint? other = some ep ∧ ep.peerClosed = false

theorem released_of_closed (found : x.channels.endpoint? e = some ep)
    (gone : ep.peerClosed = true) (done : x.perform (.resume cpu now later) = some (outcome, y))
    (running : (x.sched cpu).current = some slot) (parked : x.frame? cpu slot = some (.parked wait)) :
    x.Released e wait outcome := by
  obtain ⟨_,_,running',parked',went⟩ := resume_eq_some done
  cases running.symm.trans running'
  cases parked.symm.trans parked'
  have first : ((x.onCpu cpu (·.setContext slot .outside)).resumeWait cpu slot wait now later).1 = outcome := by
    rw [went]
  refine ⟨?_,?_,?_⟩
  · rintro (rfl | rfl) <;>
    · rw [← first]
      exact awaitMessage_closed found gone
  · rintro _ _ _ rfl
    rw [← first]
    exact resumeCall_returns found
  rintro endpoints _ rfl _
  rw [← first, resumeWait, resumeAny]
  split
  · exact .inr (.inl (by simp))
  have rest : (x.onCpu cpu (·.setContext slot .outside)).Minds
      (((x.onCpu cpu (·.setContext slot .outside)).setReceivers endpoints none).setCurrentDeadline cpu none)
      cpu [] endpoints :=
    ((works_setReceivers _ none fun _ => id : Works _ _ cpu (.waiting M endpoints)).trans
      (rouses_setCurrentDeadline _ cpu none).works).minds
  have held : ((((x.onCpu cpu (·.setContext slot .outside)).setReceivers endpoints none).setCurrentDeadline cpu
      none).sched cpu).currentId.isSome := by
    rw [currentId, (rest.sched cpu).current, onCpu_sched_self]
    obtain ⟨_,thread,_⟩ := map_eq_some_iff.mp parked
    rw [show ((x.sched cpu).setContext slot .outside).current = some slot from running, bind_some,
      (rest.sched cpu).threadId, onCpu_sched_self, threadId_setContext, threadId, thread]
    rfl
  rcases awaitAny_goes_on held with received | failed | ⟨bad,e',member',none⟩ | ⟨parks,e',member',ep',found',open'⟩
  · exact .inl received
  · exact .inr (.inl failed)
  · refine .inr (.inr (.inl ⟨bad,e',member',?_⟩))
    cases before : x.channels.endpoint? e' with
    | none => rfl
    | some ep' =>
      obtain ⟨_,after,_⟩ := rest.endpoints e' ep' before
      cases none.symm.trans after
  · refine .inr (.inr (.inr ⟨parks,e',member',?_⟩))
    rw [(rouses_setCurrentDeadline _ cpu none).channels] at found'
    obtain ⟨old,before,_⟩ := setReceivers_queue found'
    refine ⟨old,before,?_⟩
    rw [Bool.eq_false_iff]
    intro still
    obtain ⟨_,after,closed⟩ := rest.closed e' old before still
    rw [(rouses_setCurrentDeadline _ cpu none).channels, found'] at after
    cases after
    rw [open'] at closed
    cases closed

/-- Closing an endpoint wakes the receiver registered at its peer, or the pending
    caller where none is, if that thread sleeps in an operation; and from then on
    whoever waits at the peer and runs again is released. -/
theorem close_releases_waiter {ports : PortTable cfg} {history : List (ExecAction M cfg)} {x y : Executive M cfg}
    {e : EndpointId} (run : Run Step (new ports) history x)
    (closed : x.perform (.closeEndpoint cpu e) = some (.done, y)) :
    (∀ ep c s t, x.channels.endpoint? e.peer = some ep → (x.sched c).thread s = some t →
      ep.blockedReceiver.or (ep.pendingCaller.map (·.1)) = some t.id → t.asleep →
      (c = cpu → (x.sched cpu).ready.items.length < cfg.maxThreads) →
      (y.sched c).threadState s = some .ready ∨ y.wakeups c s = some t.id) ∧
    ∀ later z, Run Step y later z → ∀ c now now' slot wait outcome z',
      z.perform (.resume c now now') = some (outcome, z') → (z.sched c).current = some slot →
      z.frame? c slot = some (.parked wait) → z.Released e.peer wait outcome := by
  have placed := placed_run run
  obtain ⟨entry,finished,same⟩ := guarded closed
  obtain ⟨ep,found,rfl⟩ := closeEndpoint_eq_done (Prod.ext finished same)
  have works : x.Works (x.alterEndpoint e.peer (·.markPeerClosed)) cpu (.waiting M []) :=
    works_alterEndpoint x fun _ _ => ⟨fun _ => rfl,fun _ => .inr,fun _ => .inr,.inr (.inr ⟨rfl,id⟩)⟩
  have marks := works.minds
  constructor
  · intro _ c s t found' thread chosen asleep room
    cases found.symm.trans found'
    rw [chosen]
    have held : (x.sched c).threadId s = some t.id := by
      rw [threadId, thread]
      rfl
    refine wakeThread_wakes (placed.minds marks) held (placed.entered c s t.id held (asleep_inside thread asleep)) ?_
    rintro rfl
    refine ⟨?_,room rfl⟩
    have blocked := asleep_blocked placed entry thread asleep
    change ((x.sched c).thread s).map (·.state) = some .blocked
    rw [thread, map_some, blocked]
  · intro _ _ onward _ _ _ _ _ _ _ done running parked
    have raised : (x.alterEndpoint e.peer (·.markPeerClosed)).channels.endpoint? e.peer = some ep.markPeerClosed := by
      rw [endpoint?_alterEndpoint, if_pos rfl, found]
      rfl
    have wakes := rouses_wakeIfAny (x.alterEndpoint e.peer (·.markPeerClosed)) cpu
      (ep.blockedReceiver.or (ep.pendingCaller.map (·.1)))
    rw [← wakes.channels] at raised
    obtain ⟨_,there,gone⟩ := closed_run ((placed.minds marks).rouses wakes) onward raised rfl
    exact released_of_closed there gone done running parked

def clientWaits : List (ExecAction (Message .default) .default) :=
  [.channelCreate, .addThread bootCpu 16 0, .addThread bootCpu 16 0, .dispatch bootCpu,
    .callUntil bootCpu ⟨0, .zero⟩ blank none 0, .leave bootCpu]

theorem close_releases_the_caller :
    ∃ x y : Executive (Message .default) .default, ∃ t, Run Step (new .new) clientWaits x ∧
      (x.sched bootCpu).thread 0 = some t ∧ t.context = .parked (.call ⟨0, .zero⟩ 1 none none) ∧ t.state = .blocked ∧
      x.perform (.closeEndpoint bootCpu ⟨0, .one⟩) = some (.done, y) ∧
      ((y.sched bootCpu).threadState 0 = some .ready ∨ y.wakeups bootCpu 0 = some t.id) := by
  obtain ⟨x,run,⟨t,thread,parked,blocked⟩,⟨ep,found,chosen⟩,room,⟨_,y⟩,closed,rfl⟩ :
      ∃ x : Executive (Message .default) .default, Run Step (new .new) clientWaits x ∧
      (∃ t, (x.sched bootCpu).thread 0 = some t ∧ t.context = .parked (.call ⟨0, .zero⟩ 1 none none) ∧ t.state = .blocked) ∧
      (∃ ep, x.channels.endpoint? ⟨0, .zero⟩ = some ep ∧
        ep.blockedReceiver.or (ep.pendingCaller.map (·.1)) = (x.sched bootCpu).threadId 0) ∧
      (x.sched bootCpu).ready.items.length < 16 ∧
      ∃ went, x.perform (.closeEndpoint bootCpu ⟨0, .one⟩) = some went ∧ went.1 = .done := Disciplined.reaches (by decide +kernel)
  refine ⟨x,y,t,run,thread,parked,blocked,closed,?_⟩
  refine (close_releases_waiter run closed).1 ep bootCpu 0 t found thread ?_ ?_ fun _ => room
  · rw [chosen, threadId, thread]
    rfl
  · simp [Thread.asleep, parked, blocked]

/-- A thread inside an operation is found by its identity from every processor, at its
    own place. -/
theorem thread_inside_is_located {ports : PortTable cfg} {x : Executive M cfg} {id : ThreadId}
    (run : Run Step (new ports) history x) (held : (x.sched c).threadId s = some id)
    (inside : x.frame? c s ≠ some .outside) (cpu : Fin cfg.maxCpus) :
    x.locateThread cpu id = if c = cpu then .here s else .elsewhere c s := by
  have placed := placed_run run
  exact placed.locateThread held (placed.entered c s id held inside) cpu

theorem waiting_caller_is_located : ∃ x : Executive (Message .default) .default, Run Step (new .new) clientWaits x ∧
    ((x.sched bootCpu).threadId 0 = some (.mint bootCpu 1) ∧ x.frame? bootCpu 0 ≠ some .outside) ∧
      x.locateThread otherCpu (.mint bootCpu 1) = .elsewhere bootCpu 0 :=
  Disciplined.reaches_also (by decide +kernel) fun _ run there => thread_inside_is_located run there.1 there.2 _

def callerAndReceiver : List (ExecAction (Message .default) .default) :=
  [.channelCreate, .addThread bootCpu 16 0, .addThread bootCpu 16 0, .addThread bootCpu 16 0, .dispatch bootCpu,
    .callUntil bootCpu ⟨0, .zero⟩ blank none 0, .leave bootCpu, .receive bootCpu ⟨0, .zero⟩, .leave bootCpu,
    .closeEndpoint bootCpu ⟨0, .one⟩]

def oneOfTwoCloses : List (ExecAction (Message .default) .default) :=
  [.channelCreate, .channelCreate, .addThread bootCpu 16 0, .addThread bootCpu 16 0, .dispatch bootCpu,
    .receiveAny bootCpu [⟨0, .zero⟩, ⟨1, .zero⟩] none 0, .leave bootCpu, .closeEndpoint bootCpu ⟨0, .one⟩,
    .receive bootCpu ⟨1, .one⟩, .leave bootCpu]

/-- The caller is not woken beside the receiver, and the wait on two endpoints goes
    on for the second. -/
theorem close_does_not_release_everyone :
    (∃ x : Executive (Message .default) .default, ∃ t, Run Step (new .new) callerAndReceiver x ∧
      (x.sched bootCpu).thread 0 = some t ∧ t.context = .parked (.call ⟨0, .zero⟩ 1 none none) ∧ t.state = .blocked ∧
      x.wakeups bootCpu 0 = none ∧ x.hands bootCpu 0 = false) ∧
    ∃ x y : Executive (Message .default) .default, Run Step (new .new) oneOfTwoCloses x ∧
      x.frame? bootCpu 0 = some (.parked (.receiveAny [⟨0, .zero⟩, ⟨1, .zero⟩] none)) ∧
      x.perform (.resume bootCpu 0 0) = some (.parked, y) := by
  constructor
  · simp only [exists_and_left]
    exact Disciplined.reaches (by decide +kernel)
  · obtain ⟨x,run,frame,⟨_,y⟩,resumed,rfl⟩ : ∃ x : Executive (Message .default) .default,
        Run Step (new .new) oneOfTwoCloses x ∧
        x.frame? bootCpu 0 = some (.parked (.receiveAny [⟨0, .zero⟩, ⟨1, .zero⟩] none)) ∧
        ∃ went, x.perform (.resume bootCpu 0 0) = some went ∧ went.1 = .parked := Disciplined.reaches (by decide +kernel)
    exact ⟨x,y,run,frame,resumed⟩

end
end Executive
end Tessera
