import Tessera.Exec.OperationEffects

/-!
What the steps of the executive do to calls: the contexts that are inside a
call, the messages queued at an endpoint, its pending caller and the transaction
counters. A step only places a call, issues a reply, sends, or takes away.
-/
namespace Tessera
open Option List Scheduler ChannelTable Executive Stamped
variable {endpoints : List EndpointId}

structure CallId (cfg : Config) where
  cpu : Fin cfg.maxCpus
  txn : Nat
  deriving DecidableEq

namespace Executive
variable {M : Type} {cfg : Config}

def call? (x : Executive M cfg) (cpu : Fin cfg.maxCpus) (slot : Nat) : Option (EndpointId × Nat) :=
  (x.frame? cpu slot).bind Frame.call?

def callsOn (x : Executive M cfg) (e : EndpointId) : List (CallId cfg) :=
  (List.finRange cfg.maxCpus).flatMap fun cpu =>
    (List.range cfg.maxThreads).filterMap fun slot =>
      (x.call? cpu slot).bind fun c => if c.1 = e then some ⟨cpu, c.2⟩ else none

variable {x y : Executive M cfg} {e : EndpointId} {rest : Endpoint M cfg} {message : M}

theorem mem_callsOn {id : CallId cfg} : id ∈ x.callsOn e ↔ ∃ slot, x.call? id.cpu slot = some (e, id.txn) := by
  simp only [callsOn, mem_flatMap, mem_finRange, true_and, mem_filterMap, mem_range, bind_eq_some_iff]
  constructor
  · rintro ⟨_,slot,_,⟨_,_⟩,calling,same⟩
    split at same
    · rename_i here
      cases same
      exact ⟨slot,here ▸ calling⟩
    · cases same
  · rintro ⟨slot,calling⟩
    refine ⟨id.cpu,slot,?_,_,calling,by simp⟩
    obtain ⟨_,found,_⟩ := bind_eq_some_iff.mp calling
    obtain ⟨_,ht,_⟩ := map_eq_some_iff.mp found
    exact Slots.lt_of_cell ht

def delivers [Stamped M] (x : Executive M cfg) (on : EndpointId) (response : M) : Bool :=
  match x.deliverReply on response with
  | .ok _ => true
  | .error _ => false

def repliesTo [Stamped M] (x : Executive M cfg) : ExecAction M cfg → Option EndpointId
  | .reply _ on response | .replyAndContinue _ on response =>
    if x.delivers on response then some on.peer else none
  | .replyReceive cpu on response =>
    if (x.sched cpu).currentId.isSome ∧ x.delivers on response then some on.peer else none
  | _ => none

/-- No call begins from one state to the other: every queued message is an old
    one or among the news, and no caller becomes pending. -/
structure Proceeds (x y : Executive M cfg) (news : EndpointId → M → Prop) : Prop where
  calls : ∀ cpu slot c, y.call? cpu slot = some c → x.call? cpu slot = some c
  txns : ∀ cpu, x.nextTxn cpu ≤ y.nextTxn cpu
  queues : ∀ e ep m, y.channels.endpoint? e = some ep → m ∈ ep.queue.items →
    news e m ∨ ∃ old, x.channels.endpoint? e = some old ∧ m ∈ old.queue.items
  pending : ∀ e ep p, y.channels.endpoint? e = some ep → ep.pendingCaller = some p →
    ∃ old, x.channels.endpoint? e = some old ∧ old.pendingCaller = some p

variable {news : EndpointId → M → Prop}

theorem Proceeds.of_channels (calls : ∀ cpu slot c, y.call? cpu slot = some c → x.call? cpu slot = some c)
    (txns : ∀ cpu, x.nextTxn cpu ≤ y.nextTxn cpu) (channels : y.channels = x.channels) : x.Proceeds y news :=
  ⟨calls,txns,fun _ ep _ found mem => .inr ⟨ep,channels ▸ found,mem⟩,
    fun _ ep _ found pending => ⟨ep,channels ▸ found,pending⟩⟩

theorem Proceeds.trans (first : x.Proceeds y news) (second : y.Proceeds z news) : x.Proceeds z news := by
  refine ⟨fun cpu slot c calling => first.calls cpu slot c (second.calls cpu slot c calling),
    fun cpu => (first.txns cpu).trans (second.txns cpu),?_,?_⟩
  · intro e ep m found mem
    rcases second.queues e ep m found mem with new | ⟨old,before,within⟩
    · exact .inl new
    · exact first.queues e old m before within
  · intro e ep p found pending
    obtain ⟨old,before,same⟩ := second.pending e ep p found pending
    exact first.pending e old p before same

theorem frame?_of_rouses (sched : ∀ c, (x.sched c).Rouses (y.sched c)) (cpu : Fin cfg.maxCpus) (slot : Nat) :
    y.frame? cpu slot = x.frame? cpu slot := by
  obtain ⟨_,same,roused⟩ := (sched cpu).thread slot
  rw [frame?, frame?, same]
  cases found : (x.sched cpu).thread slot with
  | none => rfl
  | some t => exact congrArg some (roused t found).context

theorem Rouses.frame? (rouses : x.Rouses y) (cpu : Fin cfg.maxCpus) (slot : Nat) :
    y.frame? cpu slot = x.frame? cpu slot := frame?_of_rouses rouses.sched cpu slot

variable {scope : Scope M} {cpu : Fin cfg.maxCpus}

theorem Works.call? (works : x.Works y cpu scope) (c : Fin cfg.maxCpus)
    (slot : Nat) : y.call? c slot = x.call? c slot := by
  rw [Executive.call?, frame?_of_rouses works.sched, Executive.call?]

theorem Rouses.call? (rouses : x.Rouses y) (cpu : Fin cfg.maxCpus) (slot : Nat) :
    y.call? cpu slot = x.call? cpu slot := by
  rw [Executive.call?, rouses.frame?, Executive.call?]

theorem Rouses.proceeds (rouses : x.Rouses y) : x.Proceeds y news :=
  .of_channels (fun cpu slot _ calling => rouses.call? cpu slot ▸ calling)
    (fun cpu => (congrFun rouses.nextTxn cpu).ge) rouses.channels

theorem frame?_onCpu (x : Executive M cfg) (cpu : Fin cfg.maxCpus)
    (f : Scheduler Frame cfg → Scheduler Frame cfg) (c : Fin cfg.maxCpus) (slot : Nat) :
    (x.onCpu cpu f).frame? c slot =
      if c = cpu then ((f (x.sched cpu)).thread slot).map (·.context) else x.frame? c slot := by
  by_cases same : c = cpu
  · subst same
    simp [frame?, onCpu]
  · simp [frame?, onCpu, same]

theorem proceeds_onCpu (x : Executive M cfg) (cpu : Fin cfg.maxCpus)
    (kept : ∀ slot t c, (f (x.sched cpu)).thread slot = some t → t.context.call? = some c →
      x.call? cpu slot = some c) : x.Proceeds (x.onCpu cpu f) news := by
  refine .of_channels ?_ (fun _ => le_rfl) rfl
  intro _ slot c calling
  rw [call?, frame?_onCpu] at calling
  split at calling
  · rename_i same
    subst same
    obtain ⟨_,mapped,inCall⟩ := bind_eq_some_iff.mp calling
    obtain ⟨t,found,rfl⟩ := map_eq_some_iff.mp mapped
    exact kept slot t c found inCall
  · exact calling

theorem proceeds_setContext (x : Executive M cfg) (cpu : Fin cfg.maxCpus) (slot : Nat)
    (free : ∀ c, frame.call? = some c → x.call? cpu slot = some c) :
    x.Proceeds (x.onCpu cpu (·.setContext slot frame)) news := by
  apply proceeds_onCpu
  intro _ _ c found calling
  rw [Scheduler.setContext, thread_alter] at found
  split at found
  · rename_i same
    obtain ⟨_,_,rfl⟩ := map_eq_some_iff.mp found
    exact same ▸ free c calling
  · rw [call?, frame?, found]
    exact calling

theorem Works.proceeds (works : x.Works y cpu scope)
    (nobody : ∀ e p, ¬scope.pends e p) : x.Proceeds y scope.news where
  calls c slot _ calling := works.call? c slot ▸ calling
  txns := works.txns
  queues e ep m found mem := by
    obtain ⟨old,before,worked⟩ := works.before found
    exact (worked.queue m mem).imp_right fun within => ⟨old,before,within⟩
  pending e ep p found waits := by
    obtain ⟨old,before,worked⟩ := works.before found
    exact ⟨old,before,(worked.pending p waits).resolve_left (nobody e p)⟩

variable {r : Outcome M × Executive M cfg}

theorem Does.proceeds (does : x.Does cpu scope endpoints r) (nobody : ∀ e p, ¬scope.pends e p) :
    x.Proceeds r.2 scope.news := by
  cases does with
  | returns works => exact works.proceeds nobody
  | parks _ works _ free =>
    refine (works.proceeds nobody).trans (proceeds_setContext _ cpu _ ?_)
    intro _ calling
    rw [Frame.call?, free] at calling
    cases calling

theorem Does.took (does : x.Does cpu scope endpoints r) : x.Took endpoints r.1 := by
  cases does with
  | returns _ took => exact took
  | parks => exact ⟨nofun,rfl⟩

theorem proceeds_leave (left : x.leave cpu = some y) : x.Proceeds y news := by
  -- the wait goes from parking to parked, and a switch moves no context
  have switched : ∀ {slot : Nat} {target : Option Nat} {wait : Wait} (f : Scheduler Frame cfg → Scheduler Frame cfg),
      x.frame? cpu slot = some (.parking target wait) →
      (∀ s other, ((f s).thread other).map (·.context) = (s.thread other).map (·.context)) →
      x.Proceeds (x.onCpu cpu fun s => f (s.setContext slot (.parked wait))) news := by
    intro _ target _ _ parking keeps
    refine .of_channels ?_ (fun _ => le_rfl) rfl
    intro _ other call calling
    rw [call?, frame?_onCpu] at calling
    split at calling
    · rename_i here
      subst here
      rw [keeps, setContext_context] at calling
      split at calling
      · rename_i same
        subst same
        obtain ⟨_,mapped,inCall⟩ := bind_eq_some_iff.mp calling
        obtain ⟨_,_,rfl⟩ := map_eq_some_iff.mp mapped
        rw [call?, parking]
        exact inCall
      · exact calling
    · exact calling
  unfold leave at left
  split at left
  · cases left
  split at left
  · rename_i parking
    cases left
    exact switched _ parking blockCurrent_context
  · rename_i target _ parking
    cases left
    exact switched (·.handoffTo target) parking fun s other => s.handoffTo_context target other
  · cases left

theorem proceeds_drain (x : Executive M cfg) (cpu : Fin cfg.maxCpus) : x.Proceeds (x.drain cpu) news := by
  have roused : x.Proceeds (x.onCpu cpu (takeWakeups · (x.wakeups cpu) (List.range cfg.maxThreads))) news :=
    (x.rouses_onCpu cpu (rouses_takeWakeups _ _ _)).proceeds
  exact ⟨roused.calls,roused.txns,roused.queues,roused.pending⟩

theorem setReceivers_queue (found : (x.setReceivers endpoints receiver).channels.endpoint? e = some ep) :
    ∃ old, x.channels.endpoint? e = some old ∧ ep.queue = old.queue := by
  induction endpoints generalizing x with
  | nil => exact ⟨ep,found,rfl⟩
  | cons first rest ih =>
    obtain ⟨mid,there,same⟩ := ih found
    dsimp only [alterEndpoint] at there
    rw [ChannelTable.endpoint?_alterEndpoint] at there
    split at there
    · obtain ⟨old,before,rfl⟩ := map_eq_some_iff.mp there
      exact ⟨old,before,same⟩
    · exact ⟨mid,there,same⟩

section
variable [Stamped M]
variable {x y z : Executive M cfg} {on origin : EndpointId} {response req m : M} {caller : Option ThreadId}
  {due : Option Nat} {now later txn : Nat} {out : Outcome M} {a : ExecAction M cfg} {wait : Wait}

theorem delivers_noteResidence (x : Executive M cfg) (cpu : Fin cfg.maxCpus) (on : EndpointId) (response : M) :
    (x.noteResidence cpu).delivers on response = x.delivers on response := by
  simp only [delivers, deliverReply, noteResidence_channels]
  cases x.channels.endpoint? on.peer with
  | none => rfl
  | some endpoint =>
    simp only
    cases endpoint.pendingCaller with
    | none =>
      cases endpoint.takeAbandoned.1
      · cases endpoint.enqueue response <;> rfl
      · rfl
    | some waiting =>
      simp only
      cases endpoint.enqueue (setTxn response waiting.2) <;> rfl

/-- A call is placed: one more call is in progress, its request is queued at the
    peer and its caller is pending. -/
structure Places (x y : Executive M cfg) (cpu : Fin cfg.maxCpus) (origin : EndpointId) (request : M) : Prop where
  calls : ∀ c slot call, y.call? c slot = some call →
    x.call? c slot = some call ∨ c = cpu ∧ call = (origin, x.nextTxn cpu)
  txns : ∀ c, y.nextTxn c = if c = cpu then x.nextTxn c + 1 else x.nextTxn c
  queues : ∀ e ep m, y.channels.endpoint? e = some ep → m ∈ ep.queue.items →
    (e = origin.peer ∧ ∃ correlation, m = setCorrelation (setTxn request (x.nextTxn cpu)) correlation) ∨
      ∃ old, x.channels.endpoint? e = some old ∧ m ∈ old.queue.items
  pending : ∀ e ep p, y.channels.endpoint? e = some ep → ep.pendingCaller = some p →
    e = origin ∧ p.2 = x.nextTxn cpu ∨ ∃ old, x.channels.endpoint? e = some old ∧ old.pendingCaller = some p

section
variable (placed : x.Places y cpu origin req)
include placed

theorem Places.of_rouses (rouses : y.Rouses z) : x.Places z cpu origin req where
  calls c slot call calling := placed.calls c slot call (rouses.call? c slot ▸ calling)
  txns c := (congrFun rouses.nextTxn c).trans (placed.txns c)
  queues e ep m found := placed.queues e ep m (rouses.channels ▸ found)
  pending e ep p found := placed.pending e ep p (rouses.channels ▸ found)

theorem Places.park (target due callee : Option Nat) :
    x.Places (y.park cpu target (.call origin (x.nextTxn cpu) due callee)) cpu origin req := by
  unfold Executive.park
  split
  · exact placed
  refine ⟨?_,placed.txns,placed.queues,placed.pending⟩
  intro c slot call calling
  rw [call?, frame?_onCpu] at calling
  split at calling
  · rename_i here
    subst here
    rw [Scheduler.setContext, thread_alter] at calling
    split at calling
    · obtain ⟨_,mapped,inCall⟩ := bind_eq_some_iff.mp calling
      obtain ⟨_,found,rfl⟩ := map_eq_some_iff.mp mapped
      obtain ⟨_,_,rfl⟩ := map_eq_some_iff.mp found
      exact .inr ⟨rfl,(Option.some.inj inCall).symm⟩
    · exact placed.calls _ slot call calling
  · exact placed.calls c slot call calling

theorem enterCall_places (caller : Nat) (due : Option Nat) (callee : Option ThreadId) :
    x.Places (y.enterCall cpu caller origin (x.nextTxn cpu) due callee) cpu origin req := by
  unfold enterCall
  split
  · exact placed.park none due none
  split
  · rename_i slot _
    exact (placed.of_rouses (rouses_lend _ cpu caller slot)).park (some slot) due (some slot)
  · rename_i located
    exact (placed.of_rouses (rouses_post located)).park none due none
  · exact placed.park none due none

end

theorem perform_places (done : x.perform (.callUntil cpu origin req due now) = some (.parked, y)) :
    x.Places y cpu origin req := by
  obtain ⟨_,parked,rfl⟩ := guarded done
  rcases x.callUntil_cases cpu origin req due now with
    ⟨_,_,refused,_⟩ | ⟨caller,destination,z,_,_,works,txns,placed⟩
  · rw [refused] at parked
    cases parked
  rw [placed]
  refine enterCall_places ⟨?_,?_,?_,?_⟩ ..
  · intro c _ _ calling
    obtain ⟨_,same⟩ := x.noteResidence_eq cpu
    rw [works.call?, same] at calling
    exact .inl calling
  · intro c
    rw [txns]
    by_cases same : c = cpu
    · subst same
      simp [mintTxn]
    · simp [mintTxn, same]
  · intro _ _ m found mem
    obtain ⟨old,before,worked⟩ := works.before found
    rw [noteResidence_channels] at before
    exact (worked.queue m mem).imp_right fun within => ⟨old,before,within⟩
  · intro _ _ p found waits
    obtain ⟨old,before,worked⟩ := works.before found
    rw [noteResidence_channels] at before
    exact (worked.pending p waits).imp_right fun within => ⟨old,before,within⟩

theorem Answers.answered (answers : x.Answers cpu on response scope endpoints r) (feeds : on.peer ∈ scope.fed)
    (issued : ∀ m, x.Issued on response on.peer m → scope.news on.peer m) (nobody : ∀ e p, ¬scope.pends e p)
    (delivers : x.delivers on response = true) (found : r.2.channels.endpoint? on.peer = some ep) :
    ep.pendingCaller = none := by
  cases answers with
  | refused error =>
    rw [Executive.delivers, error] at delivers
    cases delivers
  | delivered done onward =>
    have delivered := @deliverReply_works _ _ cpu scope _ _ _ _ _ _ done feeds issued
    cases waits : ep.pendingCaller with
    | none => rfl
    | some p =>
      obtain ⟨old,before,same⟩ := (onward.proceeds nobody).pending on.peer ep p found waits
      rw [delivered.2 old before] at same
      cases same

theorem perform_answered (done : x.perform a = some (out, y))
    (replies : x.repliesTo a = some e) (found : y.channels.endpoint? e = some ep) : ep.pendingCaller = none := by
  let scope (on : EndpointId) : Scope M := ⟨[on.peer], [on], fun e _ => e = on.peer, fun _ _ => False, True⟩
  cases a with first | cases replies | obtain ⟨_,rfl,rfl⟩ := guarded done
  | reply cpu on response =>
    obtain ⟨issued,same⟩ := ite_none_right_eq_some.mp replies
    cases same
    rw [← x.delivers_noteResidence cpu] at issued
    have answers : (x.noteResidence cpu).Answers cpu on response (scope on) [] _ :=
      x.reply_answers cpu on response trivial
    exact answers.answered mem_cons_self (fun _ _ => rfl) (fun _ _ => id) issued found
  | replyAndContinue cpu on response =>
    obtain ⟨issued,same⟩ := ite_none_right_eq_some.mp replies
    cases same
    have answers : x.Answers cpu on response (scope on) [] _ := x.replyAndContinue_answers cpu on response
    exact answers.answered mem_cons_self (fun _ _ => rfl) (fun _ _ => id) issued found
  | replyReceive cpu on response =>
    obtain ⟨⟨running,issued⟩,same⟩ := ite_none_right_eq_some.mp replies
    cases same
    rw [← x.delivers_noteResidence cpu] at issued
    have old : ∀ m, ¬(scope on).news on m := fun _ same => on.peer_ne same.symm
    rcases x.replyReceive_answers cpu on response trivial mem_cons_self old with ⟨idle,_⟩ | answers
    · rw [idle] at running
      cases running
    · exact answers.answered mem_cons_self (fun _ _ => rfl) (fun _ _ => id) issued found

theorem finishCall_takes : (x.finishCall origin txn due now).1.message? = none ∧
    ∀ m, (x.finishCall origin txn due now).1.reply? = some m →
      ∃ ep, x.channels.endpoint? origin = some ep ∧ m ∈ ep.queue.items ∧ Stamped.txn m = txn := by
  unfold finishCall
  split
  · exact ⟨rfl,nofun⟩
  rename_i endpoint found
  split
  · rename_i taken
    refine ⟨rfl,?_⟩
    intro _ same
    cases same
    obtain ⟨_,_,mem,stamp,_⟩ := Endpoint.takeReply_eq_some taken
    exact ⟨endpoint,found,mem,stamp⟩
  · split <;> exact ⟨rfl,nofun⟩

theorem resumeCall_takes {caller : Nat} : (x.resumeCall cpu caller origin txn due callee now).1.message? = none ∧
    ∀ m, (x.resumeCall cpu caller origin txn due callee now).1.reply? = some m →
      ∃ ep, x.channels.endpoint? origin = some ep ∧ m ∈ ep.queue.items ∧ Stamped.txn m = txn := by
  unfold resumeCall
  split
  · exact ⟨rfl,nofun⟩
  refine ⟨finishCall_takes.1,?_⟩
  intro m took
  obtain ⟨ep,found,rest⟩ := finishCall_takes.2 m took
  rw [(((x.rouses_changeDepth cpu caller (· - 1)).trans (rouses_setCurrentDeadline _ cpu none)).trans
    (rouses_giveBack _ cpu callee)).channels] at found
  exact ⟨ep,found,rest⟩

theorem resumeWait_takes {slot : Nat} : (∀ m, (x.resumeWait cpu slot wait now later).1.message? = some m →
      ∃ e ∈ wait.listens, ∃ ep, x.channels.endpoint? e = some ep ∧ m ∈ ep.queue.items) ∧
    ∀ m, (x.resumeWait cpu slot wait now later).1.reply? = some m →
      ∃ origin txn due callee ep, wait = .call origin txn due callee ∧
        x.channels.endpoint? origin = some ep ∧ m ∈ ep.queue.items ∧ Stamped.txn m = txn := by
  rcases @resumeWait_does _ _ cpu _ x slot wait now later with does | ⟨calls,_⟩
  · refine ⟨does.took.message,?_⟩
    intro m took
    cases does.took.reply.symm.trans took
  cases wait with
  | call origin txn due callee =>
    refine ⟨fun m took => ?_,fun m took => ?_⟩
    · cases resumeCall_takes.1.symm.trans took
    · obtain ⟨ep,found,rest⟩ := resumeCall_takes.2 m took
      exact ⟨origin,txn,due,callee,ep,rfl,found,rest⟩
  | _ => cases calls

section
variable (done : x.perform a = some (out, y))
include done

theorem perform_proceeds (unplaced : ∀ cpu origin req due now, a = .callUntil cpu origin req due now →
      out ≠ .parked) : x.Proceeds y (x.News a) := by
  have created : ∀ channels : ChannelTable M cfg, (∀ e ep, channels.endpoint? e = some ep →
      x.channels.endpoint? e = some ep ∨ ep = .new) → x.Proceeds { x with channels } (x.News a) := by
    intro _ old
    refine ⟨fun _ _ _ same => same,fun _ => le_rfl,?_,?_⟩
    · intro e ep _ found mem
      rcases old e ep found with before | rfl
      · exact .inr ⟨ep,before,mem⟩
      · cases mem
    · intro e ep _ found waiting
      rcases old e ep found with before | rfl
      · exact ⟨ep,before,waiting⟩
      · cases waiting
  have operation : ∀ {cpu : Fin cfg.maxCpus}, operator a = some cpu →
      (∀ cpu origin req due now, a ≠ .callUntil cpu origin req due now) → x.Proceeds y (x.News a) := by
    intro cpu own other
    rcases (perform_does done own other).2 with does | does
    · exact does.proceeds fun _ _ => id
    · have noted : x.Works (x.noteResidence cpu) cpu (x.scopeOf a True) := works_noteResidence x cpu
      exact (noted.proceeds fun _ _ => id).trans (does.proceeds fun _ _ => id)
  cases a with first | cases done | obtain ⟨_,rfl,rfl⟩ := guarded done | skip
  | channelCreate => exact created _ fun _ _ => endpoint?_create
  | channelCreateWithObjects => exact created _ fun _ _ => endpoint?_createWithObjects
  | addThread cpu priority correlation =>
    dsimp only
    apply proceeds_onCpu
    intro slot _ _ found calling
    rcases ((x.sched cpu).addThread_cases cpu (spawned priority) correlation).2 with ⟨_,_,same⟩ | ⟨_,_,_,_,_,same⟩
    · rw [same] at found
      rw [call?, frame?, found]
      exact calling
    rw [same] at found
    split at found
    · cases found
      cases calling
    · rw [call?, frame?, found]
      exact calling
  | callUntil cpu origin req due now =>
    rcases x.callUntil_cases cpu origin req due now with ⟨_,_,refused,works⟩ | ⟨_,_,_,_,_,_,_,placed⟩
    · rw [refused]
      have through := (works_noteResidence x cpu).trans (works (x.scopeOf (.callUntil cpu origin req due now) True))
      exact through.proceeds fun _ _ => id
    · rw [placed] at unplaced
      exact absurd rfl (unplaced _ _ _ _ _ rfl)
  | leave =>
    obtain ⟨_,left,same⟩ := map_eq_some_iff.mp done
    cases same
    exact proceeds_leave left
  | resume cpu now later =>
    obtain ⟨slot,wait,_,_,went⟩ := resume_eq_some done
    have outside : x.Proceeds (x.onCpu cpu (·.setContext slot .outside)) (x.News (.resume cpu now later)) :=
      x.proceeds_setContext cpu slot nofun
    refine outside.trans ?_
    rcases resumeWait_does (x.onCpu cpu (·.setContext slot .outside)) slot wait now later with does | ⟨_,works⟩
    · rw [went] at does
      exact does.proceeds fun _ _ => id
    · rw [went] at works
      exact works.proceeds fun _ _ => id
  | dispatch cpu =>
    refine x.proceeds_onCpu cpu ?_
    intro slot _ _ found calling
    have context := (x.sched cpu).run_context slot
    rw [found] at context
    rw [call?, frame?, ← context]
    exact calling
  | drain cpu => exact x.proceeds_drain cpu
  | expire cpu now => exact (x.rouses_expireTimedOutWaits cpu now).proceeds
  | _ => exact operation rfl nofun

theorem perform_took (own : operator a = some cpu) : x.Took (x.listens a) out := by
  by_cases call : ∃ c origin req due now, a = .callUntil c origin req due now
  · obtain ⟨c,origin,req,due,now,rfl⟩ := call
    obtain ⟨_,rfl,rfl⟩ := guarded done
    rcases x.callUntil_cases c origin req due now with ⟨_,_,refused,_⟩ | ⟨_,_,_,_,_,_,_,placed⟩
    · rw [refused]
      exact ⟨nofun,rfl⟩
    · rw [placed]
      exact ⟨nofun,rfl⟩
  · rcases (perform_does done own fun _ _ _ _ _ same => call ⟨_,_,_,_,_,same⟩).2 with does | does
    · exact does.took
    have took := does.took
    refine ⟨fun m got => ?_,took.reply⟩
    rw [← x.noteResidence_channels cpu]
    exact took.message m got

theorem perform_takes (took : out.message? = some m) :
    ∃ e ∈ x.listens a, ∃ ep, x.channels.endpoint? e = some ep ∧ m ∈ ep.queue.items := by
  cases own : operator a with
  | some => exact (perform_took done own).message m took
  | none =>
    cases a with
    | resume cpu now later =>
      obtain ⟨_,wait,running,parked,went⟩ := resume_eq_some done
      have listening : x.listens (.resume cpu now later) = wait.listens := by
        simp [listens, running, parked]
      rw [listening]
      have taken := resumeWait_takes.1 m ((congrArg (·.1.message?) went).trans took)
      exact taken
    | leave =>
      obtain ⟨_,_,same⟩ := map_eq_some_iff.mp done
      cases same
      cases took
    | channelCreate | channelCreateWithObjects =>
      cases done
      cases took
    | addThread | dispatch | drain | expire =>
      obtain ⟨_,rfl,rfl⟩ := guarded done
      cases took
    | _ => cases own

end

theorem perform_replied (done : x.perform a = some (.replied m, y)) :
    ∃ cpu now later slot origin txn due callee ep, a = .resume cpu now later ∧
      (x.sched cpu).current = some slot ∧ x.frame? cpu slot = some (.parked (.call origin txn due callee)) ∧
      x.channels.endpoint? origin = some ep ∧ m ∈ ep.queue.items ∧ Stamped.txn m = txn := by
  cases own : operator a with
  | some => cases (perform_took done own).reply
  | none =>
    cases a with
    | resume cpu now later =>
      obtain ⟨slot,_,running,parked,went⟩ := resume_eq_some done
      obtain ⟨origin,txn,due,callee,ep,rfl,found,rest⟩ := resumeWait_takes.2 m (congrArg (·.1.reply?) went)
      exact ⟨cpu,now,later,slot,origin,txn,due,callee,ep,rfl,running,parked,found,rest⟩
    | leave =>
      obtain ⟨_,_,same⟩ := map_eq_some_iff.mp done
      cases same
    | channelCreate | channelCreateWithObjects => cases done
    | addThread | dispatch | drain | expire =>
      obtain ⟨_,replied,_⟩ := guarded done
      cases replied
    | _ => cases own

end

end Executive

end Tessera
