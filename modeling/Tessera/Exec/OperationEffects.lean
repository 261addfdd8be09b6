import Tessera.Exec.Steps

/-!
What one operation of the executive can do, once for all that is proved about
operations. An operation rouses threads, records its own thread where it runs and
works on endpoints within a scope: the ones it feeds, the ones it listens to, the
messages that are new there and the callers that become pending. Then it returns,
or it parks its thread.
-/
namespace Tessera
open List Option Endpoint Stamped
variable {M : Type} {cfg : Config}

def Outcome.message? {M : Type} : Outcome M → Option M
  | .received m | .receivedAny _ m => some m
  | _ => none

def Outcome.reply? {M : Type} : Outcome M → Option M
  | .replied m => some m
  | _ => none

def Wait.listens : Wait → List EndpointId
  | .receive on | .replyReceive on => [on]
  | .receiveAny endpoints _ => endpoints
  | .call .. | .reply | .address | .port _ => []

def Wait.call? : Wait → Option (EndpointId × Nat)
  | .call origin txn _ _ => some (origin, txn)
  | _ => none

def Frame.call? : Frame → Option (EndpointId × Nat)
  | .outside => none
  | .parking _ wait | .parked wait => wait.call?

theorem Scheduler.Rouses.threadId {C : Type} {s s' : Scheduler C cfg} (rouses : s.Rouses s')
    (slot : Nat) : s'.threadId slot = s.threadId slot := by
  obtain ⟨_,same,roused⟩ := rouses.thread slot
  rw [Scheduler.threadId, Scheduler.threadId, same]
  cases found : s.thread slot with
  | none => rfl
  | some t => exact congrArg some (roused t found).id

/-- What an operation may do to endpoints, and whether it may park. -/
structure Scope (M : Type) where
  fed : List EndpointId
  listened : List EndpointId
  news : EndpointId → M → Prop
  pends : EndpointId → ThreadId × Nat → Prop
  parks : Prop

def Scope.waiting (M : Type) (listened : List EndpointId) : Scope M :=
  ⟨[], listened, fun _ _ => False, fun _ _ => False, True⟩

namespace Endpoint
variable {scope : Scope M} {e : EndpointId} {ep ep' ep'' : Endpoint M cfg} {message : M}

structure Worked (scope : Scope M) (e : EndpointId) (ep ep' : Endpoint M cfg) : Prop where
  closed : ep.peerClosed = true → ep'.peerClosed = true
  pending : ∀ p, ep'.pendingCaller = some p → scope.pends e p ∨ ep.pendingCaller = some p
  queue : ∀ m ∈ ep'.queue.items, scope.news e m ∨ m ∈ ep.queue.items
  quiet : e ∈ scope.fed ∨ e ∈ scope.listened ∨
    ep'.blockedReceiver = ep.blockedReceiver ∧ (ep.queue.items = [] → ep'.queue.items = [])

theorem Worked.refl (ep : Endpoint M cfg) : ep.Worked scope e ep :=
  ⟨id,fun _ => .inr,fun _ => .inr,.inr (.inr ⟨rfl,id⟩)⟩

theorem Worked.trans (first : ep.Worked scope e ep') (second : ep'.Worked scope e ep'') : ep.Worked scope e ep'' := by
  refine ⟨second.closed ∘ first.closed,fun p waits => (second.pending p waits).elim .inl (first.pending p),
    fun m queued => (second.queue m queued).elim .inl (first.queue m),?_⟩
  rcases first.quiet with feeds | listens | ⟨receiver,empty⟩
  · exact .inl feeds
  · exact .inr (.inl listens)
  rcases second.quiet with feeds | listens | ⟨receiver',empty'⟩
  · exact .inl feeds
  · exact .inr (.inl listens)
  · exact .inr (.inr ⟨receiver'.trans receiver,empty' ∘ empty⟩)

theorem Worked.receiver (worked : ep.Worked scope e ep') (within : e ∈ scope.fed ∨ e ∈ scope.listened)
    (receiver : Option ThreadId) : ep.Worked scope e (ep'.setBlockedReceiver receiver) :=
  ⟨worked.closed,worked.pending,worked.queue,within.imp_right .inl⟩

theorem Worked.answered (worked : ep.Worked scope e ep') : ep.Worked scope e (ep'.setPendingCaller none) :=
  ⟨worked.closed,nofun,worked.queue,worked.quiet⟩

theorem worked_dequeue (taken : ep.dequeue = some (message, ep')) : ep.Worked scope e ep' := by
  obtain ⟨_,rfl,items⟩ := dequeue_eq_some taken
  refine ⟨id,fun _ => .inr,fun m mem => .inr ?_,.inr (.inr ⟨rfl,?_⟩)⟩
  · rw [items]
    exact mem_cons_of_mem _ mem
  · intro empty
    cases items.symm.trans empty

theorem worked_enqueue (queued : ep.enqueue message = .ok ep') (feeds : e ∈ scope.fed)
    (new : scope.news e message) : ep.Worked scope e ep' := by
  obtain ⟨_,rfl,items⟩ := enqueue_eq_ok queued
  refine ⟨id,fun _ => .inr,?_,.inl feeds⟩
  intro _ mem
  rcases mem_append.mp (items ▸ mem) with old | added
  · exact .inr old
  · exact .inl (mem_singleton.mp added ▸ new)

theorem worked_takeReply [Stamped M] {txn : Nat} (taken : ep.takeReply txn = some (message, ep')) :
    ep.Worked scope e ep' := by
  obtain ⟨_,rfl,_,_,within⟩ := takeReply_eq_some taken
  refine ⟨id,fun _ => .inr,fun m mem => .inr (within m mem),.inr (.inr ⟨rfl,?_⟩)⟩
  intro empty
  exact eq_nil_iff_forall_not_mem.mpr fun m mem => by simpa [empty] using within m mem

end Endpoint

namespace Executive
variable {x y z : Executive M cfg} {cpu : Fin cfg.maxCpus} {scope : Scope M} {e : EndpointId}
  {ep rest : Endpoint M cfg} {message : M} {endpoints sources : List EndpointId} {out : Outcome M}
  {r : Outcome M × Executive M cfg}

def listens (x : Executive M cfg) : ExecAction M cfg → List EndpointId
  | .receive _ on | .tryReceive _ on | .replyReceive _ on _ => [on]
  | .receiveAny _ endpoints _ _ => endpoints
  | .resume cpu _ _ =>
    match (x.sched cpu).current.bind (x.frame? cpu) with
    | some (.parked wait) => wait.listens
    | _ => []
  | _ => []

def operator : ExecAction M cfg → Option (Fin cfg.maxCpus)
  | .send cpu _ _ | .receive cpu _ | .tryReceive cpu _ | .receiveAny cpu _ _ _ | .callUntil cpu _ _ _ _
  | .reply cpu _ _ | .replyAndContinue cpu _ _ | .replyReceive cpu _ _ | .closeEndpoint cpu _ => some cpu
  | _ => none

def feeds : ExecAction M cfg → List EndpointId
  | .send _ origin _ | .callUntil _ origin _ _ _ => [origin.peer]
  | .reply _ on _ | .replyAndContinue _ on _ | .replyReceive _ on _ => [on.peer]
  | _ => []

def awaits : ExecAction M cfg → List EndpointId
  | .receive _ on | .replyReceive _ on _ => [on]
  | .receiveAny _ endpoints _ _ => endpoints
  | _ => []

structure Works (x y : Executive M cfg) (cpu : Fin cfg.maxCpus) (scope : Scope M) : Prop where
  sched : ∀ c, (x.sched c).Rouses (y.sched c)
  txns : ∀ c, x.nextTxn c ≤ y.nextTxn c
  residents : ∀ c s, y.residents c s = x.residents c s ∨
    c = cpu ∧ (x.sched c).current = some s ∧ (x.sched c).threadId s = some (y.residents c s)
  wakeups : ∀ c s, y.wakeups c s = x.wakeups c s ∨
    ∃ id, y.wakeups c s = some id ∧ id ≠ .unassigned ∧ (x.residents c s = id ∨ (x.sched c).threadId s = some id)
  endpoints : ∀ e, ∃ f : Endpoint M cfg → Endpoint M cfg,
    y.channels.endpoint? e = (x.channels.endpoint? e).map f ∧
      ∀ ep, x.channels.endpoint? e = some ep → ep.Worked scope e (f ep)

theorem Works.of_channels (same : y.channels = x.channels) (sched : ∀ c, (x.sched c).Rouses (y.sched c))
    (txns : ∀ c, x.nextTxn c ≤ y.nextTxn c) (residents : ∀ c s, y.residents c s = x.residents c s ∨
      c = cpu ∧ (x.sched c).current = some s ∧ (x.sched c).threadId s = some (y.residents c s))
    (wakeups : ∀ c s, y.wakeups c s = x.wakeups c s ∨ ∃ id, y.wakeups c s = some id ∧ id ≠ .unassigned ∧
      (x.residents c s = id ∨ (x.sched c).threadId s = some id)) : x.Works y cpu scope :=
  ⟨sched,txns,residents,wakeups,fun _ => ⟨id,by simp [same],fun ep _ => .refl ep⟩⟩

theorem Rouses.works (rouses : x.Rouses y) : x.Works y cpu scope :=
  .of_channels rouses.channels rouses.sched (fun c => (congrFun rouses.nextTxn c).ge)
    (fun c s => .inl (congrFun (congrFun rouses.residents c) s))
    fun c s => (rouses.wakeups c s).imp_right fun ⟨posted,assigned⟩ => ⟨_,posted,assigned,.inl rfl⟩

theorem Works.trans (first : x.Works y cpu scope) (second : y.Works z cpu scope) : x.Works z cpu scope where
  sched c := (first.sched c).trans (second.sched c)
  txns c := (first.txns c).trans (second.txns c)
  residents c s := by
    rcases second.residents c s with same | ⟨here,running,own⟩
    · rw [same]
      exact first.residents c s
    rw [(first.sched c).current] at running
    rw [(first.sched c).threadId] at own
    exact .inr ⟨here,running,own⟩
  wakeups c s := by
    rcases second.wakeups c s with same | ⟨id,posted,assigned,recorded | own⟩
    · rw [same]
      exact first.wakeups c s
    · refine .inr ⟨id,posted,assigned,?_⟩
      rcases first.residents c s with same | ⟨_,_,own⟩
      · exact .inl (same.symm.trans recorded)
      · exact .inr (recorded ▸ own)
    · exact .inr ⟨id,posted,assigned,.inr ((first.sched c).threadId s ▸ own)⟩
  endpoints e := by
    obtain ⟨f,same,worked⟩ := first.endpoints e
    obtain ⟨g,same',worked'⟩ := second.endpoints e
    refine ⟨g ∘ f,by rw [same', same, Option.map_map],?_⟩
    intro ep found
    exact (worked ep found).trans (worked' (f ep) (by rw [same, found]; rfl))

theorem Works.endpoint (works : x.Works y cpu scope) (found : x.channels.endpoint? e = some ep) :
    ∃ ep', y.channels.endpoint? e = some ep' ∧ ep.Worked scope e ep' := by
  obtain ⟨f,same,worked⟩ := works.endpoints e
  exact ⟨f ep,by rw [same, found]; rfl,worked ep found⟩

theorem Works.before (works : x.Works y cpu scope) (found : y.channels.endpoint? e = some ep') :
    ∃ ep, x.channels.endpoint? e = some ep ∧ ep.Worked scope e ep' := by
  obtain ⟨_,same,worked⟩ := works.endpoints e
  obtain ⟨ep,before,rfl⟩ := map_eq_some_iff.mp (same.symm.trans found)
  exact ⟨ep,before,worked ep before⟩

section
variable (x : Executive M cfg)

theorem Works.refl : x.Works x cpu scope := (Rouses.refl x).works

theorem works_noteResidence (cpu : Fin cfg.maxCpus) : x.Works (x.noteResidence cpu) cpu scope := by
  unfold noteResidence
  split
  · exact .refl x
  rename_i slot running
  split
  · exact .refl x
  rename_i own
  refine .of_channels rfl (fun _ => .refl _) (fun _ => le_rfl) ?_ (fun _ _ => .inl rfl)
  intro c s
  by_cases here : c = cpu
  · subst here
    by_cases same : s = slot
    · subst same
      exact .inr ⟨rfl,running,by simpa using own⟩
    · exact .inl (by simp [same])
  · exact .inl (by simp [Function.update_of_ne here])

theorem works_mintTxn (cpu c : Fin cfg.maxCpus) : x.Works (x.mintTxn cpu) c scope := by
  refine .of_channels rfl (fun _ => .refl _) ?_ (fun _ _ => .inl rfl) (fun _ _ => .inl rfl)
  intro other
  by_cases same : other = cpu
  · subst same
    simp [mintTxn]
  · simp [mintTxn, same]

theorem noteResidence_channels (cpu : Fin cfg.maxCpus) : (x.noteResidence cpu).channels = x.channels := by
  obtain ⟨_,same⟩ := x.noteResidence_eq cpu
  rw [same]

theorem endpoint?_alterEndpoint (e e' : EndpointId) (f : Endpoint M cfg → Endpoint M cfg) :
    (x.alterEndpoint e f).channels.endpoint? e' =
      if e' = e then (x.channels.endpoint? e').map f else x.channels.endpoint? e' :=
  x.channels.endpoint?_alterEndpoint e e' f

theorem works_alterEndpoint (worked : ∀ old, x.channels.endpoint? e = some old → old.Worked scope e (f old)) :
    x.Works (x.alterEndpoint e f) cpu scope := by
  refine ⟨fun _ => .refl _,fun _ => le_rfl,fun _ _ => .inl rfl,fun _ _ => .inl rfl,?_⟩
  intro e'
  rw [endpoint?_alterEndpoint]
  by_cases same : e' = e
  · subst same
    exact ⟨f,if_pos rfl,worked⟩
  · exact ⟨id,by simp [same],fun ep _ => .refl ep⟩

theorem works_setReceivers (receiver : Option ThreadId)
    (within : ∀ e ∈ endpoints, e ∈ scope.listened) : x.Works (x.setReceivers endpoints receiver) cpu scope := by
  induction endpoints generalizing x with
  | nil => exact .refl x
  | cons e rest ih =>
    have written : x.Works (x.alterEndpoint e (·.setBlockedReceiver receiver)) cpu scope :=
      works_alterEndpoint x fun old _ => (Endpoint.Worked.refl old).receiver (.inr (within e mem_cons_self)) _
    exact written.trans (ih _ fun e' mem => within e' (mem_cons_of_mem _ mem))

end

theorem endpoint?_setEndpoint (found : x.channels.endpoint? e = some ep) (new : Endpoint M cfg) :
    (x.setEndpoint e new).channels.endpoint? e = some new := by
  rw [setEndpoint, endpoint?_alterEndpoint, if_pos rfl, found]
  rfl

theorem works_setEndpoint {new : Endpoint M cfg} (found : x.channels.endpoint? e = some ep)
    (worked : ep.Worked scope e new) : x.Works (x.setEndpoint e new) cpu scope := by
  apply works_alterEndpoint
  intro _ same
  cases found.symm.trans same
  exact worked

theorem setReceivers_receiver (mem : e ∈ endpoints) (found : x.channels.endpoint? e = some ep) :
    (x.setReceivers endpoints receiver).channels.endpoint? e = some (ep.setBlockedReceiver receiver) := by
  -- once written, the receiver stays through the rest of the list
  have stays : ∀ (rest : List EndpointId) (y : Executive M cfg),
      y.channels.endpoint? e = some (ep.setBlockedReceiver receiver) →
      (y.setReceivers rest receiver).channels.endpoint? e = some (ep.setBlockedReceiver receiver) := by
    intro rest
    induction rest with
    | nil => exact fun _ written => written
    | cons first rest ih =>
      intro _ written
      apply ih
      rw [endpoint?_alterEndpoint]
      split
      · rw [written]
        rfl
      · exact written
  induction endpoints generalizing x with
  | nil => cases mem
  | cons first rest ih =>
    by_cases same : e = first
    · refine stays rest (x.alterEndpoint first (·.setBlockedReceiver receiver)) ?_
      rw [endpoint?_alterEndpoint, if_pos same, found]
      rfl
    rcases mem_cons.mp mem with here | later
    · exact absurd here same
    apply ih later
    rw [endpoint?_alterEndpoint, if_neg same]
    exact found

theorem scan_found (found : scan t index live endpoints = .found place e message rest) :
    e ∈ endpoints ∧ ∃ endpoint, t.endpoint? e = some endpoint ∧ endpoint.dequeue = some (message, rest) := by
  induction endpoints generalizing index live with
  | nil => cases found
  | cons first others ih =>
    rw [scan] at found
    split at found
    · cases found
    rename_i endpoint here
    split at found
    · rename_i taken
      cases found
      exact ⟨mem_cons_self,endpoint,here,taken⟩
    · obtain ⟨mem,rest⟩ := ih found
      exact ⟨mem_cons_of_mem _ mem,rest⟩

theorem scan_quiet (quiet : scan t index live endpoints = .quiet live') :
    ∀ e ∈ endpoints, ∃ ep, t.endpoint? e = some ep ∧ ep.queue.items = [] := by
  induction endpoints generalizing index live with
  | nil => exact nofun
  | cons first rest ih =>
    rw [scan] at quiet
    split at quiet
    · cases quiet
    rename_i endpoint found
    split at quiet
    · cases quiet
    rename_i empty
    intro e mem
    rcases mem_cons.mp mem with rfl | later
    · exact ⟨endpoint,found,dequeue_eq_none.mp empty⟩
    · exact ih quiet e later

/-- A message that is returned stood in one of these queues, and no reply is. -/
structure Took (x : Executive M cfg) (sources : List EndpointId) (outcome : Outcome M) : Prop where
  message : ∀ m, outcome.message? = some m →
    ∃ e ∈ sources, ∃ ep, x.channels.endpoint? e = some ep ∧ m ∈ ep.queue.items
  reply : outcome.reply? = none

/-- An operation returns, or parks its thread. A thread that parks to wait for
    messages is registered with every endpoint it listens to, and those are empty. -/
inductive Does (x : Executive M cfg) (cpu : Fin cfg.maxCpus) (scope : Scope M) (sources : List EndpointId) :
    Outcome M × Executive M cfg → Prop where
  | returns {outcome : Outcome M} {y : Executive M cfg} :
      x.Works y cpu scope → x.Took sources outcome → Does x cpu scope sources (outcome, y)
  | parks {y : Executive M cfg} {slot : Nat} {target : Option Nat} {wait : Wait} :
      scope.parks → x.Works y cpu scope → (x.sched cpu).current = some slot → wait.call? = none →
      (∀ e ∈ wait.listens, e ∈ scope.listened ∧ ∃ ep, y.channels.endpoint? e = some ep ∧ ep.queue.items = [] ∧
        ep.blockedReceiver = (x.sched cpu).threadId slot) →
      Does x cpu scope sources (.parked, y.onCpu cpu (·.setContext slot (.parking target wait)))

theorem Does.silent (works : x.Works y cpu scope) (message : out.message? = none)
    (reply : out.reply? = none) : x.Does cpu scope sources (out, y) :=
  .returns works ⟨fun _ took => (nomatch message.symm.trans took),reply⟩

theorem Does.takes (found : x.channels.endpoint? e = some ep) (taken : ep.dequeue = some (message, rest))
    (onward : (x.setEndpoint e rest).Rouses y) (mem : e ∈ sources) (took : out.message? = some message)
    (reply : out.reply? = none) : x.Does cpu scope sources (out, y) := by
  have first : x.Works (x.setEndpoint e rest) cpu scope := works_setEndpoint found (worked_dequeue taken)
  refine .returns (first.trans onward.works) ⟨?_,reply⟩
  intro _ same
  cases took.symm.trans same
  obtain ⟨_,_,items⟩ := dequeue_eq_some taken
  exact ⟨e,mem,ep,found,by simp [items]⟩

theorem Does.after (first : x.Works y cpu scope) (old : ∀ e ∈ sources, ∀ m, ¬scope.news e m)
    (second : y.Does cpu scope sources r) : x.Does cpu scope sources r := by
  cases second with
  | returns works took =>
    refine .returns (first.trans works) ⟨?_,took.reply⟩
    intro m got
    obtain ⟨e,mem,_,found,queued⟩ := took.message m got
    obtain ⟨ep',before,worked⟩ := first.before found
    exact ⟨e,mem,ep',before,(worked.queue m queued).resolve_left (old e mem m)⟩
  | parks may works running free registered =>
    rw [(first.sched cpu).current] at running
    refine .parks may (first.trans works) running free ?_
    rw [← (first.sched cpu).threadId]
    exact registered

theorem does_park (may : scope.parks) (works : x.Works y cpu scope)
    (free : wait.call? = none) (deaf : wait.listens = []) :
    x.Does cpu scope sources (.parked, y.park cpu target wait) := by
  unfold park
  split
  · exact .silent works rfl rfl
  rename_i running
  rw [(works.sched cpu).current] at running
  exact .parks may works running free (by simp [deaf])

theorem awaitEvent_does (x : Executive M cfg) (may : scope.parks) (port : PortId) :
    x.Does cpu scope sources (x.awaitEvent cpu port) := by
  unfold awaitEvent
  split
  · exact .silent (.refl x) rfl rfl
  split
  · exact .silent (x.rouses_setPort port _).works rfl rfl
  split
  · exact .silent (.refl x) rfl rfl
  · exact does_park may (x.rouses_setPort port _).works rfl rfl

theorem closeEndpoint_does (x : Executive M cfg) (cpu : Fin cfg.maxCpus) (e : EndpointId) :
    x.Does cpu scope sources (x.closeEndpoint cpu e) := by
  unfold closeEndpoint
  split
  · exact .silent (.refl x) rfl rfl
  · refine .silent (Works.trans (works_alterEndpoint x ?_) (rouses_wakeIfAny _ cpu _).works) rfl rfl
    exact fun _ _ => ⟨fun _ => rfl,fun _ => .inr,fun _ => .inr,.inr (.inr ⟨rfl,id⟩)⟩

theorem guarded {p : Prop} [Decidable p]
    (done : (if p then some r else none) = some (out, y)) : p ∧ r.1 = out ∧ r.2 = y := by
  obtain ⟨yes,same⟩ := ite_none_right_eq_some.mp done
  cases same
  exact ⟨yes,rfl,rfl⟩

section
variable [Stamped M]
variable {x y z : Executive M cfg} {on origin : EndpointId} {response req : M} {caller : Option ThreadId}
  {due : Option Nat} {now later txn : Nat} {a : ExecAction M cfg} {wait : Wait}

section
variable (x : Executive M cfg)

theorem send_does (cpu : Fin cfg.maxCpus) (origin : EndpointId) (message : M) (feeds : origin.peer ∈ scope.fed)
    (new : scope.news origin.peer (setCorrelation message (x.currentCorrelation cpu))) :
    x.Does cpu scope sources (x.send cpu origin message) := by
  unfold send
  split
  · exact .silent (.refl x) rfl rfl
  rename_i found
  split
  · exact .silent (.refl x) rfl rfl
  rename_i filled queued
  have fills : x.Works (x.setEndpoint origin.peer (filled.setBlockedReceiver none)) cpu scope :=
    works_setEndpoint found ((worked_enqueue queued feeds new).receiver (.inl feeds) none)
  exact .silent (fills.trans
    ((rouses_wakeIfAny _ cpu _).trans (rouses_signalEndpointArrival _ cpu _)).works) rfl rfl

theorem awaitMessage_does (may : scope.parks) (caller : Option Nat)
    (free : wait.call? = none) (waits : wait.listens = [on]) (mem : on ∈ scope.listened) :
    x.Does cpu scope [on] (x.awaitMessage cpu on caller wait) := by
  unfold awaitMessage
  split
  · exact .silent (.refl x) rfl rfl
  rename_i endpoint found
  split
  · rename_i taken
    exact .takes found taken ((rouses_unblockLocal _ cpu caller).trans (rouses_adoptCorrelation _ cpu _))
      mem_cons_self rfl rfl
  rename_i empty
  split
  · exact .silent (.refl x) rfl rfl
  split
  · exact .silent (.refl x) rfl rfl
  rename_i me own
  obtain ⟨_,running,mine⟩ := bind_eq_some_iff.mp own
  have works : x.Works (x.setEndpoint on (endpoint.setBlockedReceiver (some me))) cpu scope :=
    works_setEndpoint found ((Endpoint.Worked.refl endpoint).receiver (.inr mem) _)
  rw [park]
  simp only [show (x.setEndpoint on (endpoint.setBlockedReceiver (some me))).sched = x.sched from rfl, running]
  refine .parks may works running free ?_
  rw [waits]
  intro _ listens
  obtain rfl := mem_singleton.mp listens
  have quiet : endpoint.queue.items = [] := dequeue_eq_none.mp empty
  exact ⟨mem,_,endpoint?_setEndpoint found _,quiet,mine.symm⟩

theorem tryReceive_does (cpu : Fin cfg.maxCpus) (on : EndpointId) : x.Does cpu scope [on] (x.tryReceive cpu on) := by
  unfold tryReceive
  split
  · exact .silent (.refl x) rfl rfl
  rename_i found
  split
  · rename_i taken
    exact .takes found taken (rouses_adoptCorrelation _ cpu _) mem_cons_self rfl rfl
  · exact .silent (.refl x) rfl rfl

theorem awaitAny_does (may : scope.parks) (within : ∀ e ∈ endpoints, e ∈ scope.listened)
    (due : Option Nat) (now : Nat) : x.Does cpu scope endpoints (x.awaitAny cpu endpoints due now) := by
  unfold awaitAny
  split
  · exact .silent (.refl x) rfl rfl
  · rename_i found
    obtain ⟨mem,_,here,taken⟩ := scan_found found
    exact .takes here taken (rouses_adoptCorrelation _ cpu _) mem rfl rfl
  · exact .silent (.refl x) rfl rfl
  rename_i quiet
  split
  · exact .silent (.refl x) rfl rfl
  split
  · exact .silent (.refl x) rfl rfl
  rename_i me own
  obtain ⟨_,running,mine⟩ := bind_eq_some_iff.mp own
  have rouses := rouses_setCurrentDeadline x cpu due
  have works : x.Works ((x.setCurrentDeadline cpu due).setReceivers endpoints (some me)) cpu scope :=
    rouses.works.trans (works_setReceivers _ _ within)
  rw [park, (works.sched cpu).current, running]
  refine .parks may works running rfl ?_
  intro e listens
  obtain ⟨_,found,empty⟩ := scan_quiet quiet e listens
  exact ⟨within e listens,_,setReceivers_receiver listens (rouses.channels ▸ found),empty,mine.symm⟩

theorem resumeAny_does (endpoints : List EndpointId) (due : Option Nat) (now later : Nat) :
    x.Does cpu (.waiting M endpoints) endpoints (x.resumeAny cpu endpoints due now later) := by
  have works : x.Works ((x.setReceivers endpoints none).setCurrentDeadline cpu none) cpu (.waiting M endpoints) :=
    (works_setReceivers x none fun _ => id).trans (rouses_setCurrentDeadline _ cpu none).works
  unfold resumeAny
  split
  · exact .silent works rfl rfl
  · exact .after works (fun _ _ _ => id) (awaitAny_does _ trivial (fun _ => id) due later)

end

def calling (origin : EndpointId) (request : M) (txn : Nat) : Scope M where
  fed := [origin.peer]
  listened := []
  news e m := e = origin.peer ∧ ∃ correlation, m = setCorrelation (setTxn request txn) correlation
  pends e p := e = origin ∧ p.2 = txn
  parks := True

section
variable (x : Executive M cfg)

theorem finishCall_works (origin : EndpointId) (txn : Nat) (due : Option Nat)
    (now : Nat) : x.Works (x.finishCall origin txn due now).2 cpu scope := by
  unfold finishCall
  split
  · exact .refl x
  rename_i found
  split
  · rename_i taken
    exact works_setEndpoint found (worked_takeReply taken).answered
  · split <;> exact works_setEndpoint found ⟨id,nofun,fun _ => .inr,.inr (.inr ⟨rfl,id⟩)⟩

section
variable (cpu : Fin cfg.maxCpus)

theorem placeCall_cases (caller : Nat) (id : ThreadId)
    (origin : EndpointId) (req : M) (txn : Nat) (due : Option Nat) :
    (∃ error, x.placeCall cpu caller id origin req txn due = (.failed error, x)) ∨
    ∃ destination z, x.channels.endpoint? origin.peer = some destination ∧
      x.Works z cpu (calling origin req txn) ∧ z.nextTxn = x.nextTxn ∧ x.placeCall cpu caller id origin req txn due =
        (.parked, z.enterCall cpu caller origin txn due destination.blockedReceiver) := by
  unfold placeCall
  split
  · rename_i src destination here there
    split
    · exact .inl ⟨_,rfl⟩
    split
    · exact .inl ⟨_,rfl⟩
    rename_i filled queued
    have feeds : origin.peer ∈ (calling origin req txn).fed := mem_cons_self
    have fills : x.Works (x.setEndpoint origin.peer (filled.setBlockedReceiver none)) cpu
        (calling origin req txn) :=
      works_setEndpoint there ((worked_enqueue queued feeds ⟨rfl,_,rfl⟩).receiver (.inl feeds) none)
    have still : (x.setEndpoint origin.peer (filled.setBlockedReceiver none)).channels.endpoint? origin =
        some src := by
      rw [setEndpoint, endpoint?_alterEndpoint, if_neg origin.peer_ne.symm]
      exact here
    have waits : src.Worked (calling origin req txn) origin (src.setPendingCaller (some (id, txn))) := by
      refine ⟨fun gone => gone,?_,fun _ => .inr,.inr (.inr ⟨rfl,fun empty => empty⟩)⟩
      intro _ pends
      cases pends
      exact .inl ⟨rfl,rfl⟩
    have onward := (rouses_signalEndpointArrival ((x.setEndpoint origin.peer
        (filled.setBlockedReceiver none)).setEndpoint origin (src.setPendingCaller (some (id, txn)))) cpu
        (x.channels.endpointObject origin.peer)).trans
      ((rouses_changeDepth _ cpu caller (· + 1)).trans (rouses_setCurrentDeadline _ cpu due))
    exact .inr ⟨destination,_,there,(fills.trans (works_setEndpoint still waits)).trans onward.works,
      onward.nextTxn,rfl⟩
  · exact .inl ⟨_,rfl⟩

theorem beginCall_cases (origin : EndpointId) (req : M) (due : Option Nat) (now : Nat) :
    (∃ error y, x.beginCall cpu origin req due now = (.failed error, y) ∧ ∀ scope, x.Works y cpu scope) ∨
    ∃ caller destination z, (x.sched cpu).current = some caller ∧
      x.channels.endpoint? origin.peer = some destination ∧
      x.Works z cpu (calling origin req (x.nextTxn cpu)) ∧ z.nextTxn = (x.mintTxn cpu).nextTxn ∧
      x.beginCall cpu origin req due now =
        (.parked, z.enterCall cpu caller origin (x.nextTxn cpu) due destination.blockedReceiver) := by
  unfold beginCall
  split
  · exact .inl ⟨_,_,rfl,fun _ => .refl x⟩
  rename_i caller running
  split
  · exact .inl ⟨_,_,rfl,fun _ => .refl x⟩
  rename_i id _
  split
  · exact .inl ⟨_,_,rfl,fun _ => .refl x⟩
  split
  · exact .inl ⟨_,_,rfl,fun _ => .refl x⟩
  rcases (x.mintTxn cpu).placeCall_cases cpu caller id origin req (x.nextTxn cpu) due with
    ⟨error,refused⟩ | ⟨destination,z,found,works,txns,placed⟩
  · exact .inl ⟨error,_,refused,fun _ => works_mintTxn x cpu cpu⟩
  · exact .inr ⟨caller,destination,z,running,found,(works_mintTxn x cpu cpu).trans works,txns,placed⟩

theorem callUntil_cases (origin : EndpointId) (req : M) (due : Option Nat) (now : Nat) :
    (∃ error y, x.callUntil cpu origin req due now = (.failed error, y) ∧
      ∀ scope, (x.noteResidence cpu).Works y cpu scope) ∨
    ∃ caller destination z, (x.sched cpu).current = some caller ∧
      x.channels.endpoint? origin.peer = some destination ∧
      (x.noteResidence cpu).Works z cpu (calling origin req (x.nextTxn cpu)) ∧ z.nextTxn = (x.mintTxn cpu).nextTxn ∧
      x.callUntil cpu origin req due now =
        (.parked, z.enterCall cpu caller origin (x.nextTxn cpu) due destination.blockedReceiver) := by
  obtain ⟨_,same⟩ := x.noteResidence_eq cpu
  have cases := (x.noteResidence cpu).beginCall_cases cpu origin req due now
  rw [← callUntil] at cases
  rw [same] at cases ⊢
  exact cases

theorem resumeCall_works (caller : Nat) (origin : EndpointId)
    (txn : Nat) (due : Option Nat) (callee : Option Nat) (now : Nat) :
    x.Works (x.resumeCall cpu caller origin txn due callee now).2 cpu scope := by
  have back : x.Rouses (((x.changeDepth cpu caller (· - 1)).setCurrentDeadline cpu none).giveBack cpu callee) :=
    (rouses_changeDepth x cpu caller _).trans
      ((rouses_setCurrentDeadline _ cpu none).trans (rouses_giveBack _ cpu callee))
  unfold resumeCall
  split
  · rename_i y expired
    obtain ⟨id,_,taken⟩ := map_eq_some_iff.mp expired
    have took := rouses_takeExpired
      (((x.changeDepth cpu caller (· - 1)).setCurrentDeadline cpu none).giveBack cpu callee) id
    rw [taken] at took
    exact (back.trans took).works.trans (works_alterEndpoint y fun old _ => (Endpoint.Worked.refl old).answered)
  · exact back.works.trans (finishCall_works _ origin txn due now)

end

theorem resumeWait_does (slot : Nat) (wait : Wait) (now later : Nat) :
    x.Does cpu (.waiting M wait.listens) wait.listens (x.resumeWait cpu slot wait now later) ∨
    wait.call?.isSome ∧ x.Works (x.resumeWait cpu slot wait now later).2 cpu (.waiting M wait.listens) := by
  cases wait with
  | receive | replyReceive => exact .inl (x.awaitMessage_does trivial none rfl rfl mem_cons_self)
  | receiveAny endpoints due => exact .inl (x.resumeAny_does endpoints due now later)
  | call origin txn due callee => exact .inr ⟨rfl,x.resumeCall_works cpu slot origin txn due callee now⟩
  | reply | address => exact .inl (.silent (.refl x) rfl rfl)
  | port port => exact .inl (x.awaitEvent_does trivial port)

end

theorem resume_eq_some (resumed : x.resume cpu now later = some (out, y)) :
    ∃ slot wait, (x.sched cpu).current = some slot ∧ x.frame? cpu slot = some (.parked wait) ∧
      (x.onCpu cpu (·.setContext slot .outside)).resumeWait cpu slot wait now later = (out, y) := by
  unfold resume at resumed
  split at resumed
  · cases resumed
  rename_i slot running
  split at resumed
  · rename_i wait parked
    exact ⟨slot,wait,running,parked,Option.some.inj resumed⟩
  · cases resumed

/-- What a reply adds to the endpoint it goes to: the response as it is, or
    stamped for the caller pending there. -/
def Issued (x : Executive M cfg) (on : EndpointId) (response : M) (e : EndpointId) (m : M) : Prop :=
  e = on.peer ∧ ∃ endpoint, x.channels.endpoint? on.peer = some endpoint ∧
    (endpoint.pendingCaller = none ∧ m = response ∨
      ∃ caller txn, endpoint.pendingCaller = some (caller, txn) ∧ m = setTxn response txn)

theorem deliverReply_works (done : x.deliverReply on response = .ok (caller, y)) (feeds : on.peer ∈ scope.fed)
    (issued : ∀ m, x.Issued on response on.peer m → scope.news on.peer m) :
    x.Works y cpu scope ∧ ∀ ep, y.channels.endpoint? on.peer = some ep → ep.pendingCaller = none := by
  have after : ∀ {old new : Endpoint M cfg}, x.channels.endpoint? on.peer = some old → old.Worked scope on.peer new →
      new.pendingCaller = none → x.Works (x.setEndpoint on.peer new) cpu scope ∧ ∀ ep,
        (x.setEndpoint on.peer new).channels.endpoint? on.peer = some ep → ep.pendingCaller = none := by
    intro _ new found worked free
    refine ⟨works_setEndpoint found worked,?_⟩
    intro _ there
    cases (endpoint?_setEndpoint found new).symm.trans there
    exact free
  unfold deliverReply at done
  split at done
  · cases done
  rename_i endpoint found
  split at done
  · rename_i free
    split at done
    · cases done
      obtain ⟨_,same⟩ := endpoint.takeAbandoned_snd
      rw [same]
      exact after found ⟨id,fun _ => .inr,fun _ => .inr,.inl feeds⟩ free
    split at done
    · cases done
    rename_i queued
    cases done
    obtain ⟨_,same,_⟩ := enqueue_eq_ok queued
    exact after found (worked_enqueue queued feeds (issued _ ⟨rfl,endpoint,found,.inl ⟨free,rfl⟩⟩))
      (same ▸ free)
  · rename_i id txn waiting
    split at done
    · cases done
    rename_i queued
    cases done
    have stamped := issued _ ⟨rfl,endpoint,found,.inr ⟨id,txn,waiting,rfl⟩⟩
    exact after found (worked_enqueue queued feeds stamped).answered rfl

/-- A reply is refused with nothing done, or it is delivered and its sender goes on. -/
inductive Answers (x : Executive M cfg) (cpu : Fin cfg.maxCpus) (on : EndpointId) (response : M) (scope : Scope M)
    (sources : List EndpointId) : Outcome M × Executive M cfg → Prop where
  | refused {error : KError} : x.deliverReply on response = .error error →
      Answers x cpu on response scope sources (.failed error, x)
  | delivered {caller : Option ThreadId} {y : Executive M cfg} {r : Outcome M × Executive M cfg} :
      x.deliverReply on response = .ok (caller, y) → y.Does cpu scope sources r →
      Answers x cpu on response scope sources r

theorem reply_answers (x : Executive M cfg) (cpu : Fin cfg.maxCpus) (on : EndpointId) (response : M)
    (may : scope.parks) : (x.noteResidence cpu).Answers cpu on response scope [] (x.reply cpu on response) := by
  unfold reply
  split
  · rename_i refused
    exact .refused refused
  · rename_i delivered
    exact .delivered delivered (.silent (.refl _) rfl rfl)
  rename_i delivered
  refine .delivered delivered ?_
  split
  · exact does_park may (.refl _) rfl rfl
  · rename_i located
    exact .silent (rouses_post located).works rfl rfl
  · exact .silent (.refl _) rfl rfl

theorem replyAndContinue_answers (x : Executive M cfg) (cpu : Fin cfg.maxCpus) (on : EndpointId) (response : M) :
    x.Answers cpu on response scope [] (x.replyAndContinue cpu on response) := by
  unfold replyAndContinue
  split
  · rename_i refused
    exact .refused refused
  · rename_i delivered
    exact .delivered delivered (.silent (rouses_wakeIfAny _ cpu _).works rfl rfl)

theorem replyReceive_answers (x : Executive M cfg) (cpu : Fin cfg.maxCpus) (on : EndpointId) (response : M)
    (may : scope.parks) (mem : on ∈ scope.listened) (old : ∀ m, ¬scope.news on m) :
    (x.sched cpu).currentId = none ∧ x.replyReceive cpu on response = (.failed .badHandle, x.noteResidence cpu) ∨
    (x.noteResidence cpu).Answers cpu on response scope [on] (x.replyReceive cpu on response) := by
  have waits : ∀ (y : Executive M cfg) (caller : Option Nat),
      y.Does cpu scope [on] (y.awaitMessage cpu on caller (.replyReceive on)) :=
    fun y caller => y.awaitMessage_does may caller rfl rfl mem
  unfold replyReceive
  split
  · rename_i idle
    exact .inl ⟨idle,rfl⟩
  refine .inr ?_
  split
  · rename_i refused
    exact .refused refused
  · rename_i delivered
    exact .delivered delivered (waits _ none)
  rename_i delivered
  refine .delivered delivered ?_
  split
  · exact waits _ _
  · rename_i located
    refine .after (rouses_post located).works ?_ (waits _ none)
    simpa using old
  · exact waits _ none

def News (x : Executive M cfg) : ExecAction M cfg → EndpointId → M → Prop
  | .send cpu origin message, e, m =>
    e = origin.peer ∧ m = setCorrelation message (x.currentCorrelation cpu)
  | .reply _ on response, e, m | .replyAndContinue _ on response, e, m | .replyReceive _ on response, e, m =>
    x.Issued on response e m
  | _, _, _ => False

def scopeOf (x : Executive M cfg) (a : ExecAction M cfg) (parks : Prop) : Scope M :=
  ⟨feeds a, awaits a, x.News a, fun _ _ => False, parks⟩

theorem Answers.does (answers : x.Answers cpu on response scope sources r)
    (feeds : on.peer ∈ scope.fed) (issued : ∀ m, x.Issued on response on.peer m → scope.news on.peer m)
    (old : ∀ e ∈ sources, ∀ m, ¬scope.news e m) : x.Does cpu scope sources r := by
  cases answers with
  | refused => exact .silent (.refl x) rfl rfl
  | delivered done onward => exact .after (deliverReply_works done feeds issued).1 old onward

theorem perform_does (done : x.perform a = some (out, y)) (own : operator a = some cpu)
    (other : ∀ cpu origin req due now, a ≠ .callUntil cpu origin req due now) :
    x.atEntry cpu ∧ (x.Does cpu (x.scopeOf a False) (x.listens a) (out, y) ∨
      (x.noteResidence cpu).Does cpu (x.scopeOf a True) (x.listens a) (out, y)) := by
  have noted : ∀ on response m, (x.noteResidence cpu).Issued on response on.peer m → x.Issued on response on.peer m := by
    intro on response m issued
    rwa [Issued, noteResidence_channels] at issued
  cases a with cases own <;> obtain ⟨entry,rfl,rfl⟩ := guarded done
  | send c origin message => exact ⟨entry,.inl (x.send_does cpu origin message mem_cons_self ⟨rfl,rfl⟩)⟩
  | receive => exact ⟨entry,.inr (awaitMessage_does _ trivial none rfl rfl mem_cons_self)⟩
  | tryReceive c on => exact ⟨entry,.inl (x.tryReceive_does cpu on)⟩
  | receiveAny c endpoints due now =>
    refine ⟨entry,.inr ?_⟩
    dsimp only [receiveAny]
    split
    · exact .silent (.refl _) rfl rfl
    · exact awaitAny_does _ trivial (fun _ => id) due now
  | callUntil => exact absurd rfl (other _ _ _ _ _)
  | reply c on response =>
    exact ⟨entry,.inr ((x.reply_answers cpu on response trivial).does mem_cons_self (noted on response) nofun)⟩
  | replyAndContinue c on response =>
    exact ⟨entry,.inl ((x.replyAndContinue_answers cpu on response).does mem_cons_self (fun _ => id) nofun)⟩
  | replyReceive c on response =>
    have old : ∀ m, ¬(x.scopeOf (.replyReceive cpu on response) True).news on m :=
      fun _ new => on.peer_ne new.1.symm
    refine ⟨entry,.inr ?_⟩
    rcases x.replyReceive_answers cpu on response trivial mem_cons_self old with ⟨_,idle⟩ | answers
    · rw [idle]
      exact .silent (.refl _) rfl rfl
    · exact answers.does mem_cons_self (noted on response) (by simpa using old)
  | closeEndpoint c e => exact ⟨entry,.inl (x.closeEndpoint_does cpu e)⟩

end
end Executive
end Tessera
