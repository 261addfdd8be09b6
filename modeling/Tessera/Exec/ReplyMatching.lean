import Tessera.Exec.CallEffects

/-!
Which reply a call gets. A call is named by the processor it is made on and the
transaction minted there, and a letter is a message with the call its sender
meant it to answer; the kernel never looks at that mark. The kernel matches a
reply to a call by the endpoint's pending caller and by the transaction alone,
so the match is right only in runs that keep to the conditions stated here.
-/
namespace Tessera
open Executive Option Stamped

structure Letter (M : Type) (cfg : Config) where
  body : M
  answers : Option (CallId cfg)
  deriving DecidableEq

instance {M : Type} {cfg : Config} [Stamped M] : Stamped (Letter M cfg) where
  txn m := txn m.body
  correlation m := correlation m.body
  setTxn m t := { m with body := setTxn m.body t }
  setCorrelation m c := { m with body := setCorrelation m.body c }
  txn_setTxn m t := txn_setTxn m.body t
  txn_setCorrelation m c := txn_setCorrelation m.body c

/-- The executive together with the request of each endpoint that no reply has
    been issued for. -/
structure CallWorld (M : Type) (cfg : Config) where
  exec : Executive (Letter M cfg) cfg
  unanswered : EndpointId → Option (CallId cfg)

namespace CallWorld
variable {M : Type} {cfg : Config} [Stamped M]
open Transition

section
variable (w : CallWorld M cfg) (a : ExecAction (Letter M cfg) cfg)

def new (ports : PortTable cfg) : CallWorld M cfg := ⟨.new ports, fun _ => none⟩

def record (outcome : Outcome (Letter M cfg)) : EndpointId → Option (CallId cfg) :=
  match a, outcome with
  | .callUntil cpu origin _ _ _, .parked =>
    Function.update w.unanswered origin (some ⟨cpu, w.exec.nextTxn cpu⟩)
  | a, _ =>
    match w.exec.repliesTo a with
    | some e => Function.update w.unanswered e none
    | none => w.unanswered

def perform (w : CallWorld M cfg) (a : ExecAction (Letter M cfg) cfg) :
    Option (Outcome (Letter M cfg) × CallWorld M cfg) :=
  (w.exec.perform a).map fun (outcome, x) => (outcome, ⟨x, w.record a outcome⟩)

def Step (w' : CallWorld M cfg) : Prop :=
  (w.perform a).map (·.2) = some w'

/-- Plain messages and requests answer nothing, and a reply answers the open
    request of the endpoint it goes to. A message that is not stamped as a reply
    carries no transaction of a call in progress where it goes. A call is placed
    with no request of its endpoint open, and its transaction is in use at
    neither end. -/
def Mannered : ExecAction (Letter M cfg) cfg → Prop
  | .send _ origin message =>
    message.answers = none ∧ ∀ id ∈ w.exec.callsOn origin.peer, id.txn ≠ Stamped.txn message
  | .callUntil cpu origin request _ _ =>
    request.answers = none ∧ w.unanswered origin = none ∧
      (∀ id ∈ w.exec.callsOn origin, id.txn ≠ w.exec.nextTxn cpu) ∧
      (∀ id ∈ w.exec.callsOn origin.peer, id.txn ≠ w.exec.nextTxn cpu) ∧
      ∀ ep ∈ w.exec.channels.endpoint? origin, ∀ m ∈ ep.queue.items, Stamped.txn m ≠ w.exec.nextTxn cpu
  | .reply _ on response | .replyAndContinue _ on response | .replyReceive _ on response =>
    response.answers = w.unanswered on.peer ∧ ∀ id ∈ w.exec.callsOn on.peer, id.txn ≠ Stamped.txn response
  | _ => True

/-- Nobody takes messages from an endpoint while a call is in progress on it. -/
def Orderly : Prop :=
  (∀ e ∈ w.exec.listens a, w.exec.callsOn e = []) ∧ w.Mannered a

instance (w : CallWorld M cfg) (a : ExecAction (Letter M cfg) cfg) : Decidable (w.Mannered a) := by
  rcases a <;> dsimp only [Mannered] <;> infer_instance

instance (w : CallWorld M cfg) (a : ExecAction (Letter M cfg) cfg) : Decidable (w.Orderly a) :=
  inferInstanceAs (Decidable (_ ∧ _))

/-- Where a letter is queued, a call in progress with its transaction is the one
    it answers, and the call it answers can only be in progress there. -/
def Fits (e : EndpointId) (m : Letter M cfg) : Prop :=
  (∀ id ∈ w.exec.callsOn e, txn m = id.txn → m.answers = some id) ∧
    ∀ id, m.answers = some id → id.txn < w.exec.nextTxn id.cpu ∧ ∀ e', id ∈ w.exec.callsOn e' → e' = e

structure Matched (w : CallWorld M cfg) : Prop where
  queued : ∀ e ep m, w.exec.channels.endpoint? e = some ep → m ∈ ep.queue.items → w.Fits e m
  pending : ∀ e ep p, w.exec.channels.endpoint? e = some ep → ep.pendingCaller = some p →
    ∃ id, w.unanswered e = some id ∧ id.txn = p.2
  unanswered : ∀ e id, w.unanswered e = some id → id.txn < w.exec.nextTxn id.cpu ∧
    (∀ e', id ∈ w.exec.callsOn e' → e' = e) ∧ ∀ other ∈ w.exec.callsOn e, other.txn = id.txn → other = id
  calls : ∀ e id, id ∈ w.exec.callsOn e → id.txn < w.exec.nextTxn id.cpu

end

variable {y : Executive (Letter M cfg) cfg} {news : EndpointId → Letter M cfg → Prop} {e : EndpointId}
  {w w' : CallWorld M cfg} {unanswered : EndpointId → Option (CallId cfg)} {m : Letter M cfg}
  {a : ExecAction (Letter M cfg) cfg}

omit [Stamped M] in
theorem callsOn_of_proceeds {x : Executive (Letter M cfg) cfg} (step : x.Proceeds y news) {id : CallId cfg}
    (calling : id ∈ y.callsOn e) : id ∈ x.callsOn e := by
  obtain ⟨slot,call⟩ := mem_callsOn.mp calling
  exact mem_callsOn.mpr ⟨slot,step.calls id.cpu slot _ call⟩

theorem Fits.proceeds (step : w.exec.Proceeds y news) (fits : w.Fits e m) :
    (⟨y, unanswered⟩ : CallWorld M cfg).Fits e m := by
  constructor
  · intro id calling
    exact fits.1 id (callsOn_of_proceeds step calling)
  · intro id answers
    obtain ⟨old,home⟩ := fits.2 id answers
    exact ⟨old.trans_le (step.txns id.cpu),fun e' calling => home e' (callsOn_of_proceeds step calling)⟩

theorem Matched.proceeds (matched : w.Matched) (step : w.exec.Proceeds y news)
    (fits : ∀ e m, news e m → w.Fits e m) (forgotten : ∀ e, unanswered e = w.unanswered e ∨
      unanswered e = none ∧ ∀ ep, y.channels.endpoint? e = some ep → ep.pendingCaller = none) :
    (⟨y, unanswered⟩ : CallWorld M cfg).Matched where
  queued e ep m found mem := by
    rcases step.queues e ep m found mem with new | ⟨old,before,within⟩
    · exact (fits e m new).proceeds step
    · exact (matched.queued e old m before within).proceeds step
  pending e ep p found waiting := by
    rcases forgotten e with same | ⟨_,free⟩
    · obtain ⟨old,before,waited⟩ := step.pending e ep p found waiting
      obtain ⟨id,here,txn⟩ := matched.pending e old p before waited
      exact ⟨id,same.trans here,txn⟩
    · rw [free ep found] at waiting
      cases waiting
  unanswered e id here := by
    rcases forgotten e with same | ⟨none,_⟩
    · obtain ⟨old,home,sole⟩ := matched.unanswered e id (same ▸ here)
      exact ⟨old.trans_le (step.txns id.cpu),fun e' calling => home e' (callsOn_of_proceeds step calling),
        fun other calling => sole other (callsOn_of_proceeds step calling)⟩
    · cases none.symm.trans here
  calls e id calling := (matched.calls e id (callsOn_of_proceeds step calling)).trans_le (step.txns id.cpu)

theorem Matched.places (matched : w.Matched) (placed : w.exec.Places y cpu origin req)
    (mannered : w.Mannered (.callUntil cpu origin req due now)) :
    (⟨y, Function.update w.unanswered origin (some ⟨cpu, w.exec.nextTxn cpu⟩)⟩ : CallWorld M cfg).Matched := by
  obtain ⟨plain,closed,unusedHere,unusedThere,unqueued⟩ := mannered
  have calling : ∀ {e : EndpointId} {id : CallId cfg}, id ∈ y.callsOn e →
      id ∈ w.exec.callsOn e ∨ e = origin ∧ id = ⟨cpu, w.exec.nextTxn cpu⟩ := by
    intro e id inCall
    obtain ⟨slot,call⟩ := mem_callsOn.mp inCall
    rcases placed.calls id.cpu slot _ call with old | ⟨here,new⟩
    · exact .inl (mem_callsOn.mpr ⟨slot,old⟩)
    · obtain ⟨same,txn⟩ := Prod.mk.inj new
      exact .inr ⟨same,CallId.mk.injEq .. ▸ ⟨here,txn⟩⟩
  have later : ∀ c, w.exec.nextTxn c ≤ y.nextTxn c := by
    intro _
    rw [placed.txns]
    split <;> omega
  have minted : w.exec.nextTxn cpu < y.nextTxn cpu := by
    rw [placed.txns, if_pos rfl]
    omega
  -- an identity from before this call is not the one just minted
  have older : ∀ {id : CallId cfg}, id.txn < w.exec.nextTxn id.cpu → id ≠ ⟨cpu, w.exec.nextTxn cpu⟩ := by
    rintro id old rfl
    exact absurd old (lt_irrefl _)
  refine ⟨?_,?_,?_,?_⟩
  · intro e ep m found mem
    rcases placed.queues e ep m found mem with ⟨rfl,_,rfl⟩ | ⟨old,before,within⟩
    · refine ⟨?_,fun id answers => by cases plain.symm.trans answers⟩
      intro id inCall txn
      rw [Stamped.txn_setCorrelation, Stamped.txn_setTxn] at txn
      rcases calling inCall with old | ⟨same,_⟩
      · exact absurd txn.symm (unusedThere id old)
      · exact absurd same origin.peer_ne
    obtain ⟨answered,home⟩ := matched.queued e old m before within
    constructor
    · intro id inCall txn
      rcases calling inCall with known | ⟨rfl,rfl⟩
      · exact answered id known txn
      · exact absurd txn (unqueued old before m within)
    · intro id answers
      obtain ⟨fresh,there⟩ := home id answers
      refine ⟨fresh.trans_le (later id.cpu),?_⟩
      intro e' inCall
      rcases calling inCall with known | ⟨_,new⟩
      · exact there e' known
      · exact absurd new (older fresh)
  · intro e ep p found waiting
    rcases placed.pending e ep p found waiting with ⟨rfl,txn⟩ | ⟨old,before,waited⟩
    · exact ⟨_,Function.update_self ..,txn.symm⟩
    obtain ⟨id,here,txn⟩ := matched.pending e old p before waited
    have elsewhere : e ≠ origin := by
      rintro rfl
      cases closed.symm.trans here
    exact ⟨id,(Function.update_of_ne elsewhere ..).trans here,txn⟩
  · intro e id here
    by_cases same : e = origin
    · subst same
      cases (Function.update_self ..).symm.trans here
      refine ⟨minted,?_,?_⟩
      · intro e' inCall
        rcases calling inCall with known | ⟨there,_⟩
        · exact absurd rfl (older (matched.calls e' _ known))
        · exact there
      · intro other inCall txn
        rcases calling inCall with known | ⟨_,new⟩
        · exact absurd txn (unusedHere other known)
        · exact new
    · obtain ⟨fresh,home,sole⟩ := matched.unanswered e id ((Function.update_of_ne same ..).symm.trans here)
      refine ⟨fresh.trans_le (later id.cpu),?_,?_⟩
      · intro e' inCall
        rcases calling inCall with known | ⟨_,new⟩
        · exact home e' known
        · exact absurd new (older fresh)
      · intro other inCall txn
        rcases calling inCall with known | ⟨there,_⟩
        · exact sole other known txn
        · exact absurd there same
  · intro e id inCall
    rcases calling inCall with known | ⟨_,rfl⟩
    · exact (matched.calls e id known).trans_le (later id.cpu)
    · exact minted

theorem Step.exec (step : w.Step a w') :
    ∃ out, w.exec.perform a = some (out, w'.exec) ∧ w'.unanswered = w.record a out := by
  obtain ⟨⟨out,_⟩,done,rfl⟩ := map_eq_some_iff.mp step
  obtain ⟨⟨_,_⟩,performed,same⟩ := map_eq_some_iff.mp done
  cases same
  exact ⟨out,performed,rfl⟩

theorem record_of_unplaced (w : CallWorld M cfg)
    (unplaced : ∀ cpu origin req due now, a = .callUntil cpu origin req due now →
      out ≠ .parked) : w.record a out = match w.exec.repliesTo a with
      | some e => Function.update w.unanswered e none
      | none => w.unanswered := by
  unfold record
  split
  · exact absurd rfl (unplaced _ _ _ _ _ rfl)
  · rfl

theorem Matched.issued (matched : w.Matched) (answers : response.answers = w.unanswered on.peer)
    (unused : ∀ id ∈ w.exec.callsOn on.peer, id.txn ≠ Stamped.txn response)
    (issued : w.exec.Issued on response e m) : w.Fits e m := by
  obtain ⟨rfl,endpoint,found,plain | ⟨_,txn,waiting,rfl⟩⟩ := issued
  · obtain ⟨_,rfl⟩ := plain
    refine ⟨fun id calling same => absurd same.symm (unused id calling),?_⟩
    intro id here
    obtain ⟨fresh,home,_⟩ := matched.unanswered on.peer id (answers.symm.trans here)
    exact ⟨fresh,home⟩
  · obtain ⟨id,here,same⟩ := matched.pending on.peer endpoint _ found waiting
    obtain ⟨fresh,home,sole⟩ := matched.unanswered on.peer id here
    have marked : (Stamped.setTxn response txn).answers = some id := answers.trans here
    constructor
    · intro other calling stamped
      rw [Stamped.txn_setTxn] at stamped
      rw [sole other calling (stamped.symm.trans same.symm)]
      exact marked
    · intro _ answered
      cases marked.symm.trans answered
      exact ⟨fresh,home⟩

theorem Matched.step (matched : w.Matched) (orderly : w.Orderly a) (step : w.Step a w') : w'.Matched := by
  obtain ⟨out,done,recorded⟩ := step.exec
  obtain ⟨_,_⟩ := w'
  subst recorded
  by_cases placing : ∃ cpu origin req due now, a = .callUntil cpu origin req due now ∧
      out = .parked
  · obtain ⟨cpu,origin,req,due,now,rfl,rfl⟩ := placing
    exact matched.places (perform_places done) orderly.2
  have unplaced : ∀ cpu origin req due now, a = .callUntil cpu origin req due now →
      out ≠ .parked :=
    fun cpu origin req due now call parked => placing ⟨cpu,origin,req,due,now,call,parked⟩
  refine matched.proceeds (perform_proceeds done unplaced) ?_ ?_
  · intro e _ new
    cases a with
    | send =>
      obtain ⟨rfl,rfl⟩ := new
      obtain ⟨plain,unused⟩ := orderly.2
      refine ⟨?_,fun id answers => by cases plain.symm.trans answers⟩
      intro id calling same
      rw [txn_setCorrelation] at same
      exact absurd same.symm (unused id calling)
    | reply | replyAndContinue | replyReceive => exact matched.issued orderly.2.1 orderly.2.2 new
    | _ => cases new
  · intro e
    rw [w.record_of_unplaced unplaced]
    split
    · rename_i answered replies
      by_cases same : e = answered
      · subst same
        exact .inr ⟨Function.update_self ..,fun _ found => perform_answered done replies found⟩
      · exact .inl (Function.update_of_ne same ..)
    · exact .inl rfl

theorem matched_new (ports : PortTable cfg) : (new ports : CallWorld M cfg).Matched := by
  have empty : ∀ e, (new ports : CallWorld M cfg).exec.channels.endpoint? e = none := by
    simp [new, Executive.new, ChannelTable.new, ChannelTable.endpoint?]
  have idle : ∀ e id, id ∉ (new ports : CallWorld M cfg).exec.callsOn e := by
    intro e id calling
    obtain ⟨_,call⟩ := mem_callsOn.mp calling
    simp [new, Executive.new, call?, frame?, Scheduler.new, Scheduler.thread] at call
  refine ⟨?_,?_,by simp [new],?_⟩
  · intro e _ _ found
    cases (empty e).symm.trans found
  · intro e _ _ found
    cases (empty e).symm.trans found
  · intro e id calling
    exact absurd calling (idle e id)

theorem matched_run {ports : PortTable cfg}
    (run : Disciplined (fun _ => Orderly) Step (new ports) history w) : w.Matched := by
  refine run.invariant (fun _ => Matched) ?_ (matched_new ports)
  intro _ _ _ _ matched orderly step
  exact matched.step orderly step

/-- In every run that keeps to the conditions, a call that returns a message
    returns the reply issued for its own request, and no receive takes a reply
    to a call that is still in progress. -/
theorem replies_match_calls {ports : PortTable cfg} {history : List (ExecAction (Letter M cfg) cfg)}
    {w w' : CallWorld M cfg} {a : ExecAction (Letter M cfg) cfg} {outcome : Outcome (Letter M cfg)}
    (run : Disciplined (fun _ => Orderly) Step (new ports) history w) (done : w.perform a = some (outcome, w')) :
    (∀ m, outcome = .replied m → ∃ cpu now later slot origin txn deadline callee, a = .resume cpu now later ∧
      (w.exec.sched cpu).current = some slot ∧
      w.exec.frame? cpu slot = some (.parked (.call origin txn deadline callee)) ∧ m.answers = some ⟨cpu, txn⟩) ∧
    (w.Orderly a → ∀ m, outcome.message? = some m → ∀ id e, m.answers = some id → id ∉ w.exec.callsOn e) := by
  have matched := matched_run run
  obtain ⟨⟨_,_⟩,performed,same⟩ := map_eq_some_iff.mp done
  cases same
  constructor
  · rintro m rfl
    obtain ⟨cpu,now,later,slot,origin,txn,deadline,callee,ep,rfl,running,parked,found,mem,stamp⟩ :=
      perform_replied performed
    refine ⟨cpu,now,later,slot,origin,txn,deadline,callee,rfl,running,parked,?_⟩
    have calling : (⟨cpu, txn⟩ : CallId cfg) ∈ w.exec.callsOn origin := by
      rw [mem_callsOn]
      exact ⟨slot,by rw [call?, parked]; rfl⟩
    exact (matched.queued origin ep m found mem).1 _ calling stamp
  · intro orderly m took id e answers calling
    obtain ⟨place,listened,ep,found,mem⟩ := perform_takes performed took
    obtain rfl := ((matched.queued place ep m found mem).2 id answers).2 e calling
    rw [orderly.1 e listened] at calling
    cases calling

open Executive in
def answeredCall : List (ExecAction (Letter (Message .default) .default) .default) :=
  [.channelCreate, .addThread bootCpu 16 0, .addThread bootCpu 16 0, .dispatch bootCpu,
    .callUntil bootCpu ⟨0, .zero⟩ ⟨blank, none⟩ none 0, .leave bootCpu, .receive bootCpu ⟨0, .one⟩,
    .replyAndContinue bootCpu ⟨0, .one⟩ ⟨blank, some ⟨bootCpu, 1⟩⟩, .receive bootCpu ⟨0, .one⟩, .leave bootCpu]

def nextReply (w : CallWorld (Message .default) .default) : Option (Letter (Message .default) .default) :=
  (w.perform (.resume bootCpu 0 0)).bind (·.1.reply?)

theorem nextReply_eq_some {w : CallWorld (Message .default) .default} {m : Letter (Message .default) .default}
    (returns : nextReply w = some m) : ∃ w', w.perform (.resume bootCpu 0 0) = some (.replied m, w') := by
  obtain ⟨⟨out,w'⟩,done,replied⟩ := bind_eq_some_iff.mp returns
  cases out with
  | replied =>
    cases replied
    exact ⟨w',done⟩
  | _ => cases replied

theorem call_returns_its_reply : ∃ w w' : CallWorld (Message .default) .default, ∃ m slot origin txn deadline callee,
      Disciplined (fun _ => Orderly) Step (new .new) answeredCall w ∧
      w.perform (.resume Executive.bootCpu 0 0) = some (.replied m, w') ∧
      (w.exec.sched Executive.bootCpu).current = some slot ∧
      w.exec.frame? Executive.bootCpu slot = some (.parked (.call origin txn deadline callee)) ∧
      m.answers = some ⟨Executive.bootCpu, txn⟩ := by
  obtain ⟨w,run,found⟩ : ∃ w, Disciplined (fun _ => Orderly) Step (new .new) answeredCall w ∧ (nextReply w).isSome :=
    Disciplined.reaches (by decide +kernel)
  obtain ⟨m,returns⟩ := isSome_iff_exists.mp found
  obtain ⟨w',replied⟩ := nextReply_eq_some returns
  obtain ⟨_,_,_,slot,origin,txn,deadline,callee,same,rest⟩ :=
    (replies_match_calls run replied).1 m rfl
  cases same
  exact ⟨w,w',m,slot,origin,txn,deadline,callee,run,replied,rest⟩

open Executive in
/-- The client's first call times out, it calls again, and only then does the
    server, on another processor, answer the first request. -/
def lateReply : List (ExecAction (Letter (Message .default) .default) .default) :=
  [.channelCreate, .addThread bootCpu 16 0, .addThread otherCpu 16 0, .dispatch bootCpu, .dispatch otherCpu,
    .callUntil bootCpu ⟨0, .zero⟩ ⟨blank, none⟩ (some 10) 0, .leave bootCpu, .receive otherCpu ⟨0, .one⟩,
    .expire bootCpu 20, .dispatch bootCpu, .resume bootCpu 20 20,
    .callUntil bootCpu ⟨0, .zero⟩ ⟨blank, none⟩ none 21, .leave bootCpu,
    .replyAndContinue otherCpu ⟨0, .one⟩ ⟨blank, some ⟨bootCpu, 1⟩⟩, .drain bootCpu, .dispatch bootCpu]

/-- The second call returns the reply to the first one. -/
theorem late_reply_answers_the_next_call : ∃ w w' : CallWorld (Message .default) .default, ∃ m,
      Run Step (new .new) lateReply w ∧ w.exec.frame? bootCpu 0 = some (.parked (.call ⟨0, .zero⟩ 2 none none)) ∧
      w.perform (.resume bootCpu 0 0) = some (.replied m, w') ∧ m.answers = some ⟨bootCpu, 1⟩ := by
  obtain ⟨w,run,calling,m,returns,answers⟩ : ∃ w, Run Step (new .new) lateReply w ∧
      w.exec.frame? bootCpu 0 = some (.parked (.call ⟨0, .zero⟩ 2 none none)) ∧
      ∃ m, nextReply w = some m ∧ m.answers = some ⟨bootCpu, 1⟩ := Disciplined.reaches (by decide +kernel)
  obtain ⟨w',went⟩ := nextReply_eq_some returns
  exact ⟨w,w',m,run,calling,went,answers⟩

end CallWorld
end Tessera
