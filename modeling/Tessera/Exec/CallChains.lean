import Tessera.Exec.Residence
import Mathlib.Data.List.Chain

/-!
Chains of synchronous calls. A parcel is a message with the call it is the
request of; the kernel never looks at that mark. A thread handles a request from
the receive that took it until a reply is issued for it, and a caller waits for
the thread that handles its request. The kernel counts the calls of each thread
by itself, and a thread makes one call at a time, so its count bounds no chain;
chains stay short in runs that keep to the condition stated here.
-/
namespace Tessera
open Executive List Option Stamped

structure Parcel (M : Type) (cfg : Config) where
  body : M
  asks : Option (CallId cfg)
  deriving DecidableEq

instance {M : Type} {cfg : Config} [Stamped M] : Stamped (Parcel M cfg) where
  txn m := txn m.body
  correlation m := correlation m.body
  setTxn m t := { m with body := setTxn m.body t }
  setCorrelation m c := { m with body := setCorrelation m.body c }
  txn_setTxn m t := txn_setTxn m.body t
  txn_setCorrelation m c := txn_setCorrelation m.body c

structure ChainWorld (M : Type) (cfg : Config) where
  exec : Executive (Parcel M cfg) cfg
  handling : Fin cfg.maxCpus × Nat → List (CallId cfg)

namespace ChainWorld
variable {M : Type} {cfg : Config}

def new (ports : PortTable cfg) : ChainWorld M cfg := ⟨.new ports, fun _ => []⟩

/-- An action on plain messages: the request of a call is marked with that call. -/
def mark (w : ChainWorld M cfg) : ExecAction M cfg → ExecAction (Parcel M cfg) cfg
  | .channelCreate => .channelCreate
  | .channelCreateWithObjects => .channelCreateWithObjects
  | .addThread cpu priority correlation => .addThread cpu priority correlation
  | .send cpu origin message => .send cpu origin ⟨message, none⟩
  | .receive cpu on => .receive cpu on
  | .tryReceive cpu on => .tryReceive cpu on
  | .receiveAny cpu endpoints deadline now => .receiveAny cpu endpoints deadline now
  | .callUntil cpu origin request deadline now =>
    .callUntil cpu origin ⟨request, some ⟨cpu, w.exec.nextTxn cpu⟩⟩ deadline now
  | .reply cpu on response => .reply cpu on ⟨response, none⟩
  | .replyAndContinue cpu on response => .replyAndContinue cpu on ⟨response, none⟩
  | .replyReceive cpu on response => .replyReceive cpu on ⟨response, none⟩
  | .closeEndpoint cpu e => .closeEndpoint cpu e
  | .leave cpu => .leave cpu
  | .resume cpu now later => .resume cpu now later
  | .dispatch cpu => .dispatch cpu
  | .drain cpu => .drain cpu
  | .expire cpu now => .expire cpu now

def taker (w : ChainWorld M cfg) : ExecAction M cfg → Option (Fin cfg.maxCpus × Nat)
  | .receive cpu _ | .tryReceive cpu _ | .receiveAny cpu _ _ _ | .replyReceive cpu _ _ | .resume cpu _ _ =>
    (w.exec.sched cpu).current.map fun slot => (cpu, slot)
  | _ => none

section
variable [Stamped M]

section
variable (w : ChainWorld M cfg) (a : ExecAction M cfg)

def answers : Option (ThreadId × Nat) :=
  (w.exec.repliesTo (w.mark a)).bind fun e => (w.exec.channels.endpoint? e).bind (·.pendingCaller)

def unanswered (id : CallId cfg) : Bool :=
  (w.answers a).all fun (caller, txn) => ¬(caller.cpu = id.cpu ∧ txn = id.txn)

def record (outcome : Outcome (Parcel M cfg)) (place : Fin cfg.maxCpus × Nat) : List (CallId cfg) :=
  (w.handling place).filter (w.unanswered a) ++
    if w.taker a = some place then (outcome.message?.bind (·.asks)).toList else []

def perform (w : ChainWorld M cfg) (a : ExecAction M cfg) : Option (Outcome (Parcel M cfg) × ChainWorld M cfg) :=
  (w.exec.perform (w.mark a)).map fun (outcome, x) => (outcome, ⟨x, w.record a outcome⟩)

def Step (w' : ChainWorld M cfg) : Prop :=
  (w.perform a).map (·.2) = some w'

end

end

def waitsFor (w : ChainWorld M cfg) (p q : Fin cfg.maxCpus × Nat) : Bool :=
  (w.exec.call? p.1 p.2).any fun (_, txn) => ⟨p.1, txn⟩ ∈ w.handling q

def Chain (w : ChainWorld M cfg) (threads : List (Fin cfg.maxCpus × Nat)) : Prop :=
  List.IsChain (fun p q => w.waitsFor p q = true) threads

instance (w : ChainWorld M cfg) (threads : List (Fin cfg.maxCpus × Nat)) : Decidable (w.Chain threads) :=
  inferInstanceAs (Decidable (List.IsChain _ threads))

def nested (w : ChainWorld M cfg) : Nat → Fin cfg.maxCpus × Nat → Bool
  | 0, _ => true
  | n + 1, q =>
    (finRange cfg.maxCpus).any fun cpu => (range cfg.maxThreads).any fun slot =>
      w.waitsFor (cpu, slot) q && w.nested n (cpu, slot)

variable {w : ChainWorld M cfg} {q : Fin cfg.maxCpus × Nat} {threads : List (Fin cfg.maxCpus × Nat)}

theorem waitsFor_eq_true : w.waitsFor p q = true ↔
      ∃ origin txn, w.exec.call? p.1 p.2 = some (origin, txn) ∧ (⟨p.1, txn⟩ : CallId cfg) ∈ w.handling q := by
  simp only [waitsFor, Option.any_eq_true, decide_eq_true_eq]
  constructor
  · rintro ⟨⟨origin,txn⟩,calling,handled⟩
    exact ⟨origin,txn,calling,handled⟩
  · rintro ⟨origin,txn,calling,handled⟩
    exact ⟨(origin, txn),calling,handled⟩

theorem slot_of_call {x : Executive (Parcel M cfg) cfg} {call : EndpointId × Nat}
    (calling : x.call? cpu slot = some call) : slot < cfg.maxThreads := by
  obtain ⟨_,found,_⟩ := bind_eq_some_iff.mp calling
  obtain ⟨_,thread,_⟩ := map_eq_some_iff.mp found
  exact Slots.lt_of_cell thread

theorem nested_of_chain (chain : w.Chain (threads ++ [q])) : w.nested threads.length q = true := by
  induction threads using reverseRecOn generalizing q with
  | nil => rfl
  | append_singleton rest p ih =>
    rw [append_assoc] at chain
    have waits : w.waitsFor p q = true := by
      have pair := chain.right_of_append
      simpa using pair
    have before : w.Chain (rest ++ [p]) := by
      refine List.IsChain.prefix chain ?_
      rw [← append_assoc]
      exact prefix_append _ _
    obtain ⟨_,_,calling,_⟩ := waitsFor_eq_true.mp waits
    rw [length_append, length_singleton]
    refine any_eq_true.mpr ⟨p.1,mem_finRange _,?_⟩
    refine any_eq_true.mpr ⟨p.2,mem_range.mpr (slot_of_call calling),?_⟩
    rw [waits, ih before]
    rfl

/-- A call is placed only by a thread that a full chain of callers does not already
    wait for. -/
def Shallow (w : ChainWorld M cfg) : ExecAction M cfg → Prop
  | .callUntil cpu _ _ _ _ =>
    ∀ slot ∈ (w.exec.sched cpu).current, w.nested (maxSyncDepth - 1) (cpu, slot) = false
  | _ => True

instance (w : ChainWorld M cfg) (a : ExecAction M cfg) : Decidable (w.Shallow a) := by
  rcases a <;> dsimp only [Shallow] <;> infer_instance

/-- A thread of a short chain: fewer threads end a chain with it than the limit. -/
def Short (w : ChainWorld M cfg) (q : Fin cfg.maxCpus × Nat) : Prop :=
  ∀ threads, w.Chain (threads ++ [q]) → threads.length + 1 < maxSyncDepth

theorem short_of_not_nested (shallow : w.nested (maxSyncDepth - 1) q = false) : w.Short q := by
  intro threads chain
  by_contra long
  have enough : maxSyncDepth - 1 ≤ threads.length := by omega
  -- the last threads of a longer chain are a chain of just the forbidden length
  have tail : w.Chain (threads.drop (threads.length - (maxSyncDepth - 1)) ++ [q]) := by
    refine List.IsChain.suffix chain ⟨threads.take (threads.length - (maxSyncDepth - 1)),?_⟩
    rw [← append_assoc, take_append_drop]
  have full := nested_of_chain tail
  rw [length_drop, Nat.sub_sub_self enough, shallow] at full
  cases full

/-- Requests are marked with calls that have been made, and a thread in a call ends
    only short chains. -/
structure Limited (w : ChainWorld M cfg) : Prop where
  queued : ∀ e ep m id, w.exec.channels.endpoint? e = some ep → m ∈ ep.queue.items → m.asks = some id →
    id.txn < w.exec.nextTxn id.cpu
  handled : ∀ q id, id ∈ w.handling q → id.txn < w.exec.nextTxn id.cpu
  short : ∀ q, (w.exec.call? q.1 q.2).isSome → w.Short q

theorem Chain.inCall (chain : w.Chain (threads ++ [q])) : ∀ p ∈ threads, (w.exec.call? p.1 p.2).isSome := by
  induction threads with
  | nil => exact nofun
  | cons first rest ih =>
    rw [Chain, cons_append, isChain_cons] at chain
    intro p mem
    rcases mem_cons.mp mem with rfl | later
    · obtain ⟨next,head⟩ : ∃ next, (rest ++ [q]).head? = some next := by
        cases rest <;> simp
      obtain ⟨_,_,calling,_⟩ := waitsFor_eq_true.mp (chain.1 next head)
      simp [calling]
    · exact ih chain.2 p later

theorem Chain.before {w' : ChainWorld M cfg}
    (edges : ∀ p q, w'.waitsFor p q = true → (w'.exec.call? q.1 q.2).isSome → w.waitsFor p q = true)
    (chain : w'.Chain (threads ++ [q])) (calling : (w'.exec.call? q.1 q.2).isSome) : w.Chain (threads ++ [q]) := by
  refine List.IsChain.imp_of_mem_tail_imp ?_ chain
  intro a b _ mem waits
  refine edges a b waits ?_
  rcases mem_append.mp (mem_of_mem_tail mem) with inner | last
  · exact chain.inCall b inner
  · rw [mem_singleton.mp last]
    exact calling

section
variable [Stamped M]
variable {w w' : ChainWorld M cfg} {a : ExecAction M cfg} {out : Outcome (Parcel M cfg)}
  {place : Fin cfg.maxCpus × Nat} {m : Parcel M cfg}

theorem Step.exec (step : w.Step a w') :
    ∃ out, w.exec.perform (w.mark a) = some (out, w'.exec) ∧ w'.handling = w.record a out := by
  obtain ⟨⟨out,_⟩,done,rfl⟩ := map_eq_some_iff.mp step
  obtain ⟨⟨_,_⟩,performed,same⟩ := map_eq_some_iff.mp done
  cases same
  exact ⟨out,performed,rfl⟩

theorem mem_record {id : CallId cfg} (mem : id ∈ w.record a out place) :
    id ∈ w.handling place ∨ w.taker a = some place ∧ ∃ m, out.message? = some m ∧ m.asks = some id := by
  rcases mem_append.mp mem with old | new
  · exact .inl (mem_filter.mp old).1
  split at new
  · rename_i takes
    rw [mem_toList] at new
    obtain ⟨m,took,asks⟩ := bind_eq_some_iff.mp new
    exact .inr ⟨takes,m,took,asks⟩
  · cases new

theorem news_unmarked (new : w.exec.News (w.mark a) e m) : m.asks = none := by
  have issued : ∀ {on : EndpointId} {response : M}, w.exec.Issued on ⟨response, none⟩ e m → m.asks = none := by
    rintro _ _ ⟨_,_,_,⟨_,rfl⟩ | ⟨_,_,_,rfl⟩⟩ <;> rfl
  cases a with
  | send =>
    obtain ⟨_,rfl⟩ := new
    rfl
  | reply | replyAndContinue | replyReceive => exact issued new
  | _ => cases new

theorem taker_outside (done : w.exec.perform (w.mark a) = some (out, y)) (took : out.message? = some m)
    (takes : w.taker a = some place) : w.exec.call? place.1 place.2 = none := by
  have entering : ∀ {cpu : Fin cfg.maxCpus}, w.exec.atEntry cpu = true →
      (w.exec.sched cpu).current.map (fun slot => (cpu, slot)) = some place →
      w.exec.call? place.1 place.2 = none := by
    intro cpu entry current
    obtain ⟨slot,running,rfl⟩ := map_eq_some_iff.mp current
    have outside : w.exec.frame? cpu slot = some .outside := by
      simpa [atEntry, running] using entry
    rw [call?, outside]
    rfl
  cases a with
  | receive | tryReceive | receiveAny | replyReceive => exact entering (guarded done).1 takes
  | resume =>
    obtain ⟨_,running,rfl⟩ := map_eq_some_iff.mp takes
    obtain ⟨_,wait,running',parked,went⟩ := resume_eq_some done
    cases running.symm.trans running'
    obtain ⟨_,listens,_⟩ := resumeWait_takes.1 m ((congrArg (·.1.message?) went).trans took)
    rw [call?, parked]
    cases wait with
    | call => cases listens
    | _ => rfl
  | _ => cases takes

theorem Limited.proceeds (limited : w.Limited) (done : w.exec.perform (w.mark a) = some (out, w'.exec))
    (recorded : w'.handling = w.record a out) (step : w.exec.Proceeds w'.exec (w.exec.News (w.mark a))) :
    w'.Limited := by
  have took : ∀ q id, id ∈ w'.handling q → id ∈ w.handling q ∨
      w.taker a = some q ∧ ∃ m, out.message? = some m ∧ m.asks = some id := by
    intro q id mem
    rw [recorded] at mem
    exact mem_record mem
  refine ⟨?_,?_,?_⟩
  · intro e ep m id found mem asks
    rcases step.queues e ep m found mem with new | ⟨old,before,within⟩
    · cases (news_unmarked new).symm.trans asks
    · exact (limited.queued e old m id before within asks).trans_le (step.txns id.cpu)
  · intro q id mem
    refine lt_of_lt_of_le ?_ (step.txns id.cpu)
    rcases took q id mem with old | ⟨_,m,taken,asks⟩
    · exact limited.handled q id old
    · obtain ⟨e,_,ep,found,within⟩ := perform_takes done taken
      exact limited.queued e ep m id found within asks
  · intro q calling threads chain
    have edges : ∀ p q, w'.waitsFor p q = true → (w'.exec.call? q.1 q.2).isSome → w.waitsFor p q = true := by
      intro _ q waits inCall
      obtain ⟨origin,txn,call,mem⟩ := waitsFor_eq_true.mp waits
      refine waitsFor_eq_true.mpr ⟨origin,txn,step.calls _ _ _ call,?_⟩
      rcases took q _ mem with old | ⟨takes,_,taken,_⟩
      · exact old
      · obtain ⟨_,still⟩ := isSome_iff_exists.mp inCall
        cases (taker_outside done taken takes).symm.trans (step.calls _ _ _ still)
    obtain ⟨_,still⟩ := isSome_iff_exists.mp calling
    exact limited.short q (by simp [step.calls _ _ _ still]) threads (chain.before edges calling)

theorem Limited.places {due : Option Nat}
    {now : Nat} (limited : w.Limited) (shallow : w.Shallow (.callUntil cpu origin req due now))
    (done : w.exec.perform (w.mark (.callUntil cpu origin req due now)) = some (.parked, w'.exec))
    (recorded : w'.handling = w.record (.callUntil cpu origin req due now) .parked) : w'.Limited := by
  have placed := perform_places done
  have later : ∀ c, w.exec.nextTxn c ≤ w'.exec.nextTxn c := by
    intro _
    rw [placed.txns]
    split <;> omega
  have kept : ∀ q id, id ∈ w'.handling q → id ∈ w.handling q := by
    intro q id mem
    rw [recorded] at mem
    rcases mem_record mem with old | ⟨takes,_⟩
    · exact old
    · cases takes
  refine ⟨?_,?_,?_⟩
  · intro e ep m id found mem asks
    rcases placed.queues e ep m found mem with ⟨_,_,rfl⟩ | ⟨old,before,within⟩
    · cases asks
      rw [placed.txns, if_pos rfl]
      exact Nat.lt_succ_self _
    · exact (limited.queued e old m id before within asks).trans_le (later id.cpu)
  · intro q id mem
    exact (limited.handled q id (kept q id mem)).trans_le (later id.cpu)
  · intro q calling threads chain
    have edges : ∀ p q, w'.waitsFor p q = true → (w'.exec.call? q.1 q.2).isSome → w.waitsFor p q = true := by
      intro _ q waits _
      obtain ⟨from',txn,call,mem⟩ := waitsFor_eq_true.mp waits
      have handled := kept q _ mem
      rcases placed.calls _ _ _ call with old | ⟨here,new⟩
      · exact waitsFor_eq_true.mpr ⟨from',txn,old,handled⟩
      obtain ⟨rfl,rfl⟩ := Prod.mk.inj new
      have earlier := limited.handled q _ handled
      rw [← here] at earlier
      exact absurd earlier (lt_irrefl _)
    have before := chain.before edges calling
    cases inCall : w.exec.call? q.1 q.2 with
    | some => exact limited.short q (by simp [inCall]) threads before
    | none =>
      -- only the calling thread's frame changes
      have operates := (perform_operates done rfl).2
      rcases operates.frame? q.1 q.2 with same | ⟨here,running⟩
      · rw [call?, same, ← call?, inCall] at calling
        cases calling
      refine short_of_not_nested ?_ threads before
      have full := shallow q.2 running
      rw [← here] at full
      exact full

theorem Limited.step (limited : w.Limited) (shallow : w.Shallow a) (step : w.Step a w') : w'.Limited := by
  obtain ⟨out,done,recorded⟩ := step.exec
  by_cases placing : ∃ cpu origin req due now, a = .callUntil cpu origin req due now ∧
      out = .parked
  · obtain ⟨_,_,_,_,_,rfl,rfl⟩ := placing
    exact limited.places shallow done recorded
  refine limited.proceeds done recorded (perform_proceeds done ?_)
  intro _ _ _ _ _ call parked
  cases a with
  | callUntil => exact placing ⟨_,_,_,_,_,rfl,parked⟩
  | _ => cases call

omit [Stamped M] in
theorem limited_new (ports : PortTable cfg) : (new ports : ChainWorld M cfg).Limited := by
  refine ⟨?_,nofun,?_⟩
  · intro _ _ _ _ found
    simp [new, Executive.new, ChannelTable.new, ChannelTable.endpoint?] at found
  · intro _ calling
    simp [new, Executive.new, call?, frame?, Scheduler.new, Scheduler.thread] at calling

open Transition

/-- In every run that keeps to the condition no chain has more threads than the
    limit on nested calls. -/
theorem chains_are_bounded {ports : PortTable cfg} {history : List (ExecAction M cfg)} {w : ChainWorld M cfg}
    (run : Disciplined (fun _ => Shallow) Step (new ports) history w) {threads : List (Fin cfg.maxCpus × Nat)}
    (chain : w.Chain threads) : threads.length ≤ maxSyncDepth := by
  have limited : w.Limited := by
    refine run.invariant (fun _ => Limited) ?_ (limited_new ports)
    intro _ _ _ _ limited shallow step
    exact limited.step shallow step
  cases threads using reverseRecOn with
  | nil => exact Nat.zero_le _
  | append_singleton rest =>
    cases rest using reverseRecOn with
    | nil => simp [maxSyncDepth]
    | append_singleton rest caller =>
      have inCall := chain.inCall caller (by simp)
      have short := limited.short caller inCall rest (List.IsChain.left_of_append chain)
      simp only [length_append, length_singleton]
      omega

open Executive in
def relay (calls : Nat) : List (ExecAction (Message .default) .default) :=
  replicate calls .channelCreate ++ replicate (calls + 1) (.addThread bootCpu 16 0) ++ [.dispatch bootCpu] ++
    (range calls).flatMap fun i =>
      [.callUntil bootCpu ⟨i, .zero⟩ blank none 0, .leave bootCpu, .receive bootCpu ⟨i, .one⟩]

def firstThreads (count : Nat) : List (Fin Config.default.maxCpus × Nat) :=
  (range count).map fun slot => (bootCpu, slot)

theorem short_relay_is_bounded :
    ∃ w : ChainWorld (Message .default) .default, Disciplined (fun _ => Shallow) Step (new .new) (relay 2) w ∧
      w.Chain (firstThreads 3) ∧ (firstThreads 3).length ≤ maxSyncDepth :=
  Disciplined.reaches_also (by decide +kernel) fun _ run chain => chains_are_bounded run chain

/-- Nine calls nest and none is refused: ten threads wait in one chain. -/
theorem long_relay_is_not_refused : ∃ w : ChainWorld (Message .default) .default, Run Step (new .new) (relay 9) w ∧
      w.Chain (firstThreads 10) ∧ maxSyncDepth < (firstThreads 10).length ∧
      ∀ slot ∈ range 9, (w.exec.sched bootCpu).threadState slot = some .blocked :=
  Disciplined.reaches (by decide +kernel)

end
end ChainWorld
end Tessera
