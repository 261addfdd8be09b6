import Tessera.Exec.Residence

/-!
Sleeping receivers and the messages that should wake them. A thread asleep in a
receive is dormant until it is handed its processor or a wakeup is posted for it.
An endpoint remembers one sleeping receiver only, and only a send or a call
looks at it, so nobody sleeps beside a queued message in runs that keep to the
conditions stated here.
-/
namespace Tessera
open Scheduler List Option Thread

def Frame.listens : Frame → List EndpointId
  | .outside => []
  | .parking _ wait | .parked wait => wait.listens

/-- A thread that will not go on by itself: it is blocked, or about to be. -/
def Thread.asleep (t : Thread Frame) : Bool :=
  match t.context with
  | .outside => false
  | .parking _ _ => true
  | .parked _ => t.state = .blocked

theorem Thread.Roused.asleep {t t' : Thread Frame} (roused : t.Roused t') (asleep : t'.asleep) : t.asleep := by
  unfold Thread.asleep at asleep ⊢
  rw [roused.context] at asleep
  cases context : t.context with
  | outside => simp [context] at asleep
  | parking => rfl
  | parked =>
    simp only [context] at asleep ⊢
    rcases roused.state with same | ⟨_,ready⟩
    · exact same ▸ asleep
    · rw [ready] at asleep
      cases asleep

namespace Executive
variable {M : Type} {cfg : Config}

def hands (x : Executive M cfg) (cpu : Fin cfg.maxCpus) (slot : Nat) : Bool :=
  match (x.sched cpu).current.bind (x.frame? cpu) with
  | some (.parking (some target) _) => target = slot
  | _ => false

/-- A wakeup is posted for the thread of a slot, or its processor is about to be
    handed to it. -/
def stirred (x : Executive M cfg) (place : Fin cfg.maxCpus × Nat) : Bool :=
  (x.wakeups place.1 place.2).isSome && x.wakeups place.1 place.2 = (x.sched place.1).threadId place.2 ||
    x.hands place.1 place.2

def listeners (x : Executive M cfg) (e : EndpointId) : List (Fin cfg.maxCpus × Nat) :=
  (finRange cfg.maxCpus).flatMap fun cpu =>
    (range cfg.maxThreads).filterMap fun slot =>
      if (x.frame? cpu slot).any (e ∈ ·.listens) then some (cpu, slot) else none

def dormant (x : Executive M cfg) (e : EndpointId) : List (Fin cfg.maxCpus × Nat) :=
  (x.listeners e).filter fun place =>
    ((x.sched place.1).thread place.2).any (·.asleep) && !x.stirred place

variable {x y : Executive M cfg} {e : EndpointId} {place : Fin cfg.maxCpus × Nat} {c : Fin cfg.maxCpus}
  {s slot : Nat} {target : Option Nat} {wait : Wait} {t : Thread Frame} {id : ThreadId}

theorem mem_listeners :
    place ∈ x.listeners e ↔ ∃ frame, x.frame? place.1 place.2 = some frame ∧ e ∈ frame.listens := by
  obtain ⟨c,s⟩ := place
  simp only [listeners, mem_flatMap, mem_finRange, true_and, mem_filterMap, mem_range,
    ite_none_right_eq_some, Option.some.injEq, Prod.mk.injEq, Option.any_eq_true, decide_eq_true_eq]
  constructor
  · rintro ⟨_,_,_,found,rfl,rfl⟩
    exact found
  rintro ⟨frame,found,listens⟩
  refine ⟨c,s,?_,⟨frame,found,listens⟩,rfl,rfl⟩
  obtain ⟨_,here,_⟩ := map_eq_some_iff.mp found
  exact Slots.lt_of_cell here

theorem mem_dormant : place ∈ x.dormant e ↔ ∃ t, (x.sched place.1).thread place.2 = some t ∧ e ∈ t.context.listens ∧
      t.asleep ∧ x.stirred place = false := by
  simp only [dormant, mem_filter, mem_listeners, Bool.and_eq_true, Option.any_eq_true, Bool.not_eq_true']
  constructor
  · rintro ⟨⟨frame,found,listens⟩,⟨t,here,asleep⟩,still⟩
    rw [frame?, here] at found
    cases found
    exact ⟨t,here,listens,asleep,still⟩
  · rintro ⟨t,here,listens,asleep,still⟩
    exact ⟨⟨t.context,by rw [frame?, here]; rfl,listens⟩,⟨t,here,asleep⟩,still⟩

theorem stirred_eq_true : x.stirred (c, s) = true ↔
      (∃ id, x.wakeups c s = some id ∧ (x.sched c).threadId s = some id) ∨ x.hands c s = true := by
  simp only [stirred, Bool.or_eq_true, Bool.and_eq_true, decide_eq_true_eq, isSome_iff_exists]
  constructor
  · rintro (⟨⟨id,posted⟩,same⟩ | hands)
    · exact .inl ⟨id,posted,same ▸ posted⟩
    · exact .inr hands
  · rintro (⟨id,posted,held⟩ | hands)
    · exact .inl ⟨⟨id,posted⟩,posted.trans held.symm⟩
    · exact .inr hands

theorem asleep_inside (found : (x.sched c).thread s = some t) (asleep : t.asleep) : x.frame? c s ≠ some .outside := by
  intro outside
  simp only [Executive.frame?, found, map_some, Option.some.injEq] at outside
  simp [Thread.asleep, outside] at asleep

theorem dormant_frame (sleeps : (c, s) ∈ x.dormant e) : x.frame? c s ≠ some .outside := by
  obtain ⟨_,found,_,asleep,_⟩ := mem_dormant.mp sleeps
  exact asleep_inside found asleep

theorem dormant_before (sleeps : (c, s) ∈ y.dormant e)
    (thread : ∀ t', (y.sched c).thread s = some t' → t'.context ≠ .outside → ∃ t, (x.sched c).thread s = some t ∧
      t'.context.listens = t.context.listens ∧ (t'.asleep → t.asleep))
    (posted : ∀ id, x.wakeups c s = some id → (x.sched c).threadId s = some id → y.stirred (c, s) = true)
    (hands : x.hands c s = true → y.stirred (c, s) = true) : (c, s) ∈ x.dormant e := by
  obtain ⟨t',found',listens,asleep,still⟩ := mem_dormant.mp sleeps
  have inside : t'.context ≠ .outside := by
    intro outside
    simp [outside, Frame.listens] at listens
  obtain ⟨t,found,same,slept⟩ := thread t' found' inside
  refine mem_dormant.mpr ⟨t,found,same ▸ listens,slept asleep,?_⟩
  rw [Bool.eq_false_iff] at still ⊢
  intro stirred
  rcases stirred_eq_true.mp stirred with ⟨id,post,held⟩ | given
  · exact still (posted id post held)
  · exact still (hands given)

theorem hands_onCpu_ne (elsewhere : c ≠ cpu) : (x.onCpu cpu f).hands c s = x.hands c s := by
  have frames : (x.onCpu cpu f).frame? c = x.frame? c := by
    funext place
    rw [frame?_onCpu, if_neg elsewhere]
  rw [Executive.hands, Executive.hands, onCpu_sched_ne x f elsewhere, frames]

/-- Nobody enters a receive on an endpoint that another thread is inside a
    receive on. A reply is only issued to an endpoint where nobody sleeps. The
    ready ring has room for the threads that a send or a drain makes ready. -/
def Attended (x : Executive M cfg) : ExecAction M cfg → Prop
  | .send cpu origin _ =>
    ∀ place ∈ x.dormant origin.peer, place.1 = cpu → (x.sched cpu).ready.items.length < cfg.maxThreads
  | .receive _ on => x.listeners on = []
  | .receiveAny _ endpoints _ _ => ∀ e ∈ endpoints, x.listeners e = []
  | .reply _ on _ | .replyAndContinue _ on _ => x.dormant on.peer = []
  | .replyReceive _ on _ => x.listeners on = [] ∧ x.dormant on.peer = []
  | .drain cpu =>
    (x.sched cpu).ready.items.length + (range cfg.maxThreads).countP (fun slot => (x.wakeups cpu slot).isSome) ≤
      cfg.maxThreads
  | _ => True

instance (x : Executive M cfg) (a : ExecAction M cfg) : Decidable (x.Attended a) := by
  rcases a <;> dsimp only [Attended] <;> infer_instance

/-- At most one thread is inside a receive on an endpoint, and while it is dormant
    it is the endpoint's sleeping receiver and the queue is empty. -/
structure Alert (x : Executive M cfg) : Prop where
  placed : x.Placed
  sole : ∀ e place place', place ∈ x.listeners e → place' ∈ x.listeners e → place = place'
  registered : ∀ e place, place ∈ x.dormant e → ∃ ep, x.channels.endpoint? e = some ep ∧
    ep.queue.items = [] ∧ ep.blockedReceiver = (x.sched place.1).threadId place.2

variable {cpu : Fin cfg.maxCpus} {fed listened : List EndpointId}

section
variable (minds : x.Minds y cpu fed listened)
include minds

theorem Minds.listeners (inside : place ∈ y.listeners e) : place ∈ x.listeners e := by
  rw [mem_listeners] at inside ⊢
  rw [← minds.frame?]
  exact inside

theorem Minds.hands (c : Fin cfg.maxCpus) (s : Nat) : y.hands c s = x.hands c s := by
  have frames : y.frame? c = x.frame? c := funext (minds.frame? c)
  rw [Executive.hands, Executive.hands, (minds.sched c).current, frames]

theorem Minds.dormant (placed : x.Placed) (sleeps : place ∈ y.dormant e) : place ∈ x.dormant e := by
  obtain ⟨c,s⟩ := place
  have inside : x.frame? c s ≠ some .outside := by
    rw [← minds.frame?]
    exact dormant_frame sleeps
  refine dormant_before sleeps ?_ ?_ fun hands => stirred_eq_true.mpr (.inr (minds.hands c s ▸ hands))
  · intro _ found _
    obtain ⟨t,before,roused⟩ := (minds.sched c).thread_some found
    exact ⟨t,before,congrArg _ roused.context,roused.asleep⟩
  -- a wakeup already posted stays, or is posted again for the same thread
  intro id posted held
  refine stirred_eq_true.mpr (.inl ⟨id,?_,(minds.sched c).threadId s ▸ held⟩)
  have recorded := placed.entered c s id held inside
  rcases minds.wakeups c s with same | ⟨_,again,_,resident | own⟩
  · exact same.trans posted
  · rw [again, ← resident, recorded]
  · rw [again]
    exact own.symm.trans held

end

theorem Rouses.dormant (rouses : x.Rouses y) (placed : x.Placed) (sleeps : place ∈ y.dormant e) :
    place ∈ x.dormant e :=
  (rouses.minds : x.Minds y place.1 [] []).dormant placed sleeps

theorem setContext_dormant (apart : ¬(c = cpu ∧ s = slot)) (still : ∀ s, y.hands cpu s = false)
    (sleeps : (c, s) ∈ (y.onCpu cpu (·.setContext slot frame)).dormant e) : (c, s) ∈ y.dormant e := by
  have same : ((y.onCpu cpu (·.setContext slot frame)).sched c).thread s = (y.sched c).thread s := by
    by_cases here : c = cpu
    · subst here
      rw [onCpu_sched_self, setContext, thread_alter, if_neg fun eq => apart ⟨rfl,eq.symm⟩]
    · rw [onCpu_sched_ne y _ here]
  refine dormant_before sleeps (fun t' found _ => ⟨t',same ▸ found,rfl,id⟩) ?_ ?_
  · intro id posted held
    refine stirred_eq_true.mpr (.inl ⟨id,posted,?_⟩)
    rw [threadId, same]
    exact held
  · intro hands
    have elsewhere : c ≠ cpu := by
      rintro rfl
      cases (still s).symm.trans hands
    exact stirred_eq_true.mpr (.inr ((hands_onCpu_ne elsewhere).trans hands))

theorem parks_dormant (running : (y.sched cpu).current = some slot) (entry : y.frame? cpu slot = some .outside)
    (sleeps : place ∈ (y.onCpu cpu (·.setContext slot (.parking target wait))).dormant e) :
    place = (cpu, slot) ∧ e ∈ wait.listens ∨ place ∈ y.dormant e := by
  obtain ⟨c,s⟩ := place
  by_cases same : c = cpu ∧ s = slot
  · obtain ⟨rfl,rfl⟩ := same
    obtain ⟨_,found',listens,_⟩ := mem_dormant.mp sleeps
    rw [onCpu_sched_self, setContext, thread_alter, if_pos rfl] at found'
    obtain ⟨_,_,rfl⟩ := map_eq_some_iff.mp found'
    exact .inl ⟨rfl,listens⟩
  · refine .inr (setContext_dormant (fun both => same both) ?_ sleeps)
    simp [Executive.hands, running, entry]

theorem entry_frame (entry : x.atEntry cpu) (running : (x.sched cpu).current = some slot) :
    x.frame? cpu slot = some .outside := by
  simpa [atEntry, running] using entry

section
variable (operates : x.Operates cpu fed listened y)
include operates

theorem Operates.dormant (placed : x.Placed) (entry : x.atEntry cpu) (sleeps : place ∈ y.dormant e) :
    place ∈ x.dormant e ∨ e ∈ listened ∧ ∃ ep, y.channels.endpoint? e = some ep ∧ ep.queue.items = [] ∧
      ep.blockedReceiver = (y.sched place.1).threadId place.2 := by
  cases operates with
  | returns minds => exact .inl (minds.dormant placed sleeps)
  | parks minds running _ registered =>
    have outside := entry_frame entry running
    rw [← minds.frame?] at outside
    rcases parks_dormant ((minds.sched cpu).current.trans running) outside sleeps with ⟨rfl,listens⟩ | before
    · obtain ⟨mem,ep,found,empty,receiver⟩ := registered e listens
      refine .inr ⟨mem,ep,found,empty,?_⟩
      rw [onCpu_sched_self, threadId_setContext, (minds.sched cpu).threadId]
      exact receiver
    · exact .inl (minds.dormant placed before)

theorem Operates.listeners (inside : place ∈ y.listeners e) :
    place ∈ x.listeners e ∨ e ∈ listened ∧ place.1 = cpu ∧ (x.sched cpu).current = some place.2 := by
  cases operates with
  | returns minds => exact .inl (minds.listeners inside)
  | @parks y slot target wait minds running _ registered =>
    obtain ⟨frame,found,listens⟩ := mem_listeners.mp inside
    rw [frame?_setContext] at found
    split at found
    · rename_i same
      obtain ⟨_,_,rfl⟩ := map_eq_some_iff.mp found
      exact .inr ⟨(registered e listens).1,same.1,same.2 ▸ running⟩
    · exact .inl (minds.listeners (mem_listeners.mpr ⟨frame,found,listens⟩))

theorem Operates.endpoints (found : x.channels.endpoint? e = some ep) :
    ∃ ep', y.channels.endpoint? e = some ep' ∧ (e ∈ fed ∨ e ∈ listened ∨
      ep'.blockedReceiver = ep.blockedReceiver ∧ (ep.queue.items = [] → ep'.queue.items = [])) := by
  cases operates with
  | returns minds | parks minds => exact minds.endpoints e ep found

theorem Operates.threadId (c : Fin cfg.maxCpus) (s : Nat) : (y.sched c).threadId s = (x.sched c).threadId s := by
  cases operates with
  | returns minds => exact (minds.sched c).threadId s
  | parks minds =>
    by_cases here : c = cpu
    · rw [here, onCpu_sched_self, threadId_setContext, (minds.sched cpu).threadId]
    · rw [onCpu_sched_ne _ _ here, (minds.sched c).threadId]

end

theorem posted_not_dormant (posted : x.wakeups c s = some id) (held : (x.sched c).threadId s = some id) :
    (c, s) ∉ x.dormant e := by
  intro sleeps
  obtain ⟨_,_,_,_,still⟩ := mem_dormant.mp sleeps
  rw [stirred_eq_true.mpr (.inl ⟨id,posted,held⟩)] at still
  cases still

theorem post_not_dormant (held : (x.sched c).threadId s = some id) : (c, s) ∉ (x.post c s id).dormant e := by
  rw [post, if_neg (Nat.not_le.mpr (threadId_lt held))]
  exact posted_not_dormant (by simp) held

theorem atEntry_minds (minds : x.Minds y cpu fed listened) (entry : x.atEntry cpu) : y.atEntry cpu := by
  have frames : y.frame? cpu = x.frame? cpu := funext (minds.frame? cpu)
  rw [atEntry, (minds.sched cpu).current, frames]
  exact entry

theorem Rouses.atEntry (rouses : x.Rouses y) (entry : x.atEntry cpu) : y.atEntry cpu :=
  atEntry_minds (rouses.minds : x.Minds y cpu [] []) entry

theorem park_hands {target : Nat} (entry : x.atEntry cpu) (running : (x.sched cpu).current = some slot) :
    (x.park cpu (some target) wait).hands cpu target = true := by
  rw [park, running]
  have current : ((x.onCpu cpu (·.setContext slot (.parking (some target) wait))).sched cpu).current = some slot := by
    rw [onCpu_sched_self]
    exact running
  rw [Executive.hands, current, bind_some, frame?_setContext, entry_frame entry running]
  simp

theorem park_dormant (entry : x.atEntry cpu) (deaf : wait.listens = [])
    (sleeps : place ∈ (x.park cpu target wait).dormant e) : place ∈ x.dormant e := by
  rw [park] at sleeps
  split at sleeps
  · exact sleeps
  rename_i running
  rcases parks_dormant running (entry_frame entry running) sleeps with ⟨_,listens⟩ | before
  · rw [deaf] at listens
    cases listens
  · exact before

section
variable (placed : x.Placed)
include placed

theorem dormant_resident (sleeps : (c, s) ∈ x.dormant e) :
    ∃ id, (x.sched c).threadId s = some id ∧ x.residents c s = id := by
  obtain ⟨t,found,_⟩ := mem_dormant.mp sleeps
  have held : (x.sched c).threadId s = some t.id := by
    rw [threadId, found]
    rfl
  exact ⟨t.id,held,placed.entered c s t.id held (dormant_frame sleeps)⟩

theorem asleep_blocked (entry : x.atEntry cpu) (found : (x.sched cpu).thread s = some t)
    (asleep : t.asleep) : t.state = .blocked := by
  have inside := asleep_inside found asleep
  unfold Thread.asleep at asleep
  split at asleep
  · cases asleep
  · rename_i target wait leaves
    have running := placed.leaving cpu s target wait (by rw [Executive.frame?, found, map_some, leaves])
    exact absurd (entry_frame entry running) inside
  · simpa using asleep

theorem wakeThread_not_dormant (entry : x.atEntry cpu)
    (held : (x.sched c).threadId s = some id) (recorded : x.residents c s = id)
    (room : c = cpu → (x.sched cpu).ready.items.length < cfg.maxThreads) :
    (c, s) ∉ (x.wakeThread cpu id).dormant e := by
  rw [wakeThread, placed.locateThread held recorded]
  by_cases here : c = cpu
  · subst here
    rw [if_pos rfl]
    intro after
    obtain ⟨_,found,_,asleep,_⟩ := mem_dormant.mp after
    have awake := asleep_blocked (placed.rouses (x.rouses_onCpu c (rouses_unblock _ s)))
      ((x.rouses_onCpu c (rouses_unblock _ s)).atEntry entry) found asleep
    rw [onCpu_sched_self] at found
    refine unblock_awake (room rfl) s ?_
    rw [threadState, found, map_some, awake]
  · rw [if_neg here]
    exact post_not_dormant held

theorem enterCall_attends (entry : x.atEntry cpu) (running : (x.sched cpu).current = some caller)
    (registered : ∀ place ∈ x.dormant e, callee = (x.sched place.1).threadId place.2) :
    (x.enterCall cpu caller origin txn due callee).dormant e = [] := by
  refine eq_nil_iff_forall_not_mem.mpr ?_
  rintro ⟨c,s⟩ after
  have slept : (c, s) ∈ x.dormant e := by
    unfold enterCall at after
    split at after
    · exact park_dormant entry rfl after
    split at after
    · have lent := rouses_lend x cpu caller
      exact (lent _).dormant placed (park_dormant ((lent _).atEntry entry) rfl after)
    · rename_i located
      have posted := rouses_post located
      exact posted.dormant placed (park_dormant (posted.atEntry entry) rfl after)
    · exact park_dormant entry rfl after
  obtain ⟨id,held,recorded⟩ := dormant_resident placed slept
  rw [(registered _ slept).trans held, enterCall, placed.locateThread held recorded] at after
  by_cases here : c = cpu
  · subst here
    rw [if_pos rfl] at after
    have lent := rouses_lend x c caller s
    obtain ⟨_,_,_,_,still⟩ := mem_dormant.mp after
    rw [stirred_eq_true.mpr (.inr (park_hands (lent.atEntry entry) ((lent.sched c).current.trans running)))] at still
    cases still
  rw [if_neg here] at after
  have away : x.locateThread cpu id = .elsewhere c s :=
    (placed.locateThread held recorded cpu).trans (if_neg here)
  have posted := rouses_post away
  exact post_not_dormant held (park_dormant (posted.atEntry entry) rfl after)

end

theorem feeds_disjoint_awaits (feeds : e ∈ Executive.feeds a) : e ∉ Executive.awaits a := by
  cases a with
  | replyReceive cpu on =>
    simp only [Executive.feeds, mem_singleton] at feeds
    simp only [Executive.awaits, mem_singleton, feeds]
    exact on.peer_ne
  | _ => simp_all [Executive.feeds, Executive.awaits]

theorem hands_at_entry (entry : x.atEntry cpu) (s : Nat) : x.hands cpu s = false := by
  rw [Executive.hands]
  cases running : (x.sched cpu).current with
  | none => rfl
  | some => rw [bind_some, entry_frame entry running]

theorem atEntry_of_idle (idle : (x.sched cpu).current = none) : x.atEntry cpu := by
  simp [atEntry, idle]

theorem takeWakeups_awake {s : Scheduler Frame cfg}
    (room : s.ready.items.length + slots.countP (fun slot => (posted slot).isSome) ≤ cfg.maxThreads)
    (mem : slot ∈ slots) (given : posted slot = some id) (held : s.threadId slot = some id)
    (assigned : id ≠ .unassigned) : (takeWakeups s posted slots).threadState slot ≠ some .blocked := by
  -- a thread once unblocked stays so through the rest of the list
  have stays : ∀ (rest : List Nat) (s : Scheduler Frame cfg), s.threadState slot ≠ some .blocked →
      (takeWakeups s posted rest).threadState slot ≠ some .blocked := by
    intro rest s awake blocked
    obtain ⟨_,found,state⟩ := map_eq_some_iff.mp blocked
    obtain ⟨_,before,roused⟩ := (rouses_takeWakeups s posted rest).thread_some found
    rcases roused.state with same | ⟨_,ready⟩
    · exact awake (by rw [threadState, before, map_some, ← same, state])
    · rw [ready] at state
      cases state
  induction slots generalizing s with
  | nil => cases mem
  | cons first rest ih =>
    rw [countP_cons] at room
    cases other : posted first with
    | none =>
      have skipped : takeWakeups s posted (first :: rest) = takeWakeups s posted rest := by
        simp [takeWakeups, other]
      have later : slot ∈ rest := by
        refine (mem_cons.mp mem).resolve_left ?_
        rintro rfl
        cases other.symm.trans given
      rw [skipped]
      exact ih (by omega) later held
    | some id' =>
      have taken : takeWakeups s posted (first :: rest) = takeWakeups (s.unblockThread first id') posted rest := by
        simp [takeWakeups, other]
      rw [other, isSome_some, if_pos rfl] at room
      rw [taken]
      by_cases same : first = slot
      · subst same
        cases other.symm.trans given
        apply stays
        rw [unblockThread, if_neg (by simp [assigned, held])]
        exact unblock_awake (by omega) _
      have grows := s.unblock_ready_length first
      refine ih ?_ ((mem_cons.mp mem).resolve_left fun eq => same eq.symm)
        (((s.rouses_unblockThread first id').threadId slot).trans held)
      rw [unblockThread]
      split <;> omega

section
variable (alert : x.Alert)
include alert

theorem Alert.operates (entry : x.atEntry cpu) (operates : x.Operates cpu fed listened y)
    (vacant : ∀ e ∈ listened, x.listeners e = []) (attended : ∀ e ∈ fed, y.dormant e = []) : y.Alert where
  placed := alert.placed.operates operates
  sole e place place' inside inside' := by
    by_cases own : e ∈ listened
    · have mine : ∀ p ∈ y.listeners e, p.1 = cpu ∧ (x.sched cpu).current = some p.2 := by
        intro p mem
        rcases operates.listeners mem with before | ⟨_,rest⟩
        · rw [vacant e own] at before
          cases before
        · exact rest
      obtain ⟨here,slot⟩ := mine place inside
      obtain ⟨here',slot'⟩ := mine place' inside'
      exact Prod.ext (here.trans here'.symm) (some.inj (slot.symm.trans slot'))
    · have before : ∀ p ∈ y.listeners e, p ∈ x.listeners e := by
        intro _ mem
        exact (operates.listeners mem).resolve_right fun new => own new.1
      exact alert.sole e place place' (before place inside) (before place' inside')
  registered e place sleeps := by
    rcases operates.dormant alert.placed entry sleeps with before | ⟨_,registered⟩
    · obtain ⟨_,found,empty,receiver⟩ := alert.registered e place before
      obtain ⟨ep',after,feeds | listens | ⟨same,quiet⟩⟩ := operates.endpoints found
      · rw [attended e feeds] at sleeps
        cases sleeps
      · have inside := (mem_filter.mp before).1
        rw [vacant e listens] at inside
        cases inside
      · exact ⟨ep',after,quiet empty,by rw [same, receiver, operates.threadId]⟩
    · exact registered

theorem Alert.settle (placed : y.Placed) (listeners : ∀ e place, place ∈ y.listeners e → place ∈ x.listeners e)
    (dormant : ∀ e place, place ∈ y.dormant e → place ∈ x.dormant e)
    (endpoints : ∀ e ep, x.channels.endpoint? e = some ep → y.channels.endpoint? e = some ep)
    (ids : ∀ c s id, (x.sched c).threadId s = some id → (y.sched c).threadId s = some id) : y.Alert where
  placed := placed
  sole e place place' inside inside' :=
    alert.sole e place place' (listeners e place inside) (listeners e place' inside')
  registered e place sleeps := by
    have slept := dormant e place sleeps
    obtain ⟨ep,found,empty,receiver⟩ := alert.registered e place slept
    obtain ⟨_,held,_⟩ := dormant_resident alert.placed slept
    exact ⟨ep,endpoints e ep found,empty,by rw [receiver, held, ids _ _ _ held]⟩

/-- A thread back from a park is nobody's listener until it parks again, and while
    it was parked it was the only one. -/
theorem Alert.resumed (running : (x.sched cpu).current = some slot)
    (parked : x.frame? cpu slot = some (.parked wait)) : (x.onCpu cpu (·.setContext slot .outside)).Alert ∧
      (x.onCpu cpu (·.setContext slot .outside)).atEntry cpu ∧
      ∀ e ∈ wait.listens, (x.onCpu cpu (·.setContext slot .outside)).listeners e = [] := by
  have before : ∀ e place, place ∈ (x.onCpu cpu (·.setContext slot .outside)).listeners e →
      place ≠ (cpu, slot) ∧ place ∈ x.listeners e := by
    rintro e ⟨c,s⟩ inside
    obtain ⟨frame,found,listens⟩ := mem_listeners.mp inside
    rw [frame?_setContext] at found
    split at found
    · obtain ⟨_,_,rfl⟩ := map_eq_some_iff.mp found
      cases listens
    rename_i apart
    refine ⟨?_,mem_listeners.mpr ⟨frame,found,listens⟩⟩
    rintro ⟨⟩
    exact apart ⟨rfl,rfl⟩
  refine ⟨?_,?_,?_⟩
  · refine alert.settle (alert.placed.setContext running (.inl rfl)) (fun e place inside => (before e place inside).2)
      ?_ (fun _ _ => id) ?_
    · rintro e ⟨c,s⟩ sleeps
      obtain ⟨apart,_⟩ := before e _ (mem_filter.mp sleeps).1
      refine setContext_dormant (fun same => apart (Prod.ext same.1 same.2)) ?_ sleeps
      simp [Executive.hands, running, parked]
    · exact onCpu_all (P := fun c after => ∀ s id, (x.sched c).threadId s = some id → after.threadId s = some id)
        (fun s _ held => (threadId_setContext _ slot s _).trans held) fun _ _ _ => id
  · have current : ((x.onCpu cpu (·.setContext slot .outside)).sched cpu).current = some slot := by
      rw [onCpu_sched_self]
      exact running
    simp [atEntry, current, frame?_setContext, parked]
  · intro e listens
    refine eq_nil_iff_forall_not_mem.mpr ?_
    intro place inside
    obtain ⟨apart,mem⟩ := before e place inside
    exact apart (alert.sole e place _ mem (mem_listeners.mpr ⟨_,parked,listens⟩))

theorem Alert.onCpu (entry : x.atEntry cpu) (placed : (x.onCpu cpu f).Placed)
    (awake : ∀ s t, (f (x.sched cpu)).thread s = some t → t.context ≠ .outside →
      ∃ old, (x.sched cpu).thread s = some old ∧ t.context = old.context ∧ (t.asleep → old.asleep))
    (ids : ∀ s id, (x.sched cpu).threadId s = some id → (f (x.sched cpu)).threadId s = some id) :
    (x.onCpu cpu f).Alert := by
  have kept := onCpu_all (x := x) (f := f) (P := fun c after => ∀ s id, (x.sched c).threadId s = some id →
    after.threadId s = some id) ids fun _ _ _ => id
  have known := onCpu_all (x := x) (f := f) (P := fun c after => ∀ s t, after.thread s = some t → t.context ≠ .outside →
      ∃ old, (x.sched c).thread s = some old ∧ t.context = old.context ∧ (t.asleep → old.asleep))
    awake fun _ _ t found _ => ⟨t,found,rfl,id⟩
  refine alert.settle placed ?_ ?_ (fun _ _ => id) kept
  · intro _ _ inside
    obtain ⟨_,found,listens⟩ := mem_listeners.mp inside
    obtain ⟨t,here,rfl⟩ := map_eq_some_iff.mp found
    have within : t.context ≠ .outside := by
      intro outside
      rw [outside] at listens
      cases listens
    obtain ⟨old,before,context,_⟩ := known _ _ t here within
    refine mem_listeners.mpr ⟨old.context,?_,context ▸ listens⟩
    rw [Executive.frame?, before]
    rfl
  · rintro _ ⟨c,s⟩ sleeps
    refine dormant_before sleeps ?_ ?_ ?_
    · intro t found inside
      obtain ⟨old,before,context,slept⟩ := known c s t found inside
      exact ⟨old,before,congrArg _ context,slept⟩
    · exact fun id posted held => stirred_eq_true.mpr (.inl ⟨id,posted,kept c s id held⟩)
    intro hands
    have elsewhere : c ≠ cpu := by
      rintro rfl
      rw [hands_at_entry entry] at hands
      cases hands
    exact stirred_eq_true.mpr (.inr ((hands_onCpu_ne elsewhere).trans hands))

theorem Alert.dispatch (idle : (x.sched cpu).current = none) : (x.onCpu cpu (·.run)).Alert := by
  obtain ⟨_,_,thread⟩ := run_thread idle
  refine alert.onCpu (atEntry_of_idle idle) (alert.placed.dispatch idle) ?_ ?_
  · intro _ _ found _
    rw [thread] at found
    obtain ⟨old,before,rfl⟩ := map_eq_some_iff.mp found
    refine ⟨old,before,rfl,?_⟩
    intro asleep
    simp only [Thread.asleep] at asleep ⊢
    split at asleep
    · cases asleep
    · rfl
    · split at asleep <;> simp_all
  · intro _ _ held
    rw [threadId, thread, Option.map_map]
    exact held

theorem Alert.addThread (entry : x.atEntry cpu) (priority correlation : Nat) :
    (x.onCpu cpu fun s => (s.addThread cpu (spawned priority) correlation).2).Alert := by
  refine alert.onCpu entry (alert.placed.addThread priority correlation) ?_ ?_
  · intro _ t found inside
    obtain ⟨_,⟨_,_,thread⟩ | ⟨_,free,_,_,_,thread⟩⟩ :=
      (x.sched cpu).addThread_cases cpu (spawned priority) correlation
    · rw [thread] at found
      exact ⟨t,found,rfl,id⟩
    rw [thread] at found
    split at found
    · cases found
      exact absurd rfl inside
    · exact ⟨t,found,rfl,id⟩
  · intro _ _ held
    obtain ⟨_,⟨_,_,thread⟩ | ⟨_,free,_,_,_,thread⟩⟩ :=
      (x.sched cpu).addThread_cases cpu (spawned priority) correlation
    · rw [threadId, thread]
      exact held
    rw [threadId, thread, if_neg]
    · exact held
    · rintro rfl
      simp [threadId, free] at held

theorem Alert.drain (idle : (x.sched cpu).current = none) (room : (x.sched cpu).ready.items.length +
      (range cfg.maxThreads).countP (fun slot => (x.wakeups cpu slot).isSome) ≤ cfg.maxThreads) :
    (x.drain cpu).Alert := by
  have rouses : x.Rouses (x.onCpu cpu (takeWakeups · (x.wakeups cpu) (range cfg.maxThreads))) :=
    x.rouses_onCpu cpu (rouses_takeWakeups _ _ _)
  have frames : ∀ c s, (x.drain cpu).frame? c s = x.frame? c s := rouses.frame?
  refine alert.settle alert.placed.drain ?_ ?_ (fun _ _ => id) fun c s _ held => ((rouses.sched c).threadId s).trans held
  · intro _ _ inside
    obtain ⟨frame,found,listens⟩ := mem_listeners.mp inside
    exact mem_listeners.mpr ⟨frame,frames _ _ ▸ found,listens⟩
  rintro _ ⟨c,s⟩ sleeps
  obtain ⟨_,found',_,asleep,_⟩ := mem_dormant.mp sleeps
  obtain ⟨t,found,roused⟩ := (rouses.sched c).thread_some found'
  refine dormant_before sleeps (fun other there _ => ?_) ?_ ?_
  · cases found'.symm.trans there
    exact ⟨t,found,congrArg _ roused.context,roused.asleep⟩
  · intro id posted held
    by_cases here : c = cpu
    · subst here
      have inside : s < cfg.maxThreads := Slots.lt_of_cell found
      obtain ⟨_,positive,_,_,minted⟩ := alert.placed.minted c s id held
      have awake := takeWakeups_awake room (mem_range.mpr inside) posted held
        (minted ▸ ThreadId.mint_ne_unassigned positive)
      have own : (x.drain c).sched c = takeWakeups (x.sched c) (x.wakeups c) (range cfg.maxThreads) :=
        onCpu_sched_self x (takeWakeups · (x.wakeups c) (range cfg.maxThreads))
      rw [threadState, ← own] at awake
      unfold Thread.asleep at asleep
      split at asleep
      · cases asleep
      · rename_i target wait leaves
        have running := alert.placed.leaving c s target wait (by
          rw [Executive.frame?, found, map_some, ← roused.context, leaves])
        cases idle.symm.trans running
      · simp_all
    · refine stirred_eq_true.mpr (.inl ⟨id,?_,((rouses.sched c).threadId s).trans held⟩)
      simp only [Executive.drain, Function.update_of_ne here]
      exact posted
  · intro hands
    refine stirred_eq_true.mpr (.inr ?_)
    have same : (x.drain cpu).frame? c = x.frame? c := funext (frames c)
    have current : ((x.drain cpu).sched c).current = (x.sched c).current := (rouses.sched c).current
    rw [Executive.hands, same, current]
    exact hands

theorem Alert.rouses (rouses : x.Rouses y) : y.Alert := by
  refine alert.settle (alert.placed.rouses rouses) ?_ (fun _ _ => rouses.dormant alert.placed) ?_
    fun c s _ held => ((rouses.sched c).threadId s).trans held
  · intro _ place inside
    exact (rouses.minds : x.Minds y place.1 [] []).listeners inside
  · intro _ _ found
    rw [rouses.channels]
    exact found

theorem Alert.channels {channels : ChannelTable M cfg}
    (kept : ∀ e ep, x.channels.endpoint? e = some ep → channels.endpoint? e = some ep) :
    ({ x with channels } : Executive M cfg).Alert := by
  have placed := alert.placed
  exact alert.settle ⟨placed.positive,placed.minted,placed.distinct,placed.recorded,placed.entered,placed.leaving⟩
    (fun _ _ => id) (fun _ _ => id) kept fun _ _ _ => id

end

theorem Alert.departs {next : Option Nat}
    (alert : x.Alert) (departs : x.Departs y cpu slot target wait next) : y.Alert := by
  refine alert.settle (alert.placed.departs departs) ?_ ?_ ?_ fun c s _ held => (departs.threadId c s).trans held
  · intro e place inside
    obtain ⟨frame,found,listens⟩ := mem_listeners.mp inside
    rw [departs.frame?] at found
    split at found
    · rename_i same
      cases found
      exact mem_listeners.mpr ⟨.parking target wait,same.1 ▸ same.2 ▸ departs.parking,listens⟩
    · exact mem_listeners.mpr ⟨frame,found,listens⟩
  · rintro e ⟨c,s⟩ sleeps
    obtain ⟨t',found',listens,asleep,still⟩ := mem_dormant.mp sleeps
    rw [Bool.eq_false_iff] at still
    have posted : ∀ id, x.wakeups c s = some id → (x.sched c).threadId s ≠ some id := by
      intro id post held
      refine still (stirred_eq_true.mpr (.inl ⟨id,?_,(departs.threadId c s).trans held⟩))
      rw [departs.switched]
      exact post
    by_cases here : c = cpu
    · subst here
      rw [departs.thread] at found'
      obtain ⟨t,found,rfl⟩ := map_eq_some_iff.mp found'
      have frame : x.frame? c s = some t.context := by rw [Executive.frame?, found]; rfl
      have unchosen : next ≠ some s := by
        rintro rfl
        by_cases same : slot = s
        · simp [Thread.asleep, same] at asleep
        -- whoever is about to leave this processor is its current thread
        simp only [Thread.asleep, same, if_false] at asleep
        split at asleep
        · cases asleep
        · rename_i other wait' leaves
          have running := alert.placed.leaving c s other wait' (frame.trans (congrArg some leaves))
          exact same (Option.some.inj (departs.running.symm.trans running))
        · simp at asleep
      obtain ⟨listens,asleep⟩ : e ∈ t.context.listens ∧ t.asleep := by
        by_cases same : slot = s
        · subst same
          have context : t.context = .parking target wait := Option.some.inj (frame.symm.trans departs.parking)
          rw [Thread.asleep, context]
          exact ⟨by simpa [Frame.listens] using listens,rfl⟩
        · exact ⟨by simpa [same] using listens,by simpa [Thread.asleep, same, unchosen] using asleep⟩
      refine mem_dormant.mpr ⟨t,found,listens,asleep,?_⟩
      · rw [Bool.eq_false_iff]
        intro stirred
        rcases stirred_eq_true.mp stirred with ⟨id,post,held⟩ | hands
        · exact posted id post held
        simp only [Executive.hands, departs.running, bind_some, departs.parking] at hands
        split at hands
        · rename_i given
          cases given
          exact unchosen ((departs.handed rfl).trans (congrArg some (by simpa using hands)))
        · cases hands
    · rw [departs.sched here] at found'
      refine mem_dormant.mpr ⟨t',found',listens,asleep,?_⟩
      rw [Bool.eq_false_iff]
      intro stirred
      rcases stirred_eq_true.mp stirred with ⟨id,post,held⟩ | hands
      · exact posted id post held
      refine still (stirred_eq_true.mpr (.inr ?_))
      have frames : y.frame? c = x.frame? c := by
        funext place
        rw [departs.frame?, if_neg fun both => here both.1]
      rw [Executive.hands, departs.sched here, frames]
      exact hands
  · intro _ _ found
    rw [departs.switched]
    exact found

section
variable [Stamped M] {x : Executive M cfg} {origin : EndpointId}

theorem send_attends (alert : x.Alert) (entry : x.atEntry cpu)
    (room : ∀ place ∈ x.dormant origin.peer, place.1 = cpu → (x.sched cpu).ready.items.length < cfg.maxThreads) :
    (x.send cpu origin message).2 = x ∨ (x.send cpu origin message).2.dormant origin.peer = [] := by
  unfold send
  split
  · exact .inl rfl
  rename_i destination found
  split
  · exact .inl rfl
  rename_i filled queued
  refine .inr (eq_nil_iff_forall_not_mem.mpr ?_)
  rintro ⟨_,_⟩ after
  have fed : origin.peer ∈ (⟨[origin.peer], [], fun _ _ => True, fun _ _ => False, False⟩ : Scope M).fed :=
    mem_cons_self
  have fills : x.Minds (x.setEndpoint origin.peer (filled.setBlockedReceiver none)) cpu [origin.peer] [] :=
    (works_setEndpoint found ((Endpoint.worked_enqueue queued fed trivial).receiver (.inl fed) none)).minds
  have placed := alert.placed.minds fills
  have woken := placed.rouses (rouses_wakeIfAny _ cpu destination.blockedReceiver)
  have later := (rouses_signalEndpointArrival _ cpu _).dormant woken after
  have slept := (rouses_wakeIfAny _ cpu destination.blockedReceiver).dormant placed later
  have before := fills.dormant alert.placed slept
  obtain ⟨_,here,_,receiver⟩ := alert.registered _ _ before
  cases found.symm.trans here
  obtain ⟨id,held,recorded⟩ := dormant_resident placed slept
  rw [show destination.blockedReceiver = some id from receiver.trans held] at later
  exact wakeThread_not_dormant placed (atEntry_minds fills entry) held recorded (room _ before) later

theorem callUntil_attends (alert : x.Alert) (entry : x.atEntry cpu)
    : x.Operates cpu [] [] (x.callUntil cpu origin req due now).2 ∨
      (x.callUntil cpu origin req due now).2.dormant origin.peer = [] := by
  rcases x.callUntil_cases cpu origin req due now with
    ⟨_,y,refused,works⟩ | ⟨caller,destination,z,running,found,works,_,placed⟩
  · rw [refused]
    exact .inl (.returns ((works_noteResidence x cpu).trans (works (.waiting M []))).minds)
  rw [placed]
  have minds := ((works_noteResidence x cpu).trans works).minds
  refine .inr (enterCall_attends (alert.placed.minds minds) (atEntry_minds minds entry)
    ((minds.sched cpu).current.trans running) ?_)
  intro place sleeps
  obtain ⟨_,here,_,receiver⟩ := alert.registered _ _ (minds.dormant alert.placed sleeps)
  cases found.symm.trans here
  rw [receiver, (minds.sched place.1).threadId]

theorem Alert.step (alert : x.Alert) (attended : x.Attended a) (done : x.perform a = some (out, y)) : y.Alert := by
  -- an operation that delivers where nobody is dormant leaves nobody dormant there
  have fed : ∀ {cpu : Fin cfg.maxCpus}, operator a = some cpu → (∀ e ∈ awaits a, x.listeners e = []) →
      (∀ e ∈ feeds a, x.dormant e = []) → y.Alert := by
    intro cpu own vacant quiet
    obtain ⟨entry,operates⟩ := perform_operates done own
    refine alert.operates entry operates vacant ?_
    intro e feeds
    refine eq_nil_iff_forall_not_mem.mpr ?_
    intro _ sleeps
    rcases operates.dormant alert.placed entry sleeps with before | ⟨listens,_⟩
    · rw [quiet e feeds] at before
      cases before
    · exact feeds_disjoint_awaits feeds listens
  -- an action always happens, or only if its guard holds; leaving and resuming have their own conditions
  cases a with first | cases done | obtain ⟨entry,_,rfl⟩ := guarded done | skip
  | channelCreate => exact alert.channels fun _ _ => ChannelTable.endpoint?_create_of_some
  | channelCreateWithObjects => exact alert.channels fun _ _ => ChannelTable.endpoint?_createWithObjects_of_some
  | addThread cpu priority correlation => exact alert.addThread entry priority correlation
  | send =>
    rcases send_attends alert entry attended with same | quiet
    · rw [same]
      exact alert
    · exact alert.operates entry (perform_operates done rfl).2 (by simp [awaits]) (by simpa [feeds] using quiet)
  | receive => exact fed rfl (by simpa [awaits, Attended] using attended) (by simp [feeds])
  | tryReceive | closeEndpoint => exact fed rfl (by simp [awaits]) (by simp [feeds])
  | receiveAny => exact fed rfl attended (by simp [feeds])
  | callUntil cpu origin req due now =>
    rcases callUntil_attends alert entry with refused | quiet
    · exact alert.operates entry refused (by simp) (by simp)
    · exact alert.operates entry (x.operates_callUntil cpu origin req due now) (by simp) (by simpa using quiet)
  | reply | replyAndContinue => exact fed rfl (by simp [awaits]) (by simpa [feeds, Attended] using attended)
  | replyReceive => exact fed rfl (by simpa [awaits] using attended.1) (by simpa [feeds] using attended.2)
  | leave =>
    obtain ⟨slot,_,wait,_,departs⟩ := leave_eq_some done
    exact alert.departs departs
  | resume cpu now later =>
    obtain ⟨slot,wait,running,parked,went⟩ := resume_eq_some done
    obtain ⟨back,entry,vacant⟩ := alert.resumed running parked
    have operates := operates_resumeWait (alert.placed.noted_resumed running parked) slot wait now later
    rw [went] at operates
    exact back.operates entry operates vacant (by simp)
  | dispatch => exact alert.dispatch entry
  | drain => exact alert.drain entry attended
  | expire cpu now => exact alert.rouses (x.rouses_expireTimedOutWaits cpu now)

omit [Stamped M] in
theorem alert_new (ports : PortTable cfg) : (new ports : Executive M cfg).Alert := by
  have empty : ∀ e place, place ∉ (new ports : Executive M cfg).listeners e := by
    intro e place inside
    obtain ⟨_,found,_⟩ := mem_listeners.mp inside
    simp [new, Scheduler.new, Executive.frame?, Scheduler.thread] at found
  refine ⟨placed_new ports,?_,?_⟩
  · intro e place _ inside
    exact absurd inside (empty e place)
  · intro e place sleeps
    exact absurd (mem_filter.mp sleeps).1 (empty e place)

open Transition

/-- In every run that keeps to the conditions, a thread that is blocked in a receive
    on an endpoint with a message queued has a wakeup posted for it or is about to
    be handed its processor. -/
theorem queued_message_wakes_receiver {ports : PortTable cfg} {history : List (ExecAction M cfg)}
    {x : Executive M cfg} (run : Disciplined (fun _ => Attended) Step (new ports) history x) {e : EndpointId}
    {ep : Endpoint M cfg} (found : x.channels.endpoint? e = some ep) (queued : ep.queue.items ≠ [])
    {c : Fin cfg.maxCpus} {s : Nat} {t : Thread Frame} {wait : Wait} (thread : (x.sched c).thread s = some t)
    (parked : t.context = .parked wait) (listens : e ∈ wait.listens) (blocked : t.state = .blocked) :
    x.wakeups c s = some t.id ∨ x.hands c s = true := by
  have alert : x.Alert := by
    refine run.invariant (fun _ => Alert) ?_ (alert_new ports)
    intro _ _ _ _ alert attended step
    obtain ⟨_,done⟩ := step.performed
    exact alert.step attended done
  by_contra unstirred
  have still : x.stirred (c, s) = false := by
    rw [Bool.eq_false_iff]
    intro stirred
    rcases stirred_eq_true.mp stirred with ⟨_,posted,held⟩ | hands
    · rw [threadId, thread] at held
      cases held
      exact unstirred (.inl posted)
    · exact unstirred (.inr hands)
  have sleeps : (c, s) ∈ x.dormant e :=
    mem_dormant.mpr ⟨t,thread,by rw [parked]; exact listens,by simp [asleep, parked, blocked],still⟩
  obtain ⟨_,found',empty,_⟩ := alert.registered e _ sleeps
  cases found.symm.trans found'
  exact queued empty

open Executive in
def remoteSend : List (ExecAction (Message .default) .default) :=
  [.channelCreate, .addThread bootCpu 16 0, .addThread otherCpu 16 0, .dispatch bootCpu, .dispatch otherCpu,
    .receive bootCpu ⟨0, .zero⟩, .leave bootCpu, .send otherCpu ⟨0, .one⟩ blank]

theorem remote_send_wakes_receiver : ∃ x : Executive (Message .default) .default, ∃ t ep,
      Disciplined (fun _ => Attended) Step (new .new) remoteSend x ∧
      (x.sched bootCpu).thread 0 = some t ∧ t.context = .parked (.receive ⟨0, .zero⟩) ∧ t.state = .blocked ∧
      x.channels.endpoint? ⟨0, .zero⟩ = some ep ∧ ep.queue.items ≠ [] ∧
      (x.wakeups bootCpu 0 = some t.id ∨ x.hands bootCpu 0 = true) := by
  obtain ⟨x,run,t,thread,parked,blocked,ep,found,queued⟩ : ∃ x : Executive (Message .default) .default,
      Disciplined (fun _ => Attended) Step (new .new) remoteSend x ∧ ∃ t, (x.sched bootCpu).thread 0 = some t ∧
      t.context = .parked (.receive ⟨0, .zero⟩) ∧ t.state = .blocked ∧
      ∃ ep, x.channels.endpoint? ⟨0, .zero⟩ = some ep ∧ ep.queue.items ≠ [] := Disciplined.reaches (by decide +kernel)
  exact ⟨x,t,ep,run,thread,parked,blocked,found,queued,
    queued_message_wakes_receiver run found queued thread parked (by simp [Wait.listens]) blocked⟩

open Executive in
/-- A receiver sleeps, and a thread replies on the other endpoint with no call pending. -/
def unsolicitedReply : List (ExecAction (Message .default) .default) :=
  [.channelCreate, .addThread bootCpu 16 0, .addThread bootCpu 16 0, .dispatch bootCpu,
    .receive bootCpu ⟨0, .zero⟩, .leave bootCpu, .replyAndContinue bootCpu ⟨0, .one⟩ blank]

/-- The reply is queued and its receiver sleeps on. -/
theorem reply_leaves_receiver_asleep : ∃ x : Executive (Message .default) .default, ∃ t ep,
      Run Step (new .new) unsolicitedReply x ∧
      (x.sched bootCpu).thread 0 = some t ∧ t.context = .parked (.receive ⟨0, .zero⟩) ∧ t.state = .blocked ∧
      x.channels.endpoint? ⟨0, .zero⟩ = some ep ∧ ep.queue.items ≠ [] ∧
      x.wakeups bootCpu 0 = none ∧ x.hands bootCpu 0 = false := by
  simp only [exists_and_left]
  exact Disciplined.reaches (by decide +kernel)

end
end Executive
end Tessera
