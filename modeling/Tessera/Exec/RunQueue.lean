import Tessera.Exec.Preemption
import Tessera.Lib.Transition

/-!
The ready ring of one scheduler against the states of its threads. An entry of
the ring is a claim and the thread's state is the fact: a thread that was handed
the processor, or that ended, leaves its entry behind until a dispatch drops it.
A run whose handoffs go only to threads that are not queued leaves no entry
behind but those of ended threads.
-/
namespace Tessera
open List Option Slots
variable {C : Type} {cfg : Config}
namespace Scheduler

def readyEntries (s : Scheduler C cfg) : List Nat :=
  s.ready.items.filter fun slot => s.threadState slot = some .ready

theorem scanReady_kept (s : Scheduler C cfg) (entries kept : List Nat) (best : Option (Nat × Nat)) :
    (s.scanReady entries kept best).1 = kept ++ entries.filter fun slot => s.threadState slot = some .ready := by
  induction entries generalizing kept best with
  | nil => simp [scanReady]
  | cons slot rest ih =>
    rw [scanReady]
    by_cases ready : s.threadState slot = some .ready
    · rw [if_neg (not_not.mpr ready), List.filter_cons_of_pos (by simpa using ready)]
      split
      · rw [ih, append_assoc, singleton_append]
      · rw [ih, append_assoc, singleton_append]
    · rw [if_pos ready, List.filter_cons_of_neg (by simpa using ready), ih]

/-- The entry remembered is the first of the highest priority among those kept. -/
def Leads (s : Scheduler C cfg) (kept : List Nat) : Option (Nat × Nat) → Prop
  | none => kept = []
  | some (place, priority) => ∃ before slot after, kept = before ++ slot :: after ∧ before.length = place ∧
      (∀ other ∈ before, (s.threadPriority other).getD 0 < priority) ∧ (s.threadPriority slot).getD 0 = priority ∧
      ∀ other ∈ after, (s.threadPriority other).getD 0 ≤ priority

theorem Leads.scanReady {s : Scheduler C cfg} {kept : List Nat} {best : Option (Nat × Nat)}
    (leads : s.Leads kept best) (entries : List Nat) :
    s.Leads (s.scanReady entries kept best).1 (s.scanReady entries kept best).2 := by
  induction entries generalizing kept best with
  | nil => exact leads
  | cons slot rest ih =>
    rw [Scheduler.scanReady]
    split
    · exact ih leads
    split
    · rename_i higher
      refine ih ⟨kept,slot,[],rfl,rfl,fun other mem => ?_,rfl,by simp⟩
      rcases best with _ | ⟨_,priority⟩
      · cases leads ▸ mem
      · obtain ⟨before,first,after,rfl,_,lower,same,upper⟩ := leads
        have above : priority < (s.threadPriority slot).getD 0 := by simpa using higher
        rcases mem_append.mp mem with early | late
        · exact Nat.lt_trans (lower other early) above
        rcases mem_cons.mp late with rfl | late
        · exact same ▸ above
        · exact Nat.lt_of_le_of_lt (upper other late) above
    rename_i lower
    rcases best with _ | ⟨_,_⟩
    · simp at lower
    · obtain ⟨before,first,after,rfl,here,early,same,upper⟩ := leads
      refine ih ⟨before,first,after ++ [slot],by simp,here,early,same,fun other mem => ?_⟩
      rcases mem_append.mp mem with old | new
      · exact upper other old
      · rw [mem_singleton.mp new]
        simpa using lower

variable {s : Scheduler C cfg} {slot target : Nat} {state : ThreadState} {next taken free : Option Nat}

/-- Nothing is popped only when no entry's thread is ready, and the ring is then empty; otherwise the
    first of the most urgent is, and every stale entry is dropped. -/
theorem popReady_cases (s : Scheduler C cfg) :
    s.popReady.1 = none ∧ s.readyEntries = [] ∧ s.popReady.2.ready.items = [] ∨
    ∃ slot before after, s.popReady.1 = some slot ∧ s.readyEntries = before ++ slot :: after ∧
      s.popReady.2.ready.items = before ++ after ∧
      (∀ other ∈ before, (s.threadPriority other).getD 0 < (s.threadPriority slot).getD 0) ∧
      ∀ other ∈ after, (s.threadPriority other).getD 0 ≤ (s.threadPriority slot).getD 0 := by
  have kept := s.scanReady_kept s.ready.items [] none
  have leads := Leads.scanReady (show s.Leads [] none from rfl) s.ready.items
  unfold popReady
  split
  · rename_i nothing
    rw [nothing] at leads
    exact .inl ⟨rfl,kept.symm.trans leads,leads⟩
  rename_i found
  rw [found] at leads
  obtain ⟨before,slot,after,split,rfl,lower,same,upper⟩ := leads
  refine .inr ⟨slot,before,after,?_,kept.symm.trans split,?_,same ▸ lower,same ▸ upper⟩
  · show (s.scanReady s.ready.items [] none).1[before.length]? = some slot
    rw [split, getElem?_append_right (Nat.le_refl _), Nat.sub_self, getElem?_cons_zero]
  · show (s.scanReady s.ready.items [] none).1.eraseIdx before.length = before ++ after
    rw [split, eraseIdx_append_of_length_le (Nat.le_refl _), Nat.sub_self, eraseIdx_cons_zero]

theorem popReady_none (popped : s.popReady.1 = none) : s.readyEntries = [] ∧ s.popReady.2.ready.items = [] := by
  rcases s.popReady_cases with ⟨_,empty⟩ | ⟨_,_,_,found,_⟩
  · exact empty
  · cases popped.symm.trans found

theorem popReady_perm (popped : s.popReady.1 = some slot) :
    (slot :: s.popReady.2.ready.items).Perm s.readyEntries := by
  rcases s.popReady_cases with ⟨none,_⟩ | ⟨_,_,_,found,ready,left,_⟩
  · cases popped.symm.trans none
  · cases popped.symm.trans found
    rw [ready, left]
    exact perm_middle.symm

theorem popReady_sublist (s : Scheduler C cfg) : s.popReady.2.ready.items.Sublist s.readyEntries := by
  rcases s.popReady_cases with ⟨_,_,gone⟩ | ⟨slot,before,after,_,ready,left,_⟩
  · rw [gone]
    exact nil_sublist _
  · rw [ready, left]
    exact (sublist_cons_self slot after).append_left before

theorem mem_readyEntries : slot ∈ s.readyEntries ↔ slot ∈ s.ready.items ∧ s.threadState slot = some .ready := by
  simp [readyEntries]

/-- A thread that runs is the one recorded as current, and that one runs unless it
    was ended on the processor. -/
structure Seated (s : Scheduler C cfg) : Prop where
  running : ∀ slot, s.threadState slot = some .running → s.current = some slot
  occupied : ∀ slot, s.current = some slot → s.threadState slot = some .running ∨ s.threadState slot = some .exited

def Listed (s : Scheduler C cfg) (taken : Option Nat) : Prop :=
  ∀ slot, s.threadState slot = some .ready → slot ∈ s.ready.items ∨ taken = some slot

/-- No slot has two entries, and an entry stands for a ready thread or for one
    that ended; a given slot has none. -/
structure Tidy (s : Scheduler C cfg) (free : Option Nat) : Prop where
  once : s.ready.items.Nodup
  live : ∀ slot ∈ s.ready.items, s.threadState slot = some .ready ∨ s.threadState slot = some .exited
  apart : ∀ slot ∈ s.ready.items, free ≠ some slot

def settle (s : Scheduler C cfg) (state : ThreadState) : Scheduler C cfg :=
  match s.current with
  | none => s
  | some slot => s.setState slot state

theorem settle_threadState (s : Scheduler C cfg) (state : ThreadState) (slot : Nat) :
    (s.settle state).threadState slot =
      if s.current = some slot then (s.threadState slot).map fun _ => state else s.threadState slot := by
  unfold settle
  split
  · rename_i idle
    simp [idle]
  · rename_i running
    simp [threadState_setState, running]

theorem settle_ready (s : Scheduler C cfg) (state : ThreadState) : (s.settle state).ready = s.ready := by
  unfold settle
  split <;> rfl

theorem stopCurrent_eq_settle (s : Scheduler C cfg) : s.stopCurrent = s.settle .blocked := rfl

def Still (s : Scheduler C cfg) : Prop := ∀ slot, s.threadState slot ≠ some .running

theorem Seated.settle (seated : s.Seated) (stops : state ≠ .running) : (s.settle state).Still := by
  intro slot runs
  rw [settle_threadState] at runs
  split at runs
  · obtain ⟨_,_,same⟩ := Option.map_eq_some_iff.mp runs
    exact stops same
  · rename_i other
    exact other (seated.running slot runs)

theorem Seated.still (seated : s.Seated) (idle : s.current = none) : s.Still := by
  intro slot runs
  have := seated.running slot runs
  rw [idle] at this
  cases this

theorem Still.popReady (still : s.Still) : s.popReady.2.Still := by
  intro slot
  rw [popReady_threadState]
  exact still slot

theorem Still.switchTo (still : s.Still) (there : ∀ slot, next = some slot → (s.threadState slot).isSome) :
    (s.switchTo next).Seated := by
  constructor
  · intro slot runs
    rw [threadState_switchTo] at runs
    rw [switchTo_current]
    split at runs
    · assumption
    · exact absurd runs (still slot)
  · intro slot current
    rw [switchTo_current] at current
    obtain ⟨_,found⟩ := Option.isSome_iff_exists.mp (there slot current)
    rw [threadState_switchTo, if_pos current, found]
    exact .inl rfl

theorem popReady_there (popped : s.popReady.1 = some slot) : (s.popReady.2.threadState slot).isSome := by
  rw [popReady_threadState, popReady_ready popped]
  rfl

variable {t : Scheduler C cfg} {other : Option Nat}

theorem Seated.revise (seated : s.Seated) (current : t.current = s.current)
    (states : ∀ slot, t.threadState slot = s.threadState slot ∨
      t.threadState slot ≠ some .running ∧ (s.current = some slot → t.threadState slot = some .exited)) : t.Seated := by
  constructor
  · intro slot runs
    rw [current]
    rcases states slot with same | ⟨stopped,_⟩
    · exact seated.running slot (same ▸ runs)
    · exact absurd runs stopped
  · intro slot running
    rw [current] at running
    rcases states slot with same | ⟨_,ended⟩
    · rw [same]
      exact seated.occupied slot running
    · exact .inr (ended running)

theorem Listed.revise (listed : s.Listed taken) (ready : ∀ slot, t.threadState slot = some .ready →
      slot ∈ t.ready.items ∨ s.threadState slot = some .ready ∧ (slot ∈ s.ready.items → slot ∈ t.ready.items)) :
    t.Listed taken := by
  intro slot now
  rcases ready slot now with entry | ⟨before,stays⟩
  · exact .inl entry
  · exact (listed slot before).imp stays id

theorem Listed.settle (listed : s.Listed taken) (stops : state ≠ .ready) : (s.settle state).Listed taken := by
  refine listed.revise fun _ ready => ?_
  rw [settle_threadState] at ready
  rw [settle_ready]
  split at ready
  · obtain ⟨_,_,same⟩ := Option.map_eq_some_iff.mp ready
    exact absurd same stops
  · exact .inr ⟨ready,id⟩

theorem Listed.popReady (listed : s.Listed none) : s.popReady.2.Listed s.popReady.1 := by
  intro slot ready
  rw [popReady_threadState] at ready
  have mem : slot ∈ s.readyEntries := mem_readyEntries.mpr ⟨(listed slot ready).resolve_right nofun,ready⟩
  cases popped : s.popReady.1 with
  | none =>
    rw [(popReady_none popped).1] at mem
    cases mem
  | some =>
    rcases List.mem_cons.mp ((popReady_perm popped).mem_iff.mpr mem) with rfl | kept
    · exact .inr rfl
    · exact .inl kept

theorem Listed.switchTo (listed : s.Listed next) : (s.switchTo next).Listed none := by
  intro slot ready
  rw [threadState_switchTo] at ready
  rw [switchTo_ready]
  split at ready
  · obtain ⟨_,_,same⟩ := Option.map_eq_some_iff.mp ready
    cases same
  · rename_i other
    exact .inl ((listed slot ready).resolve_right other)

theorem Listed.weaken (listed : s.Listed none) (taken : Option Nat) : s.Listed taken :=
  fun slot ready => .inl ((listed slot ready).resolve_right nofun)

theorem lt_of_threadState (found : s.threadState slot = some state) : slot < cfg.maxThreads := by
  obtain ⟨_,there,_⟩ := Option.map_eq_some_iff.mp found
  exact lt_of_cell there

section
variable (tidy : s.Tidy free)
include tidy

theorem Tidy.revise (fewer : t.ready.items.Sublist s.ready.items)
    (states : ∀ slot ∈ t.ready.items, t.threadState slot = s.threadState slot ∨ t.threadState slot = some .exited)
    (apart : ∀ slot ∈ t.ready.items, other ≠ some slot) : t.Tidy other := by
  refine ⟨tidy.once.sublist fewer,fun slot mem => ?_,apart⟩
  rcases states slot mem with same | ended
  · rw [same]
    exact tidy.live slot (fewer.subset mem)
  · exact .inr ended

theorem Tidy.popReady :
    s.popReady.2.Tidy s.popReady.1 ∧ s.popReady.2.Tidy free ∧ (s.popReady.1.isSome → s.popReady.1 ≠ free) := by
  have fewer := (popReady_sublist s).trans filter_sublist
  have kept {other : Option Nat} (apart : ∀ slot ∈ s.popReady.2.ready.items, other ≠ some slot) : s.popReady.2.Tidy other :=
    tidy.revise fewer (fun slot _ => .inl (s.popReady_threadState slot)) apart
  refine ⟨kept fun slot mem popped => ?_,kept fun slot mem => tidy.apart slot (fewer.subset mem),fun some same => ?_⟩
  · have once := (popReady_perm popped).nodup_iff.mpr (tidy.once.filter _)
    exact (nodup_cons.mp once).1 mem
  · obtain ⟨slot,popped⟩ := isSome_iff_exists.mp some
    have mem := mem_readyEntries.mp ((popReady_perm popped).mem_iff.mp mem_cons_self)
    exact tidy.apart slot mem.1 (same.symm.trans popped)

theorem Tidy.restate (items : t.ready.items = s.ready.items) (states : ∀ slot, free ≠ some slot →
      t.threadState slot = s.threadState slot ∨ t.threadState slot = some .exited) : t.Tidy free :=
  tidy.revise (items ▸ .refl _) (fun slot mem => states slot (tidy.apart slot (items ▸ mem)))
    fun slot mem => tidy.apart slot (items ▸ mem)

theorem Tidy.room (inside : slot < cfg.maxThreads) (absent : slot ∉ s.ready.items) :
    s.ready.items.length < cfg.maxThreads := by
  have within : (slot :: s.ready.items) ⊆ List.range cfg.maxThreads := by
    intro other mem
    rcases List.mem_cons.mp mem with rfl | mem
    · exact mem_range.mpr inside
    have there : (s.threadState other).isSome := by
      rcases tidy.live other mem with state | state <;> rw [state] <;> rfl
    obtain ⟨_,found⟩ := Option.isSome_iff_exists.mp (by simpa [threadState] using there)
    exact mem_range.mpr (lt_of_cell found)
  have bounded := (subperm_of_subset (nodup_cons.mpr ⟨absent,tidy.once⟩) within).length_le
  rw [length_cons, length_range] at bounded
  omega

theorem Tidy.join (items : t.ready.items = s.ready.items ++ [slot]) (absent : slot ∉ s.ready.items)
    (new : t.threadState slot = some .ready) (same : ∀ o ∈ s.ready.items, t.threadState o = s.threadState o)
    (apart : ∀ o ∈ s.ready.items, other ≠ some o) (fresh : other ≠ some slot) : t.Tidy other := by
  have split (o : Nat) (mem : o ∈ t.ready.items) : o ∈ s.ready.items ∨ o = slot := by
    rw [items, mem_append, mem_singleton] at mem
    exact mem
  constructor
  · rw [items, nodup_append]
    refine ⟨tidy.once,nodup_singleton slot,?_⟩
    intro _ mem _ last
    rw [mem_singleton.mp last]
    rintro rfl
    exact absent mem
  · intro o mem
    rcases split o mem with old | rfl
    · rw [same o old]
      exact tidy.live o old
    · exact .inl new
  · intro o mem
    rcases split o mem with old | rfl
    · exact apart o old
    · exact fresh

end

theorem Tidy.settle (tidy : s.Tidy s.current) (state : ThreadState) : (s.settle state).Tidy s.current := by
  refine tidy.restate (congrArg Bounded.items (s.settle_ready state)) fun _ apart => .inl ?_
  rw [settle_threadState, if_neg apart]

theorem Tidy.switchTo (tidy : s.Tidy next) : (s.switchTo next).Tidy (s.switchTo next).current := by
  rw [switchTo_current]
  refine tidy.restate (congrArg Bounded.items (s.switchTo_ready next)) fun _ apart => .inl ?_
  rw [threadState_switchTo, if_neg apart]

section
variable (s : Scheduler C cfg)

theorem requeueCurrent_cases : s.current = none ∧ s.requeueCurrent = s ∨
      ∃ slot, s.current = some slot ∧ s.requeueCurrent = (s.settle .ready).enqueue slot := by
  unfold requeueCurrent settle
  cases s.current with
  | none => exact .inl ⟨rfl,rfl⟩
  | some slot => exact .inr ⟨slot,rfl,rfl⟩

theorem requeueCurrent_threadState (slot : Nat) :
    s.requeueCurrent.threadState slot = (s.settle .ready).threadState slot := by
  rcases s.requeueCurrent_cases with ⟨idle,same⟩ | ⟨_,_,same⟩
  · rw [same, settle, idle]
  · rw [same, enqueue_threadState]

theorem unblock_cases (slot : Nat) : s.unblock slot = s ∨
      s.threadState slot = some .blocked ∧ (s.unblock slot).current = s.current ∧
        (s.unblock slot).ready.items = s.ready.items ++ [slot] ∧
        ∀ other, (s.unblock slot).threadState other = (s.setState slot .ready).threadState other := by
  unfold unblock
  split
  · rename_i blocked
    split
    · exact .inl rfl
    · rename_i pushed
      exact .inr ⟨blocked,rfl,(Bounded.push_eq_some.mp pushed).2,fun _ => rfl⟩
  · exact .inl rfl

theorem addThread_ring (cpu : Nat) (new : Thread C) (correlation : Nat) :
    (s.addThread cpu new correlation).2.ready = s.ready ∧
        (∀ other, (s.addThread cpu new correlation).2.threadState other = s.threadState other) ∨
      ∃ slot, s.threadState slot = none ∧ (s.addThread cpu new correlation).2.ready.items = s.ready.items ++ [slot] ∧
        ∀ other, (s.addThread cpu new correlation).2.threadState other =
          if slot = other then some .ready else s.threadState other := by
  rcases (s.addThread_cases cpu new correlation).2 with ⟨_,ready,same⟩ | ⟨slot,empty,_,_,ready,threads⟩
  · exact .inl ⟨ready,fun _ => by rw [threadState, same, threadState]⟩
  refine .inr ⟨slot,by rw [threadState, empty, map_none],ready,fun _ => ?_⟩
  rw [threadState, threads]
  split <;> rfl

theorem run_eq : s.popReady.1 = none ∧ s.run = s.popReady.2 ∨
      ∃ first, s.popReady.1 = some first ∧ s.run = s.popReady.2.switchTo (some first) := by
  unfold run
  split
  · rename_i popped
    exact .inl ⟨by rw [popped],by rw [popped]⟩
  · rename_i first _ popped
    exact .inr ⟨first,by rw [popped],by rw [popped]⟩

theorem reap_threadState (slot : Nat) : (s.reap slot).2 = s ∨
      (s.reap slot).2.ready.items = s.ready.items.filter (· ≠ slot) ∧
      ∀ other, (s.reap slot).2.threadState other = if slot = other then none else s.threadState other := by
  rcases s.reap_cases slot with same | ⟨items,threads⟩
  · exact .inl same
  refine .inr ⟨items,?_⟩
  intro _
  rw [threadState, threads]
  split <;> rfl

end

theorem Seated.requeueCurrent (seated : s.Seated) : s.requeueCurrent.Still := by
  intro slot
  rw [requeueCurrent_threadState]
  have still : (s.settle .ready).Still := seated.settle nofun
  exact still slot

theorem Listed.requeueCurrent (listed : s.Listed taken)
    (room : s.current.isSome → s.ready.items.length < cfg.maxThreads) : s.requeueCurrent.Listed taken := by
  rcases s.requeueCurrent_cases with ⟨_,same⟩ | ⟨cur,running,same⟩
  · rw [same]
    exact listed
  intro slot ready
  rw [same, enqueue_threadState, settle_threadState] at ready
  have items : s.requeueCurrent.ready.items = s.ready.items ++ [cur] := by
    rw [same]
    rcases (s.settle .ready).enqueue_items cur with joined | ⟨full,_⟩
    · rw [joined, settle_ready]
    rw [settle_ready] at full
    have := room (by rw [running]; rfl)
    omega
  rw [items, mem_append, mem_singleton]
  split at ready
  · rename_i here
    rw [running] at here
    cases here
    exact .inl (.inr rfl)
  · exact (listed slot ready).imp .inl id

structure Keeps (s t : Scheduler C cfg) : Prop where
  seated : s.Seated → t.Seated
  listed : s.Listed none → t.Listed none
  tidy : s.Seated → s.Tidy s.current → t.Tidy t.current

theorem Seated.asleep (seated : s.Seated) (asleep : s.threadState slot = some .blocked ∨ s.threadState slot = none) :
    s.current ≠ some slot := by
  intro current
  rcases seated.occupied slot current with state | state <;> simp [state] at asleep

theorem Tidy.absent (tidy : s.Tidy free) (asleep : s.threadState slot = some .blocked ∨ s.threadState slot = none) :
    slot ∉ s.ready.items := by
  intro mem
  rcases tidy.live slot mem with state | state <;> simp [state] at asleep

theorem keeps_joined (asleep : s.threadState slot = some .blocked ∨ s.threadState slot = none)
    (current : t.current = s.current) (items : t.ready.items = s.ready.items ++ [slot])
    (states : ∀ other, t.threadState other = if slot = other then some .ready else s.threadState other) :
    Keeps s t := by
  refine ⟨fun seated => seated.revise current fun _ => ?_,fun listed => ?_,fun seated tidy => ?_⟩
  · rw [states]
    split
    · rename_i same
      exact .inr ⟨nofun,fun running => absurd (same ▸ running) (seated.asleep asleep)⟩
    · exact .inl rfl
  · refine listed.revise fun _ ready => ?_
    rw [states] at ready
    rw [items, mem_append, mem_singleton]
    split at ready
    · rename_i here
      exact .inl (.inr here.symm)
    · exact .inr ⟨ready,.inl⟩
  · have absent := tidy.absent asleep
    rw [current]
    apply tidy.join items absent
    · rw [states, if_pos rfl]
    · intro _ mem
      rw [states, if_neg]
      rintro rfl
      exact absent mem
    · exact tidy.apart
    · exact seated.asleep asleep

theorem Seated.handoffTo (seated : s.Seated) (there : (s.threadState target).isSome) :
    (s.handoffTo target).Seated := by
  have still : (s.settle .blocked).Still := seated.settle nofun
  apply still.switchTo
  intro _ chosen
  cases chosen
  rw [settle_threadState]
  split
  · rw [isSome_map]
    exact there
  · exact there

theorem Listed.handoffTo (listed : s.Listed none) (target : Nat) : (s.handoffTo target).Listed none := by
  have stopped : (s.settle .blocked).Listed none := listed.settle nofun
  exact (stopped.weaken (some target)).switchTo

theorem Tidy.handoffTo (tidy : s.Tidy s.current)
    (direct : s.threadState target = some .blocked ∨ s.current = some target) :
    (s.handoffTo target).Tidy (s.handoffTo target).current := by
  have stopped := tidy.settle .blocked
  rw [Scheduler.handoffTo, stopCurrent_eq_settle]
  apply Tidy.switchTo
  refine ⟨stopped.once,stopped.live,?_⟩
  intro _ mem chosen
  cases chosen
  rcases direct with blocked | current
  · rw [settle_ready] at mem
    exact tidy.absent (.inl blocked) mem
  · exact stopped.apart target mem current

theorem Seated.popReady (seated : s.Seated) : s.popReady.2.Seated :=
  seated.revise s.popReady_current fun slot => .inl (s.popReady_threadState slot)

theorem keeps_run (idle : s.current = none) : Keeps s s.run := by
  rcases s.run_eq with ⟨nothing,same⟩ | ⟨_,chosen,same⟩
  · rw [same]
    refine ⟨Seated.popReady,fun listed => ?_,fun _ tidy => ?_⟩
    · have popped := listed.popReady
      rwa [nothing] at popped
    · rw [popReady_current]
      exact tidy.popReady.2.1
  rw [same]
  refine ⟨fun seated => (seated.still idle).popReady.switchTo fun _ next => ?_,fun listed => ?_,fun _ tidy => ?_⟩
  · exact popReady_there (chosen.trans next)
  · have popped := listed.popReady
    rw [chosen] at popped
    exact popped.switchTo
  · have popped := tidy.popReady.1
    rw [chosen] at popped
    exact popped.switchTo

section
variable (s : Scheduler C cfg)

theorem Keeps.refl : Keeps s s := ⟨id,id,fun _ => id⟩

theorem keeps_reap (slot : Nat) : Keeps s (s.reap slot).2 := by
  by_cases current : s.current = some slot
  · rw [Scheduler.reap, if_pos current]
    exact .refl s
  rcases s.reap_threadState slot with same | ⟨items,states⟩
  · rw [same]
    exact .refl s
  have stays (other : Nat) (mem : other ∈ (s.reap slot).2.ready.items) :
      other ∈ s.ready.items ∧ slot ≠ other := by
    rw [items, mem_filter] at mem
    exact ⟨mem.1,fun same => of_decide_eq_true mem.2 same.symm⟩
  refine ⟨fun seated => seated.revise (s.reap_current slot) fun other => ?_,fun listed => ?_,fun _ tidy => ?_⟩
  · rw [states]
    split
    · rename_i same
      exact .inr ⟨nofun,fun running => absurd (same ▸ running) current⟩
    · exact .inl rfl
  · refine listed.revise fun other ready => ?_
    rw [states] at ready
    split at ready
    · cases ready
    rename_i different
    rw [items, mem_filter]
    exact .inr ⟨ready,fun mem => ⟨mem,decide_eq_true fun same => different same.symm⟩⟩
  · rw [reap_current]
    refine tidy.revise (items ▸ filter_sublist) (fun other mem => ?_) fun other mem => ?_
    · rw [states, if_neg (stays other mem).2]
      exact .inl rfl
    · exact tidy.apart other (stays other mem).1

theorem keeps_unblock (slot : Nat) : Keeps s (s.unblock slot) := by
  rcases s.unblock_cases slot with same | ⟨blocked,current,items,states⟩
  · rw [same]
    exact .refl s
  have now (other : Nat) : (s.unblock slot).threadState other =
      if slot = other then some .ready else s.threadState other := by
    rw [states, threadState_setState]
    split
    · rename_i same
      rw [← same, blocked]
      rfl
    · rfl
  exact keeps_joined (.inl blocked) current items now

theorem keeps_addThread (cpu : Nat) (new : Thread C) (correlation : Nat) :
    Keeps s (s.addThread cpu new correlation).2 := by
  have current := (s.addThread_cases cpu new correlation).1
  rcases s.addThread_ring cpu new correlation with ⟨items,states⟩ | ⟨_,empty,items,states⟩
  · refine ⟨fun seated => seated.revise current fun other => .inl (states other),fun listed => ?_,fun _ tidy => ?_⟩
    · exact listed.revise fun other ready => .inr ⟨states other ▸ ready,fun mem => items ▸ mem⟩
    · rw [current]
      exact tidy.restate (congrArg Bounded.items items) fun other _ => .inl (states other)
  · exact keeps_joined (.inr empty) current items states

theorem keeps_terminate (slot : Nat) : Keeps s (s.terminate slot) := by
  have states (other : Nat) : (s.terminate slot).threadState other = s.threadState other ∨
      (s.terminate slot).threadState other = some .exited := by
    rw [Scheduler.terminate, threadState_setState]
    split
    · cases s.threadState other with
      | none => exact .inl rfl
      | some => exact .inr rfl
    · exact .inl rfl
  refine ⟨fun seated => seated.revise rfl fun other => ?_,fun listed => listed.revise fun other ready => ?_,
    fun _ tidy => tidy.restate rfl fun other _ => states other⟩
  · exact (states other).imp id fun ended => ⟨by rw [ended]; nofun,fun _ => ended⟩
  rcases states other with same | ended
  · exact .inr ⟨same ▸ ready,id⟩
  · rw [ended] at ready
    cases ready

theorem keeps_leave (stops : state ≠ .running ∧ state ≠ .ready) :
    Keeps s ((s.settle state).popReady.2.switchTo (s.settle state).popReady.1) where
  seated seated := (seated.settle stops.1).popReady.switchTo fun _ popped => popReady_there popped
  listed listed := (listed.settle stops.2).popReady.switchTo
  tidy _ tidy := (tidy.settle state).popReady.1.switchTo

theorem onTick_cases (clock : Clock) : clock.atLimit = true ∧ (s.onTick clock).1 = s.requeueCurrent.switchTo none ∨
      (s.onTick clock).1 = s ∨ s.popReady.1 = none ∧ (s.onTick clock).1 = s.popReady.2 ∨
      ∃ next, s.popReady.1 = some next ∧ (s.onTick clock).1 = s.popReady.2.requeueCurrent.switchTo (some next) := by
  unfold onTick
  split
  · rename_i limit
    exact .inl ⟨limit,rfl⟩
  split
  · exact .inr (.inl rfl)
  split
  · rename_i popped
    exact .inr (.inr (.inl ⟨by rw [popped],by rw [popped]⟩))
  · rename_i next _ popped
    exact .inr (.inr (.inr ⟨next,by rw [popped],by rw [popped]⟩))

end

theorem Seated.onTick (seated : s.Seated) (clock : Clock) : (s.onTick clock).1.Seated := by
  rcases s.onTick_cases clock with ⟨_,same⟩ | same | ⟨_,same⟩ | ⟨_,popped,same⟩
  · rw [same]
    exact seated.requeueCurrent.switchTo nofun
  · rw [same]
    exact seated
  · rw [same]
    exact seated.popReady
  rw [same]
  apply seated.popReady.requeueCurrent.switchTo
  intro _ chosen
  cases chosen
  have there := popReady_there popped
  rw [requeueCurrent_threadState, settle_threadState]
  split
  · rw [isSome_map]
    exact there
  · exact there

theorem popReady_room {next : Nat} (popped : s.popReady.1 = some next) :
    s.popReady.2.ready.items.length < cfg.maxThreads := by
  have same := (popReady_perm popped).length_eq
  have fewer : s.readyEntries.length ≤ s.ready.items.length := length_filter_le ..
  have fits := s.ready.fits
  rw [length_cons] at same
  omega

theorem Listed.onTick (listed : s.Listed none) (clock : Clock)
    (room : clock.atLimit = true → s.current.isSome → s.ready.items.length < cfg.maxThreads) :
    (s.onTick clock).1.Listed none := by
  have popped := listed.popReady
  rcases s.onTick_cases clock with ⟨limit,same⟩ | same | ⟨nothing,same⟩ | ⟨_,chosen,same⟩
  · rw [same]
    exact (listed.requeueCurrent (room limit)).switchTo
  · rw [same]
    exact listed
  · rw [nothing] at popped
    rw [same]
    exact popped
  · rw [chosen] at popped
    rw [same]
    exact (popped.requeueCurrent fun _ => popReady_room chosen).switchTo

theorem Tidy.requeueCurrent (seated : s.Seated) (tidy : s.Tidy s.current)
    (apart : ∀ slot ∈ s.ready.items, free ≠ some slot) (other : free.isSome → free ≠ s.current) :
    s.requeueCurrent.Tidy free := by
  rcases s.requeueCurrent_cases with ⟨_,same⟩ | ⟨cur,running,same⟩
  · rw [same]
    exact ⟨tidy.once,tidy.live,apart⟩
  have absent : cur ∉ s.ready.items := fun mem => tidy.apart cur mem running
  have settled := tidy.settle .ready
  have items := (s.settle .ready).enqueue_items cur
  rw [settle_ready] at items
  rw [same]
  rcases items with joined | ⟨_,unchanged⟩
  · rw [← s.settle_ready .ready] at joined
    apply settled.join joined
    · rw [settle_ready]
      exact absent
    · rw [enqueue_threadState, settle_threadState, if_pos running]
      rcases seated.occupied cur running with state | state <;> rw [state] <;> rfl
    · intro slot _
      rw [enqueue_threadState]
    · rw [settle_ready]
      exact apart
    intro chosen
    have := other (by rw [chosen]; rfl)
    rw [running] at this
    exact this chosen
  · have settled : (s.settle .ready).Tidy free := ⟨settled.once,settled.live,s.settle_ready .ready ▸ apart⟩
    exact settled.restate (by rw [unchanged, settle_ready]) fun _ _ => .inl (enqueue_threadState ..)

theorem Tidy.onTick (seated : s.Seated) (tidy : s.Tidy s.current) (clock : Clock) :
    (s.onTick clock).1.Tidy (s.onTick clock).1.current := by
  obtain ⟨apart,free,other⟩ := tidy.popReady
  rcases s.onTick_cases clock with ⟨_,same⟩ | same | ⟨_,same⟩ | ⟨_,chosen,same⟩
  · rw [same]
    apply Tidy.switchTo
    exact tidy.requeueCurrent seated nofun nofun
  · rw [same]
    exact tidy
  · rw [same, popReady_current]
    exact free
  rw [chosen] at apart other
  rw [same]
  rw [← s.popReady_current] at free
  apply Tidy.switchTo
  apply free.requeueCurrent seated.popReady apart.apart
  rw [popReady_current]
  exact other

end Scheduler

namespace ClockedScheduler

/-- The action puts an entry into the ring that it has not made room for. A tick
    that preempts takes an entry out first. -/
def enqueues (d : ClockedScheduler C cfg) : SchedAction C → Bool
  | .addThread .. => d.sched.threads.free?.isSome ∧ d.sched.nextThreadId / 2 ^ ThreadId.cpuShift = 0
  | .unblock slot => d.sched.threadState slot = some .blocked
  | .unblockThread slot id =>
    id ≠ .unassigned ∧ d.sched.threadId slot = some id ∧ d.sched.threadState slot = some .blocked
  | .onTick => d.clock.atLimit ∧ d.sched.current.isSome
  | _ => false

/-- No entry is refused by a full ring. -/
def Roomy (d : ClockedScheduler C cfg) (a : SchedAction C) : Prop :=
  d.enqueues a = true → d.sched.ready.items.length < cfg.maxThreads

/-- A handoff goes to a blocked thread, or to the one that makes it. -/
def Direct (d : ClockedScheduler C cfg) : SchedAction C → Prop
  | .handoffTo target => d.sched.threadState target = some .blocked ∨ d.sched.current = some target
  | _ => True

instance (d : ClockedScheduler C cfg) : (a : SchedAction C) → Decidable (d.Direct a)
  | .handoffTo _ => inferInstanceAs (Decidable (_ ∨ _))
  | .addThread .. | .dispatch | .blockCurrent | .unblock _ | .unblockThread .. | .onTick | .exitCurrent
  | .terminate _ | .reap _ => inferInstanceAs (Decidable True)

variable {d e : ClockedScheduler C cfg} {a : SchedAction C} {cpu quantum tickLimit : Nat}
  {history : List (SchedAction C)}

theorem step_keeps (step : d.Step a e) :
    (d.sched.Seated → e.sched.Seated) ∧ (d.Roomy a → d.sched.Listed none → e.sched.Listed none) ∧
      (d.Direct a → d.sched.Seated → d.sched.Tidy d.sched.current → e.sched.Tidy e.sched.current) := by
  have kept (keeps : d.sched.Keeps e.sched) : (d.sched.Seated → e.sched.Seated) ∧
      (d.Roomy a → d.sched.Listed none → e.sched.Listed none) ∧
      (d.Direct a → d.sched.Seated → d.sched.Tidy d.sched.current → e.sched.Tidy e.sched.current) :=
    ⟨keeps.seated,fun _ => keeps.listed,fun _ => keeps.tidy⟩
  cases a with try cases step
  | addThread thread correlation => exact kept (d.sched.keeps_addThread d.cpu thread correlation)
  | dispatch =>
    obtain ⟨idle,done⟩ := ite_none_right_eq_some.mp step
    cases done
    exact kept (Scheduler.keeps_run idle)
  | blockCurrent | exitCurrent => exact kept (d.sched.keeps_leave (by decide))
  | handoffTo target =>
    obtain ⟨there,done⟩ := ite_none_right_eq_some.mp step
    cases done
    exact ⟨fun seated => seated.handoffTo (by simpa [Scheduler.threadState] using there),
      fun _ listed => listed.handoffTo target,fun direct _ tidy => tidy.handoffTo direct⟩
  | unblock slot => exact kept (d.sched.keeps_unblock slot)
  | unblockThread slot =>
    dsimp only [Scheduler.unblockThread] at kept ⊢
    split
    · rw [if_pos ‹_›] at kept
      exact kept (.refl _)
    · rw [if_neg ‹_›] at kept
      exact kept (d.sched.keeps_unblock slot)
  | onTick =>
    exact ⟨fun seated => seated.onTick d.clock,fun roomy listed => listed.onTick d.clock fun limit running =>
      roomy (decide_eq_true ⟨limit,running⟩),fun _ seated tidy => tidy.onTick seated d.clock⟩
  | terminate slot => exact kept (d.sched.keeps_terminate slot)
  | reap slot => exact kept (d.sched.keeps_reap slot)

theorem roomy_of_tidy (seated : d.sched.Seated) (tidy : d.sched.Tidy d.sched.current) (a : SchedAction C) :
    d.Roomy a := by
  intro enqueues
  have asleep {slot : Nat} (blocked : d.sched.threadState slot = some .blocked) :
      d.sched.ready.items.length < cfg.maxThreads :=
    tidy.room (Scheduler.lt_of_threadState blocked) (tidy.absent (.inl blocked))
  cases a with
  | addThread thread =>
    obtain ⟨free,_⟩ := of_decide_eq_true enqueues
    obtain ⟨slot,found⟩ := Option.isSome_iff_exists.mp free
    obtain ⟨inside,empty⟩ := free?_eq_some found
    exact tidy.room inside (tidy.absent (.inr (by simp [Scheduler.threadState, Scheduler.thread, empty])))
  | unblock => exact asleep (of_decide_eq_true enqueues)
  | unblockThread => exact asleep (of_decide_eq_true enqueues).2.2
  | onTick =>
    obtain ⟨slot,current⟩ := Option.isSome_iff_exists.mp (of_decide_eq_true enqueues).2
    have inside : slot < cfg.maxThreads := by
      rcases seated.occupied slot current with state | state <;> exact Scheduler.lt_of_threadState state
    exact tidy.room inside fun mem => tidy.apart slot mem current
  | _ => cases enqueues

theorem seated_new (cpu quantum tickLimit : Nat) : (new cpu quantum tickLimit : ClockedScheduler C cfg).sched.Seated := by
  constructor
  · intro _ runs
    simp [new, Scheduler.new, Scheduler.threadState, Scheduler.thread] at runs
  · simp [new, Scheduler.new]

theorem listed_new (cpu quantum tickLimit : Nat) :
    (new cpu quantum tickLimit : ClockedScheduler C cfg).sched.Listed none := by
  intro _ ready
  simp [new, Scheduler.new, Scheduler.threadState, Scheduler.thread] at ready

theorem tidy_new (cpu quantum tickLimit : Nat) :
    (new cpu quantum tickLimit : ClockedScheduler C cfg).sched.Tidy none :=
  ⟨nodup_nil,nofun,nofun⟩

open Transition

theorem seated_run (run : Run Step (new cpu quantum tickLimit) history d) : d.sched.Seated := by
  refine run.invariant (fun d : ClockedScheduler C cfg => d.sched.Seated) ?_ (seated_new cpu quantum tickLimit)
  intro _ _ _ seated step
  exact (step_keeps step).1 seated

theorem listed_run (run : Disciplined (fun _ => Roomy) Step (new cpu quantum tickLimit) history d) :
    d.sched.Listed none := by
  refine run.invariant (fun _ d => d.sched.Listed none) ?_ (listed_new cpu quantum tickLimit)
  intro _ _ _ _ listed roomy step
  exact (step_keeps step).2.1 roomy listed

theorem tidy_run (run : Disciplined (fun _ => Direct) Step (new cpu quantum tickLimit) history d) :
    d.sched.Seated ∧ d.sched.Listed none ∧ d.sched.Tidy d.sched.current := by
  refine run.invariant (fun _ d => d.sched.Seated ∧ d.sched.Listed none ∧ d.sched.Tidy d.sched.current) ?_
    ⟨seated_new cpu quantum tickLimit,listed_new cpu quantum tickLimit,tidy_new cpu quantum tickLimit⟩
  intro _ _ a _ ⟨seated,listed,tidy⟩ direct step
  obtain ⟨sits,lists,tidies⟩ := step_keeps step
  exact ⟨sits seated,lists (roomy_of_tidy seated tidy a) listed,tidies direct seated tidy⟩

/-- In every run only the recorded current thread runs and only ready threads are
    taken from the ring. While no entry is refused every ready thread has one. If
    no handoff goes to a queued thread, every ready thread has exactly one entry,
    the other entries are those of ended threads, no entry is ever refused and no
    wakeup is dropped. -/
theorem ready_ring_is_coherent {cpu quantum tickLimit : Nat} {history : List (SchedAction C)}
    {d : ClockedScheduler C cfg} (run : Run Step (new cpu quantum tickLimit) history d) :
    (∀ slot, d.sched.threadState slot = some .running → d.sched.current = some slot) ∧
    (∀ slot, d.sched.popReady.1 = some slot → d.sched.threadState slot = some .ready) ∧
    (Disciplined (fun _ => Roomy) Step (new cpu quantum tickLimit) history d →
      ∀ slot, d.sched.threadState slot = some .ready → slot ∈ d.sched.ready.items) ∧
    (Disciplined (fun _ => Direct) Step (new cpu quantum tickLimit) history d → d.sched.ready.items.Nodup ∧
      (∀ slot, d.sched.threadState slot = some .ready → slot ∈ d.sched.ready.items) ∧ (∀ slot ∈ d.sched.ready.items,
        d.sched.threadState slot = some .ready ∨ d.sched.threadState slot = some .exited) ∧ (∀ a, d.Roomy a) ∧
      ∀ slot, d.sched.threadState slot = some .blocked → (d.sched.unblock slot).threadState slot = some .ready) := by
  refine ⟨(seated_run run).running,fun slot => Scheduler.popReady_ready,?_,?_⟩
  · intro roomy slot ready
    exact (listed_run roomy slot ready).resolve_right nofun
  intro direct
  obtain ⟨seated,listed,tidy⟩ := tidy_run direct
  refine ⟨tidy.once,fun slot ready => (listed slot ready).resolve_right nofun,tidy.live,
    roomy_of_tidy seated tidy,?_⟩
  intro slot blocked
  have awake := Scheduler.unblock_awake (tidy.room (Scheduler.lt_of_threadState blocked) (tidy.absent (.inl blocked))) slot
  rcases d.sched.unblock_cases slot with same | ⟨_,_,_,states⟩
  · rw [same] at awake
    exact absurd blocked awake
  · rw [states, Scheduler.threadState_setState, if_pos rfl, blocked]
    rfl

def plainThread : Thread Unit := ⟨.unassigned, (), .ready, 16, 0, none⟩

def turns : List (SchedAction Unit) :=
  [.addThread plainThread 0, .addThread plainThread 0, .dispatch, .blockCurrent, .handoffTo 0, .unblock 1, .onTick]

theorem turns_keep_the_ring_coherent :
    ∃ d : ClockedScheduler Unit .default, Run Step (new 0 1 0) turns d ∧ d.sched.ready.items = [0] ∧
      (∀ slot, d.sched.threadState slot = some .running → d.sched.current = some slot) ∧
      (∀ slot, d.sched.threadState slot = some .ready → slot ∈ d.sched.ready.items) := by
  obtain ⟨d,direct,waiting⟩ : ∃ d : ClockedScheduler Unit .default, Disciplined (fun _ => Direct) Step (new 0 1 0) turns d ∧
      d.sched.ready.items = [0] := Disciplined.reaches (by decide +kernel)
  have run : Run Step (new 0 1 0) turns d := direct.mono fun _ _ _ _ => trivial
  obtain ⟨solo,_,_,tidy⟩ := ready_ring_is_coherent run
  exact ⟨d,run,waiting,solo,(tidy direct).2.1⟩

/-- Two threads hand the processor to each other while the other is queued, each
    waking the one that handed over. -/
def pingPong (rounds : Nat) : List (SchedAction Unit) :=
  [.addThread plainThread 0, .addThread plainThread 0, .dispatch] ++
    (List.range rounds).flatMap fun i => [.handoffTo ((i + 1) % 2), .unblock (i % 2)]

/-- The ring holds one slot several times and the slot of a running thread, and it
    is full: a blocked thread's wakeup is dropped. -/
theorem ping_pong_fills_the_ring :
    ∃ d : ClockedScheduler Unit .default, Run Step (new 0 1 0) (pingPong 15 ++ [.handoffTo 0]) d ∧
      d.sched.threadState 0 = some .running ∧ 0 ∈ d.sched.ready.items ∧ ¬ d.sched.ready.items.Nodup ∧
      d.sched.threadState 1 = some .blocked ∧ (d.sched.unblock 1).threadState 1 = some .blocked :=
  Disciplined.reaches (by decide +kernel)

end ClockedScheduler
end Tessera
