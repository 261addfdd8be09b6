import Tessera.Exec.Thread
import Tessera.Object
import Tessera.Lib.Bounded
import Tessera.Lib.Slots

/-!
One processor's scheduler: a table of threads, a ring of ready slots and the
slot that runs. The ring is the list it holds, oldest first. A switch changes
which thread is current; what that thread then does is its saved context. The
quantum, the tick count and the counters are not part of the model.
-/
namespace Tessera
open List Option ThreadId

structure Scheduler (C : Type) (cfg : Config) where
  threads : Slots (Thread C) cfg.maxThreads
  ready : Bounded Nat cfg.maxThreads
  current : Option Nat
  nextThreadId : Nat

namespace Scheduler
variable {C : Type} {cfg : Config}

section
variable (s : Scheduler C cfg) (slot : Nat)

def new : Scheduler C cfg := ⟨.empty, .empty, none, 1⟩

def thread : Option (Thread C) := s.threads.cell slot

def threadState : Option ThreadState := (s.thread slot).map (·.state)

def threadId : Option ThreadId := (s.thread slot).map (·.id)

def threadPriority : Option Nat := (s.thread slot).map (·.priority)

def threadCorrelation : Option Nat := (s.thread slot).map (·.correlation)

def currentId : Option ThreadId := s.current.bind s.threadId

def indexOf (id : ThreadId) : Option Nat :=
  if id = .unassigned then none else s.threads.index? (·.id = id)

def alter (s : Scheduler C cfg) (slot : Nat) (f : Thread C → Thread C) : Scheduler C cfg :=
  { s with threads := s.threads.alter slot f }

def setState (state : ThreadState) : Scheduler C cfg :=
  s.alter slot fun t => { t with state }

def setContext (context : C) : Scheduler C cfg :=
  s.alter slot fun t => { t with context }

def setThreadPriority (slot priority : Nat) : Scheduler C cfg :=
  s.alter slot fun t => { t with priority }

def setThreadCorrelation (slot correlation : Nat) : Scheduler C cfg :=
  s.alter slot fun t => { t with correlation }

def setBlockedDeadline (deadline : Option Nat) : Scheduler C cfg :=
  s.alter slot fun t => { t with blockedDeadline := deadline }

def mintThreadId (cpu : Nat) : Except KError ThreadId × Scheduler C cfg :=
  if s.nextThreadId / 2 ^ cpuShift ≠ 0 then (.error .limitExceeded, s)
  else (.ok (.mint cpu s.nextThreadId), { s with nextThreadId := s.nextThreadId + 1 })

def addThread (cpu : Nat) (thread : Thread C) (correlation : Nat) : Except KError Nat × Scheduler C cfg :=
  match s.threads.free? with
  | none => (.error .outOfMemory, s)
  | some slot =>
    match s.mintThreadId cpu with
    | (.error e, s) => (.error e, s)
    | (.ok id, s) =>
      match s.ready.push slot with
      | none => (.error .outOfMemory, s)
      | some ready =>
        (.ok slot, { s with ready, threads := s.threads.put slot { thread with id, state := .ready, correlation } })

/-- The walk over the ring: an entry whose thread is no longer ready is dropped,
    and the first of the highest priority is remembered by its position among
    the entries kept. -/
def scanReady (s : Scheduler C cfg) : List Nat → List Nat → Option (Nat × Nat) → List Nat × Option (Nat × Nat)
  | [], kept, best => (kept, best)
  | slot :: rest, kept, best =>
    if s.threadState slot ≠ some .ready then s.scanReady rest kept best
    else if best.all (·.2 < (s.threadPriority slot).getD 0) then
      s.scanReady rest (kept ++ [slot]) (some (kept.length, (s.threadPriority slot).getD 0))
    else s.scanReady rest (kept ++ [slot]) best

theorem threadId_lt {s : Scheduler C cfg} {i : Nat} (held : s.threadId i = some tid) : i < cfg.maxThreads := by
  obtain ⟨_,found,_⟩ := map_eq_some_iff.mp held
  exact Slots.lt_of_cell found

end

theorem scanReady_length (s : Scheduler C cfg) (entries kept : List Nat) (best : Option (Nat × Nat)) :
    (s.scanReady entries kept best).1.length ≤ kept.length + entries.length := by
  induction entries generalizing kept best with
  | nil => simp [scanReady]
  | cons slot rest ih =>
    rw [scanReady]
    split
    · have := ih kept best
      simp only [length_cons]
      omega
    split
    · have := ih (kept ++ [slot]) (some (kept.length, (s.threadPriority slot).getD 0))
      simp only [length_append, length_cons, length_nil] at this ⊢
      omega
    have := ih (kept ++ [slot]) best
    simp only [length_append, length_cons, length_nil] at this ⊢
    omega

def setReady (s : Scheduler C cfg) (items : List Nat) (fits : items.length ≤ cfg.maxThreads) : Scheduler C cfg :=
  { s with ready := ⟨items, fits⟩ }

theorem scanReady_fits (s : Scheduler C cfg) : (s.scanReady s.ready.items [] none).1.length ≤ cfg.maxThreads :=
  (s.scanReady_length s.ready.items [] none).trans (by simpa using s.ready.fits)

section
variable (s : Scheduler C cfg)

def popReady : Option Nat × Scheduler C cfg :=
  match (s.scanReady s.ready.items [] none).2 with
  | none => (none, s.setReady (s.scanReady s.ready.items [] none).1 s.scanReady_fits)
  | some (place, _) =>
    ((s.scanReady s.ready.items [] none).1[place]?,
      s.setReady ((s.scanReady s.ready.items [] none).1.eraseIdx place)
        ((length_eraseIdx_le ..).trans s.scanReady_fits))

def switchTo : Option Nat → Scheduler C cfg
  | none => { s with current := none }
  | some slot => { s.setState slot .running with current := some slot }

def run : Scheduler C cfg :=
  match s.popReady with
  | (none, s) => s
  | (some first, s) => s.switchTo (some first)

def stopCurrent : Scheduler C cfg :=
  match s.current with
  | none => s
  | some slot => s.setState slot .blocked

def blockCurrent : Scheduler C cfg :=
  s.stopCurrent.popReady.2.switchTo s.stopCurrent.popReady.1

def handoffTo (target : Nat) : Scheduler C cfg :=
  s.stopCurrent.switchTo (some target)

/-- A thread the ring has no room for is left blocked. -/
def unblock (slot : Nat) : Scheduler C cfg :=
  if s.threadState slot = some .blocked then
    match s.ready.push slot with
    | none => s
    | some ready => { s.setState slot .ready with ready }
  else s

def unblockThread (slot : Nat) (id : ThreadId) : Scheduler C cfg :=
  if id = .unassigned ∨ s.threadId slot ≠ some id then s else s.unblock slot

end

section
variable (s : Scheduler C cfg)

theorem thread_alter (slot other : Nat) (f : Thread C → Thread C) :
    (s.alter slot f).thread other = if slot = other then (s.thread other).map f else s.thread other :=
  Slots.cell_alter _ _ _ _

theorem scanReady_ready (entries kept : List Nat) (best : Option (Nat × Nat))
    (all : ∀ slot ∈ kept, s.threadState slot = some .ready) :
    ∀ slot ∈ (s.scanReady entries kept best).1, s.threadState slot = some .ready := by
  induction entries generalizing kept best with
  | nil => simpa [scanReady] using all
  | cons first rest ih =>
    rw [scanReady]
    split
    · exact ih kept best all
    rename_i ready
    have more : ∀ slot ∈ kept ++ [first], s.threadState slot = some .ready := by
      intro slot mem
      rcases mem_append.mp mem with old | new
      · exact all slot old
      · rw [mem_singleton.mp new]
        simpa using ready
    split
    · exact ih _ _ more
    · exact ih _ _ more

theorem popReady_thread (slot : Nat) : s.popReady.2.thread slot = s.thread slot := by
  unfold popReady
  split <;> rfl

theorem popReady_nextThreadId : s.popReady.2.nextThreadId = s.nextThreadId := by
  unfold popReady
  split <;> rfl

end

theorem popReady_ready {s : Scheduler C cfg} {slot : Nat} (popped : s.popReady.1 = some slot) :
    s.threadState slot = some .ready := by
  unfold popReady at popped
  split at popped
  · cases popped
  · apply s.scanReady_ready s.ready.items [] none (by simp)
    exact mem_of_getElem? popped

section
variable (s : Scheduler C cfg)

theorem stopCurrent_thread (slot : Nat) : s.stopCurrent.thread slot =
      if s.current = some slot then (s.thread slot).map ({ · with state := .blocked }) else s.thread slot := by
  unfold stopCurrent
  split
  · rename_i idle
    simp [idle]
  rename_i running
  simp only [running, some.injEq]
  exact s.thread_alter _ slot _

theorem stopCurrent_nextThreadId : s.stopCurrent.nextThreadId = s.nextThreadId := by
  unfold stopCurrent
  split <;> rfl

theorem setContext_context (slot other : Nat) (context : C) :
    ((s.setContext slot context).thread other).map (·.context) =
      if slot = other then (s.thread other).map fun _ => context else (s.thread other).map (·.context) := by
  rw [setContext, thread_alter]
  split
  · rw [Option.map_map]
    rfl
  · rfl

section
variable (next : Option Nat)

theorem switchTo_thread (slot : Nat) : (s.switchTo next).thread slot =
      if next = some slot then (s.thread slot).map ({ · with state := .running }) else s.thread slot := by
  cases next with
  | none => rfl
  | some target =>
    simp only [some.injEq]
    exact s.thread_alter target slot _

theorem switchTo_current : (s.switchTo next).current = next := by
  cases next <;> rfl

theorem switchTo_nextThreadId : (s.switchTo next).nextThreadId = s.nextThreadId := by
  cases next <;> rfl

theorem switchTo_context (slot : Nat) :
    ((s.switchTo next).thread slot).map (·.context) = (s.thread slot).map (·.context) := by
  rw [switchTo_thread]
  split
  · rw [Option.map_map]
    rfl
  · rfl

end

theorem stopCurrent_context (slot : Nat) :
    (s.stopCurrent.thread slot).map (·.context) = (s.thread slot).map (·.context) := by
  rw [stopCurrent_thread]
  split
  · rw [Option.map_map]
    rfl
  · rfl

theorem blockCurrent_context (slot : Nat) :
    (s.blockCurrent.thread slot).map (·.context) = (s.thread slot).map (·.context) := by
  rw [blockCurrent, switchTo_context, popReady_thread, stopCurrent_context]

theorem handoffTo_context (target slot : Nat) :
    ((s.handoffTo target).thread slot).map (·.context) = (s.thread slot).map (·.context) := by
  rw [handoffTo, switchTo_context, stopCurrent_context]

theorem run_context (slot : Nat) : (s.run.thread slot).map (·.context) = (s.thread slot).map (·.context) := by
  unfold run
  split
  · rename_i popped
    rw [← s.popReady_thread, popped]
  · rename_i popped
    rw [switchTo_context, ← s.popReady_thread, popped]

theorem unblock_ready_length (slot : Nat) : (s.unblock slot).ready.items.length ≤ s.ready.items.length + 1 := by
  unfold unblock
  split
  · split
    · omega
    · rename_i pushed
      simp [(Bounded.push_eq_some.mp pushed).2]
  · omega

end

theorem unblock_awake {s : Scheduler C cfg} (room : s.ready.items.length < cfg.maxThreads) (slot : Nat) :
    (s.unblock slot).threadState slot ≠ some .blocked := by
  unfold unblock
  split
  · split
    · rename_i full
      have := Bounded.push_eq_none.mp full
      omega
    intro blocked
    change ((s.setState slot .ready).thread slot).map (·.state) = some .blocked at blocked
    rw [setState, thread_alter, if_pos rfl, Option.map_map] at blocked
    obtain ⟨_,_,same⟩ := map_eq_some_iff.mp blocked
    cases same
  · rename_i awake
    exact awake

theorem run_thread {s : Scheduler C cfg} (idle : s.current = none) :
    (∀ slot, s.run.current = some slot → s.threadState slot = some .ready) ∧ s.run.nextThreadId = s.nextThreadId ∧
    ∀ slot, s.run.thread slot = (s.thread slot).map fun t =>
      { t with state := if s.run.current = some slot then .running else t.state } := by
  unfold run
  split
  · rename_i rest popped
    have same : rest = s.popReady.2 := by rw [popped]
    have unmoved : rest.current = none := by
      rw [same, popReady]
      split <;> exact idle
    refine ⟨by simp [unmoved],same ▸ s.popReady_nextThreadId,?_⟩
    intro slot
    rw [same, s.popReady_thread, ← same, unmoved]
    simp
  · rename_i first rest popped
    have same : rest = s.popReady.2 := by rw [popped]
    refine ⟨?_,by rw [switchTo_nextThreadId, same, s.popReady_nextThreadId],?_⟩
    · intro slot running
      rw [switchTo_current] at running
      exact popReady_ready (by rw [popped, running])
    intro slot
    rw [switchTo_thread, switchTo_current, same, s.popReady_thread]
    cases s.thread slot with
    | none => simp
    | some => by_cases chosen : some first = some slot <;> simp [chosen]

theorem addThread_cases (s : Scheduler C cfg) (cpu : Nat) (new : Thread C) (correlation : Nat) :
    (s.addThread cpu new correlation).2.current = s.current ∧
    ((s.nextThreadId ≤ (s.addThread cpu new correlation).2.nextThreadId ∧
        (s.addThread cpu new correlation).2.ready = s.ready ∧ ∀ slot, (s.addThread cpu new correlation).2.thread slot = s.thread slot) ∨
      ∃ slot, s.thread slot = none ∧ s.nextThreadId < 2 ^ cpuShift ∧
        (s.addThread cpu new correlation).2.nextThreadId = s.nextThreadId + 1 ∧
        (s.addThread cpu new correlation).2.ready.items = s.ready.items ++ [slot] ∧
        ∀ other, (s.addThread cpu new correlation).2.thread other =
          if slot = other then some { new with id := .mint cpu s.nextThreadId, state := .ready, correlation }
          else s.thread other) := by
  unfold addThread
  split
  · exact ⟨rfl,.inl ⟨le_rfl,rfl,fun _ => rfl⟩⟩
  rename_i slot free
  obtain ⟨inside,empty⟩ := Slots.free?_eq_some free
  unfold mintThreadId
  by_cases full : s.nextThreadId / 2 ^ cpuShift ≠ 0
  · rw [if_pos full]
    exact ⟨rfl,.inl ⟨le_rfl,rfl,fun _ => rfl⟩⟩
  rw [if_neg full]
  have fits : s.nextThreadId < 2 ^ cpuShift :=
    (Nat.div_eq_zero_iff_lt (Nat.two_pow_pos _)).mp (not_not.mp full)
  dsimp only
  cases pushed : s.ready.push slot with
  | none => exact ⟨rfl,.inl ⟨Nat.le_succ _,rfl,fun _ => rfl⟩⟩
  | some =>
    refine ⟨rfl,.inr ⟨slot,empty,fits,rfl,(Bounded.push_eq_some.mp pushed).2,?_⟩⟩
    simp [thread, Slots.put, Slots.cell_assign, inside]

end Scheduler
end Tessera
