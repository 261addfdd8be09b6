import Tessera.Ipc.Channel
import Tessera.Memory.MemoryTable
import Tessera.Memory.Pmem
import Tessera.Pager.SelfPaging

/-!
The calls by which the kernel makes a thread wait for the service of a paged
object: page-ins, write-backs of a throttled writer, and write-backs of a reclaim
that found no clean page. The guard is asked before the first two and knows a
requester by its process and a pager by the object named at creation; the third
goes out without it. Whether a service's space takes the write-back window and
whether a channel takes a request are arguments.
-/
namespace Tessera
open Option Transition

inductive CallKind where
  | pageIn | drain | reclaim
  deriving DecidableEq

structure ServiceCall where
  thread : ThreadId
  process : ObjectId
  server : Option ObjectId
  object : ObjectId
  offset : Nat
  kind : CallKind
  deriving DecidableEq

structure PageInFlight where
  faulter : ThreadId
  object : ObjectId
  offset : Nat
  deriving DecidableEq

inductive ServiceOutcome where
  | parked | cycle | refused | settled
  deriving DecidableEq

structure PagingWorld (M : Type) (cfg : Config) (σ : Type) where
  memory : MemoryTable cfg
  channels : ChannelTable M cfg
  graph : SelfPagingGraph cfg
  pageIns : Slots PageInFlight cfg.maxPagers
  calls : List ServiceCall
  alloc : σ

inductive PagingAction where
  | channelCreate
  | memoryCreatePaged (owner : ObjectId) (pages : Nat) (pager : ObjectId) (installs : Bool)
  | pageIn (thread : ThreadId) (process object : ObjectId) (offset : Nat) (accepted : Bool)
  | markDirty (object : ObjectId) (offset : Nat)
  | drainOneDirtyPage (thread : ThreadId) (process object : ObjectId) (windowOpens accepted : Bool)
  | pageSupply (thread : ThreadId) (process object : ObjectId) (page : Nat) (frame : PhysFrame)
      (atCeiling windowOpens accepted : Bool)
  | reclaimForPressure (passes : Nat)
  | expireStalledPageIns
  | finish (thread : ThreadId) (persisted : Bool)

namespace PagingWorld
variable {M : Type} {cfg : Config} {σ : Type} [FrameSource σ]

section
variable (w : PagingWorld M cfg σ) (thread : ThreadId)

def initial (alloc : σ) : PagingWorld M cfg σ := ⟨.new, .new, .new, .empty, [], alloc⟩

def memoryDestroy (object : ObjectId) : PagingWorld M cfg σ :=
  match w.memory.destroy object w.alloc with
  | (_, memory, alloc) => { w with memory, alloc, graph := (w.graph.unbind object.raw).2 }

def memoryCreatePaged (owner : ObjectId) (pages : Nat) (pager : ObjectId) (installs : Bool) : PagingWorld M cfg σ :=
  match w.memory.createPaged owner pages pager with
  | (.error _, memory) => { w with memory }
  | (.ok object, memory) =>
    match w.graph.bind object.raw pager.raw with
    | (.error _, graph) => { w with memory, graph }.memoryDestroy object
    | (.ok (), graph) =>
      if installs then { w with memory, graph } else { w with memory, graph }.memoryDestroy object

def callService (call : ServiceCall) (accepted : Bool) : Option (PagingWorld M cfg σ) :=
  match w.pageIns.free? with
  | none => none
  | some slot =>
    if accepted then
      some { w with
        pageIns := w.pageIns.put slot ⟨call.thread, call.object, call.offset⟩
        calls := w.calls ++ [call] }
    else none

def pagingComplete (requester : ObjectId) : PagingWorld M cfg σ :=
  { w with graph := w.graph.complete requester.raw }

def pageIn (w : PagingWorld M cfg σ) (thread : ThreadId) (process object : ObjectId) (offset : Nat)
    (accepted : Bool) : ServiceOutcome × PagingWorld M cfg σ :=
  if w.memory.isFaulted object then (.refused, w)
  else
    match w.memory.pagerOf object with
    | none => (.refused, w)
    | some pager =>
      match w.graph.requestPageIn process.raw object.raw with
      | (.cycle, graph) => (.cycle, { w with graph })
      | (.served, graph) =>
        match w.channels.endpointOfObject pager with
        | none => (.refused, { w with graph }.pagingComplete process)
        | some _ =>
          match { w with graph }.callService
              ⟨thread, process, w.memory.servedBy object, object, offset, .pageIn⟩ accepted with
          | none => (.refused, { w with graph }.pagingComplete process)
          | some w => (.parked, w)

def writeBack (process object : ObjectId) (offset : Nat)
    (kind : CallKind) (windowOpens accepted : Bool) : ServiceOutcome × PagingWorld M cfg σ :=
  if !w.memory.isDirty object offset then (.settled, w)
  else
    match (w.memory.pagerOf object).bind w.channels.endpointOfObject, w.memory.servedBy object,
        w.memory.frameAt object (offset / frameSize) with
    | some _, some server, some _ =>
      if windowOpens then
        match { w with memory := w.memory.beginWriteBack object offset }.callService
            ⟨thread, process, some server, object, offset, kind⟩ accepted with
        | some w => (.parked, w)
        | none => (.refused, { w with
            memory := ((w.memory.beginWriteBack object offset).endWriteBack object offset).2 })
      else (.refused, w)
    | _, _, _ => (.refused, w)

def drainOneDirtyPage (process object : ObjectId)
    (windowOpens accepted : Bool) : ServiceOutcome × PagingWorld M cfg σ :=
  match w.graph.requestPageIn process.raw object.raw with
  | (.cycle, graph) => (.cycle, { w with graph })
  | (.served, graph) =>
    match (w.memory.dirtyOffsets object).head? with
    | none => (.refused, { w with graph }.pagingComplete process)
    | some offset =>
      match { w with graph }.writeBack thread process object offset .drain windowOpens accepted with
      | (.parked, w) => (.parked, w)
      | (outcome, w) => (outcome, w.pagingComplete process)

def evictPage (object : ObjectId) (offset : Nat) : Bool × PagingWorld M cfg σ :=
  match w.memory.evict object offset with
  | (none, memory) => (false, { w with memory })
  | (some frame, memory) => (true, { w with memory, alloc := FrameSource.freeFrame w.alloc frame })

def settle : Bool × PagingWorld M cfg σ → ServiceOutcome × PagingWorld M cfg σ
  | (true, w) => (.settled, w)
  | (false, w) => (.refused, w)

/-- A clean page goes at once; where all are dirty one is written back first. -/
def reclaimOnePage (process : ObjectId) (windowOpens accepted : Bool) : ServiceOutcome × PagingWorld M cfg σ :=
  match w.memory.anyEvictable with
  | some (object, offset) => settle (w.evictPage object offset)
  | none =>
    match w.memory.anyDirty with
    | none => (.refused, w)
    | some (object, offset) =>
      match w.writeBack thread process object offset .reclaim windowOpens accepted with
      | (.settled, w) => settle (w.evictPage object offset)
      | other => other

def supplyPage (object : ObjectId) (page : Nat) (frame : PhysFrame) : ServiceOutcome × PagingWorld M cfg σ :=
  match w.memory.supply object page frame with
  | (.error _, memory) => (.refused, { w with memory })
  | (.ok (), memory) => (.settled, { w with memory })

/-- A supply that meets the cache's ceiling makes room first. One whose reclaim had
    to wait goes on, when that wait is over, as a supply that has room. -/
def pageSupply (process object : ObjectId) (page : Nat)
    (frame : PhysFrame) (atCeiling windowOpens accepted : Bool) : ServiceOutcome × PagingWorld M cfg σ :=
  if atCeiling then
    match w.reclaimOnePage thread process windowOpens accepted with
    | (.settled, w) => w.supplyPage object page frame
    | other => other
  else w.supplyPage object page frame

def reclaimForPressure (w : PagingWorld M cfg σ) : Nat → PagingWorld M cfg σ
  | 0 => w
  | passes + 1 =>
    match w.memory.anyEvictable with
    | none => w
    | some (object, offset) =>
      match w.evictPage object offset with
      | (false, w) => w
      | (true, w) => w.reclaimForPressure passes

/-- Fails every page-in that is out. The threads are told when they next run. -/
def expireStalledPageIns : PagingWorld M cfg σ :=
  { w with
    memory := w.pageIns.live.foldl (fun memory flight => memory.setFaulted flight.object) w.memory
    pageIns := .empty }

/-- The end of a write-back: clean only if it was persisted and nothing was stored meanwhile. -/
def writtenBack (object : ObjectId) (offset : Nat) (persisted : Bool) : Bool × PagingWorld M cfg σ :=
  match w.memory.endWriteBack object offset with
  | (rewritten, memory) =>
    if persisted && !rewritten then (true, { w with memory := memory.markClean object offset })
    else (false, { w with memory })

def finish (call : ServiceCall) (persisted : Bool) : PagingWorld M cfg σ :=
  let w := { w with
    pageIns := w.pageIns.discard (·.faulter = call.thread)
    calls := w.calls.filter (·.thread ≠ call.thread) }
  match call.kind with
  | .pageIn => w.pagingComplete call.process
  | .drain => (w.writtenBack call.object call.offset persisted).2.pagingComplete call.process
  | .reclaim =>
    match w.writtenBack call.object call.offset persisted with
    | (true, w) => (w.evictPage call.object call.offset).2
    | (false, w) => w

def runs : Bool := !w.calls.any (·.thread = thread)

def perform : PagingAction → Option (PagingWorld M cfg σ)
  | .channelCreate => some { w with channels := w.channels.createWithObjects.2 }
  | .memoryCreatePaged owner pages pager installs => some (w.memoryCreatePaged owner pages pager installs)
  | .pageIn thread process object offset accepted =>
    if w.runs thread then some (w.pageIn thread process object offset accepted).2 else none
  | .markDirty object offset => some { w with memory := (w.memory.markDirty object offset).2 }
  | .drainOneDirtyPage thread process object windowOpens accepted =>
    if w.runs thread then some (w.drainOneDirtyPage thread process object windowOpens accepted).2 else none
  | .pageSupply thread process object page frame atCeiling windowOpens accepted =>
    if w.runs thread then
      some (w.pageSupply thread process object page frame atCeiling windowOpens accepted).2
    else none
  | .reclaimForPressure passes => some (w.reclaimForPressure passes)
  | .expireStalledPageIns => some w.expireStalledPageIns
  | .finish thread persisted => (w.calls.find? (·.thread = thread)).map (w.finish · persisted)

def Step (a : PagingAction) (v : PagingWorld M cfg σ) : Prop := w.perform a = some v

def Waits (p q : ObjectId) : Prop := ∃ c ∈ w.calls, c.process = p ∧ c.server = some q

instance (w : PagingWorld M cfg σ) (p q : ObjectId) : Decidable (w.Waits p q) :=
  inferInstanceAs (Decidable (∃ c ∈ w.calls, c.process = p ∧ c.server = some q))

def Joins (w v : PagingWorld M cfg σ) (process : ObjectId) (server : ObjectId → Prop) : Prop :=
  ∀ c ∈ v.calls, c ∈ w.calls ∨ c.process = process ∧ ∀ q, c.server = some q → server q

end

variable {w v : PagingWorld M cfg σ} {process : ObjectId} {server : ObjectId → Prop}
  {layer : ObjectId → Nat}

section
omit [FrameSource σ]

theorem Joins.of_calls (same : v.calls = w.calls) : w.Joins v process server := by
  intro _ mem
  rw [same] at mem
  exact .inl mem

theorem joins_callService
    (parked : w.callService call accepted = some v) : w.Joins v call.process (call.server = some ·) := by
  unfold callService at parked
  split at parked
  · cases parked
  obtain ⟨_,done⟩ := ite_none_right_eq_some.mp parked
  cases done
  intro _ mem
  rcases List.mem_append.mp mem with old | new
  · exact .inl old
  · rw [List.mem_singleton.mp new]
    exact .inr ⟨rfl,fun _ => id⟩

variable (w)

theorem joins_pageIn (thread : ThreadId) (process obj : ObjectId) (off : Nat) (accepted : Bool) :
    w.Joins (w.pageIn thread process obj off accepted).2 process (w.memory.servedBy obj = some ·) := by
  fun_cases w.pageIn thread process obj off accepted with
  | case6 =>
    rename_i parked
    exact joins_callService parked
  | _ => exact .of_calls rfl

theorem joins_writeBack (thread : ThreadId) (process obj : ObjectId) (off : Nat)
    (kind : CallKind) (windowOpens accepted : Bool) :
    w.Joins (w.writeBack thread process obj off kind windowOpens accepted).2 process
      (w.memory.servedBy obj = some ·) := by
  unfold writeBack
  split
  · exact .of_calls rfl
  split
  · rename_i served _
    split
    · split
      · rename_i parked
        rw [served]
        exact joins_callService parked
      · exact .of_calls rfl
    · exact .of_calls rfl
  · exact .of_calls rfl

theorem joins_drainOneDirtyPage (thread : ThreadId) (process obj : ObjectId) (windowOpens accepted : Bool) :
    w.Joins (w.drainOneDirtyPage thread process obj windowOpens accepted).2 process
      (w.memory.servedBy obj = some ·) := by
  unfold drainOneDirtyPage
  split
  · exact .of_calls rfl
  rename_i graph _
  split
  · exact .of_calls rfl
  rename_i off _
  have asked := joins_writeBack { w with graph } thread process obj off .drain windowOpens accepted
  split
  · rename_i same
    rw [same] at asked
    exact asked
  rename_i same
  rw [same] at asked
  exact asked

end

section
variable (w)

theorem evictPage_calls (obj : ObjectId) (off : Nat) : (w.evictPage obj off).2.calls = w.calls := by
  unfold evictPage
  split <;> rfl

omit [FrameSource σ] in
theorem settle_snd (result : Bool × PagingWorld M cfg σ) : (settle result).2 = result.2 := by
  unfold settle
  split <;> rfl

theorem joins_reclaimOnePage (thread : ThreadId) (process : ObjectId) (windowOpens accepted : Bool) :
    w.Joins (w.reclaimOnePage thread process windowOpens accepted).2 process fun q =>
      w.memory.anyEvictable = none ∧ ∃ obj off, w.memory.anyDirty = some (obj, off) ∧
        w.memory.servedBy obj = some q := by
  unfold reclaimOnePage
  split
  · apply Joins.of_calls
    rw [settle_snd, evictPage_calls]
  rename_i noneClean
  split
  · exact .of_calls rfl
  rename_i obj off dirty
  have asked := joins_writeBack w thread process obj off .reclaim windowOpens accepted
  have found : w.Joins (w.writeBack thread process obj off .reclaim windowOpens accepted).2 process fun q =>
      w.memory.anyEvictable = none ∧ ∃ obj off, w.memory.anyDirty = some (obj, off) ∧
        w.memory.servedBy obj = some q := by
    intro c mem
    rcases asked c mem with old | ⟨own,served⟩
    · exact .inl old
    · exact .inr ⟨own,fun q asks => ⟨noneClean,obj,off,dirty,served q asks⟩⟩
  split
  · rename_i same
    rw [same] at found
    rw [settle_snd]
    intro c mem
    rw [evictPage_calls] at mem
    exact found c mem
  · exact found

omit [FrameSource σ] in
theorem supplyPage_calls (obj : ObjectId) (page : Nat) (frame : PhysFrame) :
    (w.supplyPage obj page frame).2.calls = w.calls := by
  unfold supplyPage
  split <;> rfl

theorem reclaimForPressure_calls (passes : Nat) : (w.reclaimForPressure passes).calls = w.calls := by
  induction passes generalizing w with
  | zero => rfl
  | succ passes ih =>
    unfold reclaimForPressure
    split
    · rfl
    rename_i obj off _
    have same := w.evictPage_calls obj off
    split <;> rename_i evicted <;> rw [evicted] at same
    · exact same
    · rw [ih, same]

theorem finish_calls (call : ServiceCall) (persisted : Bool) :
    (w.finish call persisted).calls = w.calls.filter (·.thread ≠ call.thread) := by
  have written (u : PagingWorld M cfg σ) : (u.writtenBack call.object call.offset persisted).2.calls = u.calls := by
    unfold writtenBack
    dsimp only
    split <;> rfl
  unfold finish
  dsimp only
  split
  · rfl
  · rw [pagingComplete, written]
  split <;> rename_i done
  · rw [evictPage_calls]
    exact (congrArg (·.2.calls) done).symm.trans (written _)
  · exact (congrArg (·.2.calls) done).symm.trans (written _)

end

/-- The condition on requests: the process that would answer lies in a lower layer
    than the one that asks. -/
def Downward (layer : ObjectId → Nat) (w : PagingWorld M cfg σ) : PagingAction → Prop
  | .pageIn _ process object _ _ | .drainOneDirtyPage _ process object _ _ =>
    ∀ q, w.memory.servedBy object = some q → layer q < layer process
  | .pageSupply _ process _ _ _ atCeiling _ _ => atCeiling = true → w.memory.anyEvictable = none →
    ∀ object offset, w.memory.anyDirty = some (object, offset) → ∀ q, w.memory.servedBy object = some q →
      layer q < layer process
  | _ => True

def Layered (layer : ObjectId → Nat) (w : PagingWorld M cfg σ) : Prop :=
  ∀ c ∈ w.calls, ∀ q, c.server = some q → layer q < layer c.process

section
omit [FrameSource σ]

theorem Layered.joins (layered : w.Layered layer) (joins : w.Joins v process server)
    (lower : ∀ q, server q → layer q < layer process) : v.Layered layer := by
  intro c mem q asks
  rcases joins c mem with old | ⟨own,served⟩
  · exact layered c old q asks
  · rw [own]
    exact lower q (served q asks)

theorem Layered.of_subset (layered : w.Layered layer) (fewer : ∀ c ∈ v.calls, c ∈ w.calls) : v.Layered layer :=
  fun c mem => layered c (fewer c mem)

end

theorem memoryCreatePaged_calls (w : PagingWorld M cfg σ) (owner : ObjectId) (pages : Nat) (pager : ObjectId)
    (installs : Bool) : (w.memoryCreatePaged owner pages pager installs).calls = w.calls := by
  unfold memoryCreatePaged
  split
  · rfl
  split
  · rfl
  · split <;> rfl

theorem Layered.step (layered : w.Layered layer) (downward : w.Downward layer a)
    (step : Step w a v) : v.Layered layer := by
  cases a with
  | channelCreate | expireStalledPageIns | markDirty =>
    cases step
    exact layered
  | memoryCreatePaged =>
    cases step
    apply layered.of_subset
    rw [memoryCreatePaged_calls]
    exact fun _ => id
  | pageIn thread process obj off accepted =>
    obtain rfl := eq_of_guard step
    exact layered.joins (w.joins_pageIn thread process obj off accepted) downward
  | drainOneDirtyPage thread process obj windowOpens accepted =>
    obtain rfl := eq_of_guard step
    exact layered.joins (w.joins_drainOneDirtyPage thread process obj windowOpens accepted) downward
  | pageSupply thread process obj page frame atCeiling windowOpens accepted =>
    obtain rfl := eq_of_guard step
    unfold pageSupply
    split
    · rename_i full
      have reclaimed : (w.reclaimOnePage thread process windowOpens accepted).2.Layered layer := by
        apply layered.joins (w.joins_reclaimOnePage thread process windowOpens accepted)
        rintro q ⟨noneClean,o,off,dirty,served⟩
        exact downward full noneClean o off dirty q served
      split
      · rename_i same
        rw [same] at reclaimed
        apply reclaimed.of_subset
        rw [supplyPage_calls]
        exact fun _ => id
      · exact reclaimed
    · apply layered.of_subset
      rw [supplyPage_calls]
      exact fun _ => id
  | reclaimForPressure =>
    cases step
    apply layered.of_subset
    rw [reclaimForPressure_calls]
    exact fun _ => id
  | finish =>
    obtain ⟨_,_,done⟩ := map_eq_some_iff.mp step
    cases done
    apply layered.of_subset
    rw [finish_calls]
    exact fun _ => List.mem_of_mem_filter

omit [FrameSource σ] in
theorem Layered.lower (layered : w.Layered layer) (path : Relation.ReflTransGen w.Waits p q) : layer q ≤ layer p := by
  induction path with
  | refl => exact le_rfl
  | tail _ step =>
    obtain ⟨c,mem,rfl,asks⟩ := step
    have drop := layered c mem _ asks
    omega

/-- Where requests only go down the layers, no thread waits for a service that waits,
    through any chain of calls, for the thread's own process. -/
theorem no_call_waits_for_itself {layer : ObjectId → Nat} {alloc : σ} {history : List PagingAction}
    {w : PagingWorld M cfg σ} (run : Disciplined (fun _ => Downward layer) Step (initial alloc) history w) :
    ∀ c ∈ w.calls, ∀ q, c.server = some q → ¬ Relation.ReflTransGen w.Waits q c.process := by
  have layered : w.Layered layer := by
    refine run.invariant (fun _ => Layered layer) ?_ ?_
    · exact fun _ _ _ _ layered downward step => layered.step downward step
    · exact nofun
  intro c mem q asks path
  have down := layered c mem q asks
  have up := layered.lower path
  omega

def chainOfServices : List PagingAction :=
  [.channelCreate, .channelCreate, .memoryCreatePaged ⟨5⟩ 1 ⟨0x2000⟩ true, .memoryCreatePaged ⟨6⟩ 1 ⟨0x2002⟩ true,
    .pageIn (.mint 0 1) ⟨7⟩ ⟨0x1000⟩ 0 true, .pageIn (.mint 0 2) ⟨5⟩ ⟨0x1001⟩ 0 true]

def serviceLayer (p : ObjectId) : Nat := if p = ⟨6⟩ then 0 else if p = ⟨5⟩ then 1 else 2

instance (layer : ObjectId → Nat) (w : PagingWorld M cfg σ) (a : PagingAction) : Decidable (w.Downward layer a) :=
  match a with
  | .pageIn _ process object _ _ | .drainOneDirtyPage _ process object _ _ =>
    decidable_of_iff ((w.memory.servedBy object).all fun q => layer q < layer process)
      (by simp [Downward, all_eq_true])
  | .pageSupply _ process _ _ _ atCeiling _ _ =>
    decidable_of_iff (atCeiling = true → w.memory.anyEvictable = none →
        (w.memory.anyDirty.all fun found => (w.memory.servedBy found.1).all fun q => layer q < layer process) = true)
      (by simp [Downward, all_eq_true])
  | .channelCreate | .memoryCreatePaged .. | .markDirty .. | .reclaimForPressure _ | .expireStalledPageIns
  | .finish .. => isTrue trivial

theorem chain_of_services_is_free : ∃ w : PagingWorld (Message .default) .default (BumpFrameAllocator .default),
      Disciplined (fun _ => Downward serviceLayer) Step (initial (.new [])) chainOfServices w ∧
      w.calls.map (fun c => (c.process, c.server)) = [(⟨7⟩, some ⟨5⟩), (⟨5⟩, some ⟨6⟩)] ∧
      ∀ c ∈ w.calls, ∀ q, c.server = some q → ¬ Relation.ReflTransGen w.Waits q c.process :=
  Disciplined.reaches_also (by decide +kernel) fun _ run _ => no_call_waits_for_itself run

def selfReader : List PagingAction :=
  [.channelCreate, .memoryCreatePaged ⟨5⟩ 1 ⟨0x2000⟩ true, .pageIn (.mint 0 1) ⟨5⟩ ⟨0x1000⟩ 0 true]

def ringOfServices : List PagingAction :=
  [.channelCreate, .channelCreate, .memoryCreatePaged ⟨5⟩ 1 ⟨0x2000⟩ true, .memoryCreatePaged ⟨6⟩ 1 ⟨0x2002⟩ true,
    .pageIn (.mint 0 1) ⟨5⟩ ⟨0x1001⟩ 0 true, .pageIn (.mint 0 2) ⟨6⟩ ⟨0x1000⟩ 0 true]

def selfReclaimer : List PagingAction :=
  [.channelCreate, .memoryCreatePaged ⟨5⟩ 2 ⟨0x2000⟩ true,
    .pageSupply (.mint 0 1) ⟨5⟩ ⟨0x1000⟩ 0 ⟨0x100000, by decide⟩ false true true, .markDirty ⟨0x1000⟩ 0,
    .pageSupply (.mint 0 1) ⟨5⟩ ⟨0x1000⟩ 1 ⟨0x101000, by decide⟩ true true true]

/-- The guard knows a pager by its endpoint and a requester by its process, so it lets
    a process wait for itself and two for each other; a reclaim does not ask it. -/
theorem paging_calls_wait_in_a_ring : (∃ w : PagingWorld (Message .default) .default (BumpFrameAllocator .default),
      Run Step (initial (.new [])) selfReader w ∧ w.Waits ⟨5⟩ ⟨5⟩) ∧
    (∃ w : PagingWorld (Message .default) .default (BumpFrameAllocator .default),
      Run Step (initial (.new [])) ringOfServices w ∧ w.Waits ⟨5⟩ ⟨6⟩ ∧ w.Waits ⟨6⟩ ⟨5⟩) ∧
    ∃ w : PagingWorld (Message .default) .default (BumpFrameAllocator .default),
      Run Step (initial (.new [])) selfReclaimer w ∧ w.Waits ⟨5⟩ ⟨5⟩ :=
  ⟨Disciplined.reaches (by decide +kernel), Disciplined.reaches (by decide +kernel),
    Disciplined.reaches (by decide +kernel)⟩

end PagingWorld
end Tessera
