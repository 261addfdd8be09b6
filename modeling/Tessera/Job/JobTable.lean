import Tessera.Exec.Thread
import Tessera.Object
import Tessera.Lib.Slots
import Tessera.Lib.Forest

/-!
Jobs: a pool of nodes that record their parent, their children and their member
processes. A job is never taken out of the pool. The kill order is a walk over
the child lists, reversed, so that a job comes after everything inside it.
-/
namespace Tessera
open Slots

structure JobId where
  index : Nat
  deriving DecidableEq

structure JobLimits where
  maxProcesses : Nat
  deriving DecidableEq

def JobLimits.within (limits ancestor : JobLimits) : Bool := limits.maxProcesses ≤ ancestor.maxProcesses

structure Member where
  process : ObjectId
  thread : ThreadId
  deriving DecidableEq

structure Job (cfg : Config) where
  object : ObjectId
  parent : Option JobId
  children : Slots JobId cfg.maxChildrenPerJob
  members : Slots Member cfg.maxMembersPerJob
  limits : JobLimits
  stateSource : Nat
  killed : Bool
  deriving DecidableEq

namespace Job
variable {cfg : Config}

def new (object : ObjectId) (parent : Option JobId) (limits : JobLimits) : Job cfg :=
  ⟨object, parent, .empty, .empty, limits, object.raw, false⟩

def memberCount (job : Job cfg) : Nat := job.members.live.length

def processes (job : Job cfg) : List ObjectId := job.members.live.map (·.process)

end Job

structure JobTable (cfg : Config) where
  jobs : Slots (Job cfg) cfg.maxJobs
  deriving DecidableEq

namespace JobTable
variable {cfg : Config}

section
variable (t : JobTable cfg) (id : JobId)

def new : JobTable cfg := ⟨.empty⟩

def job : Option (Job cfg) := t.jobs.cell id.index

def setJob (job : Job cfg) : JobTable cfg := ⟨t.jobs.put id.index job⟩

def freeSlot : Except KError Nat :=
  match t.jobs.free? with
  | none => .error .outOfMemory
  | some index => .ok index

def createRoot (object : ObjectId) (limits : JobLimits) : Except KError JobId × JobTable cfg :=
  match t.freeSlot with
  | .error e => (.error e, t)
  | .ok index => (.ok ⟨index⟩, t.setJob ⟨index⟩ (.new object none limits))

/-- Enters a job into its parent's child list. The job stays in the pool when the
    list is full. -/
def link (parent child : JobId) : Except KError JobId × JobTable cfg :=
  match t.job parent with
  | none => (.error .badHandle, t)
  | some job =>
    match job.children.free? with
    | none => (.error .outOfMemory, t)
    | some slot => (.ok child, t.setJob parent { job with children := job.children.put slot child })

def createChild (parent : JobId) (object : ObjectId) (limits : JobLimits) (callerRights : Rights) :
    Except KError JobId × JobTable cfg :=
  if ¬ callerRights.contains .createJob then (.error .accessDenied, t)
  else
    match t.job parent with
    | none => (.error .badHandle, t)
    | some parentJob =>
      if parentJob.killed then (.error .badHandle, t)
      else if ¬ limits.within parentJob.limits then (.error .limitExceeded, t)
      else
        match t.freeSlot with
        | .error e => (.error e, t)
        | .ok index => (t.setJob ⟨index⟩ (.new object (some parent) limits)).link parent ⟨index⟩

def addProcess (member : Member) (callerRights : Rights) : Except KError Unit × JobTable cfg :=
  if ¬ callerRights.contains .createProcess then (.error .accessDenied, t)
  else
    match t.job id with
    | none => (.error .badHandle, t)
    | some job =>
      if job.killed then (.error .badHandle, t)
      else if job.limits.maxProcesses ≤ job.memberCount then (.error .limitExceeded, t)
      else
        match job.members.free? with
        | none => (.error .outOfMemory, t)
        | some slot => (.ok (), t.setJob id { job with members := job.members.put slot member })

def childIds : List JobId :=
  match t.job id with
  | none => []
  | some job => job.children.live

def processes (t : JobTable cfg) (id : JobId) : List ObjectId :=
  match t.job id with
  | none => []
  | some job => job.processes

def members (t : JobTable cfg) (id : JobId) : List Member :=
  match t.job id with
  | none => []
  | some job => job.members.live

def markKilled (order : List JobId) : JobTable cfg :=
  order.foldl (fun t id => ⟨t.jobs.alter id.index fun job => { job with killed := true }⟩) t

/-- The caller's array takes so many entries. -/
def killOrder (root : JobId) (callerRights : Rights) (entries : Nat) : Except KError (List JobId) × JobTable cfg :=
  if ¬ callerRights.contains .kill then (.error .accessDenied, t)
  else if (t.job root).isNone then (.error .badHandle, t)
  else
    match Forest.walk t.childIds cfg.maxJobs cfg.maxJobs [root] [] with
    | none => (.error .outOfMemory, t)
    | some pre =>
      if entries < pre.length then (.error .outOfMemory, t)
      else (.ok pre.reverse, t.markKilled pre.reverse)

end

theorem job_setJob (t : JobTable cfg) (id other : JobId) (job : Job cfg) :
    (t.setJob id job).job other = if id = other ∧ id.index < cfg.maxJobs then some job else t.job other := by
  unfold setJob JobTable.job
  rw [put, cell_assign]
  by_cases same : id = other
  · subst same
    simp
  · have apart : id.index ≠ other.index := fun h => same (by cases id; cases other; cases h; rfl)
    simp [same, apart]

theorem lt_of_job {t : JobTable cfg} {id : JobId} {job : Job cfg} (found : t.job id = some job) :
    id.index < cfg.maxJobs :=
  lt_of_cell found

theorem freeSlot_ok {t : JobTable cfg} {index : Nat} (free : t.freeSlot = .ok index) :
    index < cfg.maxJobs ∧ t.job ⟨index⟩ = none ∧ ∀ i < index, (t.job ⟨i⟩).isSome := by
  unfold freeSlot at free
  split at free
  · cases free
  rename_i found
  cases free
  obtain ⟨inside,empty⟩ := free?_eq_some found
  refine ⟨inside,empty,?_⟩
  intro i before
  obtain ⟨_,_,first⟩ := List.findIdx?_eq_some_iff_getElem.mp found
  have within : i < t.jobs.cells.length := by
    omega
  have taken := first i before
  rw [JobTable.job, cell, List.getElem?_eq_getElem within]
  simpa [Option.isSome_iff_ne_none] using taken

theorem job_markKilled (t : JobTable cfg) (order : List JobId) (id : JobId) :
    (t.markKilled order).job id = (t.job id).map fun job => { job with killed := job.killed || order.contains id } := by
  unfold markKilled
  induction order generalizing t with
  | nil => cases h : t.job id <;> simp [h]
  | cons first rest ih =>
    rw [List.foldl_cons, ih]
    have altered : JobTable.job ⟨t.jobs.alter first.index fun job => { job with killed := true }⟩ id =
        if first = id then (t.job id).map fun job => { job with killed := true } else t.job id := by
      rw [JobTable.job, cell_alter]
      by_cases same : first = id
      · subst same
        simp [JobTable.job]
      · have apart : first.index ≠ id.index := fun h => same (by cases first; cases id; cases h; rfl)
        simp [same, apart, JobTable.job]
    rw [altered]
    by_cases same : first = id
    · subst same
      cases t.job first <;> simp
    · cases t.job id <;> simp [same, Ne.symm same]

end JobTable
end Tessera
