import Tessera.Job.JobTable
import Tessera.Lib.Transition

/-!
The job pool as a forest. Child lists and parent links are two records of one
relation. They agree as long as no child is created under a parent whose list is
full: such a child stays in the pool, recorded under its parent and in no list.
A process is a member of one job as long as no process is added twice.
-/
namespace Tessera
open List Option Slots JobTable
namespace JobTable
variable {cfg : Config}

def parentOf (t : JobTable cfg) (id : JobId) : Option JobId := (t.job id).bind (·.parent)

def Descends (t : JobTable cfg) : JobId → JobId → Prop := Relation.TransGen fun a b => t.parentOf a = some b

def Under (t : JobTable cfg) : JobId → JobId → Prop := Relation.ReflTransGen fun a b => t.parentOf a = some b

theorem createRoot_cases (t : JobTable cfg) (obj : ObjectId) (limits : JobLimits) :
    t.createRoot obj limits = (.error .outOfMemory, t) ∨ ∃ index, t.freeSlot = .ok index ∧
        t.createRoot obj limits = (.ok ⟨index⟩, t.setJob ⟨index⟩ (.new obj none limits)) := by
  unfold createRoot
  cases free : t.freeSlot with
  | error =>
    unfold freeSlot at free
    split at free
    · cases free
      exact .inl rfl
    · cases free
  | ok index => exact .inr ⟨index,rfl,rfl⟩

def admits (t : JobTable cfg) (parent : JobId) (limits : JobLimits) (callerRights : Rights) : Bool :=
  callerRights.contains .createJob && (t.job parent).any (fun job => !job.killed && limits.within job.limits) &&
    t.jobs.free?.isSome

/-- The parent of an admitted child, the slot the child gets and the two outcomes
    of linking it. -/
structure Admitted (t : JobTable cfg) (parent : JobId) (object : ObjectId) (limits : JobLimits)
    (result : Except KError JobId × JobTable cfg) (parentJob : Job cfg) (index : Nat) : Prop where
  found : t.job parent = some parentJob
  within : limits.within parentJob.limits = true
  free : t.freeSlot = .ok index
  outcome :
    parentJob.children.free? = none ∧
        result = (.error .outOfMemory, t.setJob ⟨index⟩ (.new object (some parent) limits)) ∨
      ∃ slot, parentJob.children.free? = some slot ∧
        result = (.ok ⟨index⟩, (t.setJob ⟨index⟩ (.new object (some parent) limits)).setJob parent
          { parentJob with children := parentJob.children.put slot ⟨index⟩ })

theorem createChild_cases (t : JobTable cfg) (parent : JobId) (obj : ObjectId) (limits : JobLimits)
    (callerRights : Rights) : t.admits parent limits callerRights = false ∧
        (∃ e, t.createChild parent obj limits callerRights = (.error e, t)) ∨
      t.admits parent limits callerRights = true ∧ ∃ parentJob index,
          t.Admitted parent obj limits (t.createChild parent obj limits callerRights) parentJob index := by
  unfold createChild
  by_cases allowed : callerRights.contains .createJob
  · rw [if_neg (not_not.mpr allowed)]
    cases found : t.job parent with
    | none => exact .inl ⟨by simp [admits, found],_,rfl⟩
    | some parentJob =>
      dsimp only
      split
      · rename_i killed
        exact .inl ⟨by simp [admits, found, killed],_,rfl⟩
      rename_i killed
      by_cases within : limits.within parentJob.limits
      · rw [if_neg (not_not.mpr within)]
        cases free : t.freeSlot with
        | error =>
          have full : t.jobs.free? = none := by
            unfold freeSlot at free
            split at free
            · assumption
            · cases free
          exact .inl ⟨by simp [admits, full],_,rfl⟩
        | ok index =>
          have room : t.jobs.free? = some index := by
            unfold freeSlot at free
            split at free
            · cases free
            · cases free
              assumption
          refine .inr ⟨by simp [admits, allowed, found, killed, within, room],parentJob,index,found,within,free,?_⟩
          obtain ⟨_,empty,_⟩ := freeSlot_ok free
          have apart : (⟨index⟩ : JobId) ≠ parent := by
            rintro rfl
            rw [empty] at found
            cases found
          have still : (t.setJob ⟨index⟩ (.new obj (some parent) limits)).job parent = some parentJob := by
            rw [job_setJob, if_neg fun h => apart h.1, found]
          dsimp only [link]
          rw [still]
          dsimp only
          cases children : parentJob.children.free? with
          | none => exact .inl ⟨rfl,rfl⟩
          | some slot => exact .inr ⟨slot,rfl,rfl⟩
      · rw [if_pos within]
        exact .inl ⟨by simp [admits, found, within],_,rfl⟩
  · rw [if_pos allowed]
    exact .inl ⟨by simp [admits, allowed],_,rfl⟩

def accepts (t : JobTable cfg) (id : JobId) (callerRights : Rights) : Bool :=
  callerRights.contains .createProcess &&
    (t.job id).any fun job =>
      !job.killed && decide (job.memberCount < job.limits.maxProcesses) && job.members.free?.isSome

theorem addProcess_cases (t : JobTable cfg) (id : JobId) (member : Member) (callerRights : Rights) :
    (∃ e, t.addProcess id member callerRights = (.error e, t)) ∨ t.accepts id callerRights = true ∧
        ∃ job slot, t.job id = some job ∧ job.members.free? = some slot ∧ t.addProcess id member callerRights =
            (.ok (), t.setJob id { job with members := job.members.put slot member }) := by
  unfold addProcess
  by_cases allowed : callerRights.contains .createProcess
  · rw [if_neg (not_not.mpr allowed)]
    cases found : t.job id with
    | none => exact .inl ⟨_,rfl⟩
    | some job =>
      dsimp only
      split
      · exact .inl ⟨_,rfl⟩
      rename_i killed
      split
      · exact .inl ⟨_,rfl⟩
      rename_i full
      cases free : job.members.free? with
      | none => exact .inl ⟨_,rfl⟩
      | some =>
        simp [accepts, allowed, found, killed, free, Nat.lt_of_not_le full]
  · rw [if_pos allowed]
    exact .inl ⟨_,rfl⟩

/-- What holds of every pool: occupied slots come first, a job is younger than its
    parent and tighter, and a listed child records the job that lists it. -/
structure Grown (t : JobTable cfg) : Prop where
  packed : ∀ id job, t.job id = some job → ∀ i < id.index, (t.job ⟨i⟩).isSome
  older : ∀ id job p, t.job id = some job → job.parent = some p →
    p.index < id.index ∧ ∃ parent, t.job p = some parent ∧ job.limits.within parent.limits = true
  linked : ∀ c p, c ∈ t.childIds p → t.parentOf c = some p
  once : ∀ p, (t.childIds p).Nodup

def Listed (t : JobTable cfg) : Prop := ∀ id p, t.parentOf id = some p → id ∈ t.childIds p

structure Alone (t : JobTable cfg) : Prop where
  once : ∀ id, (t.processes id).Nodup
  apart : ∀ a b, a ≠ b → (t.processes a).Disjoint (t.processes b)

variable {t u : JobTable cfg} {id : JobId} {job : Job cfg}

theorem childIds_eq (found : t.job id = some job) : t.childIds id = job.children.live := by
  simp [childIds, found]

theorem processes_eq (found : t.job id = some job) : t.processes id = job.processes := by
  simp [processes, found]

theorem parentOf_eq_some : t.parentOf id = some p ↔ ∃ job, t.job id = some job ∧ job.parent = some p :=
  bind_eq_some_iff

theorem Alone.same (alone : t.Alone) (same : ∀ id, u.processes id = t.processes id) : u.Alone := by
  constructor
  · intro id
    rw [same]
    exact alone.once id
  · intro a b different
    rw [same, same]
    exact alone.apart a b different

theorem Grown.below_free (grown : t.Grown) (free : t.freeSlot = .ok index)
    (found : t.job id = some job) : id.index < index := by
  obtain ⟨_,empty,_⟩ := freeSlot_ok free
  by_contra past
  rcases Nat.lt_or_eq_of_le (Nat.not_lt.mp past) with later | same
  · have taken := grown.packed id job found index later
    rw [empty] at taken
    cases taken
  subst same
  rw [found] at empty
  cases empty

section Spawn
variable {index : Nat} {fresh : Job cfg}

section
variable (free : t.freeSlot = .ok index)
include free

theorem job_spawn (id : JobId) : (t.setJob ⟨index⟩ fresh).job id = if ⟨index⟩ = id then some fresh else t.job id := by
  obtain ⟨inside,_,_⟩ := freeSlot_ok free
  simp [job_setJob, inside]

theorem job_spawn_of_some (found : t.job id = some job) : (t.setJob ⟨index⟩ fresh).job id = some job := by
  obtain ⟨_,empty,_⟩ := freeSlot_ok free
  rw [job_spawn free, if_neg, found]
  rintro rfl
  rw [empty] at found
  cases found

theorem childIds_spawn (childless : fresh.children.live = []) (id : JobId) :
    (t.setJob ⟨index⟩ fresh).childIds id = t.childIds id := by
  obtain ⟨_,empty,_⟩ := freeSlot_ok free
  unfold childIds
  rw [job_spawn free]
  by_cases same : (⟨index⟩ : JobId) = id
  · subst same
    simp [childless, empty]
  · rw [if_neg same]

theorem processes_spawn (vacant : fresh.processes = []) (id : JobId) :
    (t.setJob ⟨index⟩ fresh).processes id = t.processes id := by
  obtain ⟨_,empty,_⟩ := freeSlot_ok free
  unfold processes
  rw [job_spawn free]
  by_cases same : (⟨index⟩ : JobId) = id
  · subst same
    simp [vacant, empty]
  · rw [if_neg same]

theorem parentOf_spawn (id : JobId) :
    (t.setJob ⟨index⟩ fresh).parentOf id = if ⟨index⟩ = id then fresh.parent else t.parentOf id := by
  unfold parentOf
  rw [job_spawn free]
  split <;> rfl

end

theorem Grown.spawn (grown : t.Grown) (free : t.freeSlot = .ok index) (childless : fresh.children.live = [])
    (tight : ∀ p, fresh.parent = some p → ∃ parent, t.job p = some parent ∧ fresh.limits.within parent.limits = true) :
    (t.setJob ⟨index⟩ fresh).Grown := by
  obtain ⟨_,empty,before⟩ := freeSlot_ok free
  have still {id : JobId} (taken : (t.job id).isSome) : ((t.setJob ⟨index⟩ fresh).job id).isSome := by
    obtain ⟨job,found⟩ := isSome_iff_exists.mp taken
    rw [job_spawn_of_some free found]
    rfl
  constructor
  · intro id job found i earlier
    rw [job_spawn free] at found
    split at found
    · rename_i same
      subst same
      exact still (before i earlier)
    · exact still (grown.packed id job found i earlier)
  · intro id job p found parent
    rw [job_spawn free] at found
    split at found
    · rename_i same
      subst same
      cases found
      obtain ⟨parentJob,there,within⟩ := tight p parent
      exact ⟨grown.below_free free there,parentJob,job_spawn_of_some free there,within⟩
    · obtain ⟨earlier,parentJob,there,within⟩ := grown.older id job p found parent
      exact ⟨earlier,parentJob,job_spawn_of_some free there,within⟩
  · intro c p member
    rw [childIds_spawn free childless] at member
    have recorded := grown.linked c p member
    obtain ⟨_,found,_⟩ := parentOf_eq_some.mp recorded
    rw [parentOf_spawn free, if_neg, recorded]
    rintro rfl
    rw [empty] at found
    cases found
  · intro p
    rw [childIds_spawn free childless]
    exact grown.once p

end Spawn

def SameStock (t u : JobTable cfg) : Prop :=
  ∀ id, (u.job id).map (fun job => (job.parent, job.limits)) = (t.job id).map fun job => (job.parent, job.limits)

def SameKin (t u : JobTable cfg) : Prop :=
  ∀ id, (u.job id).map (fun job => (job.parent, job.children, job.limits)) =
    (t.job id).map fun job => (job.parent, job.children, job.limits)

section Kin

theorem SameStock.symm (same : SameStock t u) : SameStock u t := fun id => (same id).symm

theorem SameStock.before (same : SameStock t u) (found : u.job id = some job) :
    ∃ old, t.job id = some old ∧ old.parent = job.parent ∧ old.limits = job.limits := by
  have equal := same id
  rw [found] at equal
  obtain ⟨old,there,stock⟩ := map_eq_some_iff.mp equal.symm
  exact ⟨old,there,(Prod.mk.inj stock).1,(Prod.mk.inj stock).2⟩

theorem SameStock.parentOf (same : SameStock t u) (id : JobId) : u.parentOf id = t.parentOf id := by
  have equal := congrArg (fun stock => stock.bind (·.1)) (same id)
  simpa [JobTable.parentOf, bind_map] using equal

theorem SameKin.stock (same : SameKin t u) : SameStock t u := by
  intro id
  have equal := congrArg (Option.map fun kin => (kin.1, kin.2.2)) (same id)
  simpa [Function.comp_def] using equal

theorem SameKin.childIds (same : SameKin t u) (id : JobId) : u.childIds id = t.childIds id := by
  have equal := congrArg (fun kin => (kin.map (·.2.1)).map Slots.live) (same id)
  unfold JobTable.childIds
  cases now : u.job id <;> cases old : t.job id <;> simp_all

theorem Grown.stock (grown : t.Grown) (same : SameStock t u)
    (linked : ∀ c p, c ∈ u.childIds p → t.parentOf c = some p) (once : ∀ p, (u.childIds p).Nodup) : u.Grown := by
  refine ⟨?_,?_,fun c p member => (same.parentOf c).trans (linked c p member),once⟩
  · intro id _ found i earlier
    obtain ⟨old,there,_⟩ := same.before found
    obtain ⟨_,taken⟩ := isSome_iff_exists.mp (grown.packed id old there i earlier)
    obtain ⟨_,now,_⟩ := same.symm.before taken
    rw [now]
    rfl
  · intro id _ p found parent
    obtain ⟨old,there,parents,limits⟩ := same.before found
    obtain ⟨earlier,_,standing,within⟩ := grown.older id old p there (parents.trans parent)
    obtain ⟨now,stands,_,ceiling⟩ := same.symm.before standing
    exact ⟨earlier,now,stands,by rw [← limits, ceiling]; exact within⟩

theorem Grown.kin (grown : t.Grown) (same : SameKin t u) : u.Grown := by
  apply grown.stock same.stock
  · intro c p member
    rw [same.childIds] at member
    exact grown.linked c p member
  · intro p
    rw [same.childIds]
    exact grown.once p

theorem Listed.kin (listed : t.Listed) (same : SameKin t u) : u.Listed := by
  intro id p recorded
  rw [same.stock.parentOf] at recorded
  rw [same.childIds]
  exact listed id p recorded

end Kin

section
variable {j : Job cfg} (found : t.job id = some job)
include found

theorem job_replace (id' : JobId) : (t.setJob id j).job id' = if id = id' then some j else t.job id' := by
  simp [job_setJob, lt_of_job found]

theorem map_replace {β : Type} {f : Job cfg → β} (same : f j = f job) (id' : JobId) :
    ((t.setJob id j).job id').map f = (t.job id').map f := by
  rw [job_replace found]
  split
  · rename_i here
    rw [← here, found, map_some, map_some, same]
  · rfl

end

section Link
variable {parent child : JobId} {parentJob : Job cfg} {slot : Nat}

def linkAt (t : JobTable cfg) (parent : JobId) (parentJob : Job cfg) (slot : Nat) (child : JobId) : JobTable cfg :=
  t.setJob parent { parentJob with children := parentJob.children.put slot child }

section
variable (found : t.job parent = some parentJob)
include found

theorem sameStock_linkAt : SameStock t (t.linkAt parent parentJob slot child) := map_replace found rfl

theorem childIds_linkAt (free : parentJob.children.free? = some slot) (id : JobId) :
    ((t.linkAt parent parentJob slot child).childIds id).Perm
      (if parent = id then child :: t.childIds id else t.childIds id) := by
  obtain ⟨inside,empty⟩ := free?_eq_some free
  by_cases same : parent = id
  · subst same
    rw [if_pos rfl, childIds_eq found, childIds_eq (by rw [linkAt, job_replace found, if_pos rfl])]
    exact live_put_perm inside empty
  rw [if_neg same]
  unfold childIds linkAt
  rw [job_replace found, if_neg same]

theorem processes_linkAt (id : JobId) : (t.linkAt parent parentJob slot child).processes id = t.processes id := by
  unfold processes linkAt
  rw [job_replace found]
  by_cases same : parent = id
  · subst same
    rw [if_pos rfl, found]
    rfl
  · rw [if_neg same]

end

theorem Grown.link (grown : t.Grown) (found : t.job parent = some parentJob)
    (free : parentJob.children.free? = some slot) (recorded : t.parentOf child = some parent)
    (unlisted : child ∉ t.childIds parent) : (t.linkAt parent parentJob slot child).Grown := by
  apply grown.stock (sameStock_linkAt found)
  · intro c p member
    have listed := (childIds_linkAt found free p).mem_iff.mp member
    split at listed
    · rename_i same
      subst same
      rcases mem_cons.mp listed with rfl | old
      · exact recorded
      · exact grown.linked c parent old
    · exact grown.linked c p listed
  · intro p
    rw [(childIds_linkAt found free p).nodup_iff]
    split
    · rename_i same
      subst same
      exact nodup_cons.mpr ⟨unlisted,grown.once parent⟩
    · exact grown.once p

end Link

section Enroll
variable {slot : Nat} {member : Member}

def enroll (t : JobTable cfg) (id : JobId) (job : Job cfg) (slot : Nat) (member : Member) : JobTable cfg :=
  t.setJob id { job with members := job.members.put slot member }

section
variable (found : t.job id = some job)
include found

theorem sameKin_enroll : SameKin t (t.enroll id job slot member) := map_replace found rfl

theorem processes_enroll (free : job.members.free? = some slot) (other : JobId) :
    ((t.enroll id job slot member).processes other).Perm
      (if id = other then member.process :: t.processes other else t.processes other) := by
  obtain ⟨inside,empty⟩ := free?_eq_some free
  by_cases same : id = other
  · subst same
    rw [if_pos rfl, processes_eq found, processes_eq (by rw [enroll, job_replace found, if_pos rfl])]
    exact (live_put_perm inside empty).map (·.process)
  rw [if_neg same]
  unfold processes enroll
  rw [job_replace found, if_neg same]

end

theorem Alone.enroll (alone : t.Alone) (found : t.job id = some job) (free : job.members.free? = some slot)
    (outside : ∀ other, member.process ∉ t.processes other) : (t.enroll id job slot member).Alone := by
  have mem (other : JobId) (p : ObjectId) (listed : p ∈ (t.enroll id job slot member).processes other) :
      p ∈ t.processes other ∨ other = id ∧ p = member.process := by
    have now := (processes_enroll found free other).mem_iff.mp listed
    split at now
    · rename_i same
      rcases mem_cons.mp now with new | old
      · exact .inr ⟨same.symm,new⟩
      · exact .inl old
    · exact .inl now
  constructor
  · intro other
    rw [(processes_enroll found free other).nodup_iff]
    split
    · exact nodup_cons.mpr ⟨outside other,alone.once other⟩
    · exact alone.once other
  · intro a b different p first second
    rcases mem a p first with old | ⟨here,rfl⟩
    · rcases mem b p second with other | ⟨_,rfl⟩
      · exact alone.apart a b different old other
      · exact outside a old
    rcases mem b _ second with other | ⟨there,_⟩
    · exact outside b other
    · exact different (here.trans there.symm)

end Enroll

theorem sameKin_markKilled (t : JobTable cfg) (order : List JobId) : SameKin t (t.markKilled order) := by
  intro _
  rw [job_markKilled, Option.map_map]
  rfl

theorem processes_markKilled (t : JobTable cfg) (order : List JobId) (id : JobId) :
    (t.markKilled order).processes id = t.processes id := by
  unfold processes
  rw [job_markKilled]
  cases t.job id <;> rfl

theorem killOrder_table (t : JobTable cfg) (root : JobId) (callerRights : Rights) (entries : Nat) :
    (t.killOrder root callerRights entries).2 = t ∨
      ∃ order, (t.killOrder root callerRights entries).2 = t.markKilled order := by
  fun_cases t.killOrder root callerRights entries with
  | case5 => exact .inr ⟨_,rfl⟩
  | _ => exact .inl rfl

inductive Action where
  | createRoot (object : ObjectId) (limits : JobLimits)
  | createChild (parent : JobId) (object : ObjectId) (limits : JobLimits) (callerRights : Rights)
  | addProcess (id : JobId) (member : Member) (callerRights : Rights)
  | killOrder (root : JobId) (callerRights : Rights) (entries : Nat)

def perform (t : JobTable cfg) : Action → JobTable cfg
  | .createRoot object limits => (t.createRoot object limits).2
  | .createChild parent object limits callerRights => (t.createChild parent object limits callerRights).2
  | .addProcess id member callerRights => (t.addProcess id member callerRights).2
  | .killOrder root callerRights entries => (t.killOrder root callerRights entries).2

def Step (t : JobTable cfg) (a : Action) (u : JobTable cfg) : Prop := some (t.perform a) = some u

/-- A child that passes the checks finds a free place in its parent's list, and a
    process that is accepted is not yet a member of any job. -/
def Proper (t : JobTable cfg) : Action → Prop
  | .createChild parent _ limits callerRights =>
    t.admits parent limits callerRights = true → ((t.job parent).any (·.children.free?.isSome)) = true
  | .addProcess id member callerRights =>
    t.accepts id callerRights = true → ∀ job ∈ t.jobs.live, member.process ∉ job.processes
  | _ => True

instance (t : JobTable cfg) : (a : Action) → Decidable (t.Proper a)
  | .createRoot .. => inferInstanceAs (Decidable True)
  | .createChild .. => inferInstanceAs (Decidable (_ → _))
  | .addProcess .. => inferInstanceAs (Decidable (_ → _))
  | .killOrder .. => inferInstanceAs (Decidable True)

theorem createChild_proper (proper : t.Proper (.createChild parent obj limits callerRights)) :
    (∃ e, t.createChild parent obj limits callerRights = (.error e, t)) ∨
      ∃ parentJob index slot, t.job parent = some parentJob ∧ limits.within parentJob.limits = true ∧
        t.freeSlot = .ok index ∧ parentJob.children.free? = some slot ∧ t.createChild parent obj limits callerRights =
          (.ok ⟨index⟩, (t.setJob ⟨index⟩ (.new obj (some parent) limits)).linkAt parent parentJob slot ⟨index⟩) := by
  rcases t.createChild_cases parent obj limits callerRights with ⟨_,refused⟩ | ⟨admits,parentJob,index,admitted⟩
  · exact .inl refused
  have spare := proper admits
  rw [admitted.found, any_some] at spare
  rcases admitted.outcome with ⟨full,_⟩ | ⟨slot,free,result⟩
  · rw [full] at spare
    cases spare
  · exact .inr ⟨parentJob,index,slot,admitted.found,admitted.within,admitted.free,free,result⟩

theorem new_children (obj : ObjectId) (parent : Option JobId) (limits : JobLimits) :
    (Job.new obj parent limits : Job cfg).children.live = [] := by
  simp [Job.new, Slots.live, Slots.empty]

theorem new_processes (obj : ObjectId) (parent : Option JobId) (limits : JobLimits) :
    (Job.new obj parent limits : Job cfg).processes = [] := by
  simp [Job.new, Job.processes, Slots.live, Slots.empty]

theorem sameKin_addProcess {id : JobId} {member : Member} {callerRights : Rights} :
    SameKin t (t.perform (.addProcess id member callerRights)) := by
  rw [perform]
  rcases t.addProcess_cases id member callerRights with ⟨_,refused⟩ | ⟨_,_,_,found,_,added⟩
  · rw [refused]
    exact fun _ => rfl
  · exact added ▸ sameKin_enroll found

theorem sameKin_killOrder {root : JobId} {callerRights : Rights} {entries : Nat} :
    SameKin t (t.perform (.killOrder root callerRights entries)) := by
  rw [perform]
  rcases t.killOrder_table root callerRights entries with same | ⟨order,marked⟩
  · rw [same]
    exact fun _ => rfl
  · exact marked ▸ t.sameKin_markKilled order

theorem Grown.step (grown : t.Grown) (a : Action) : (t.perform a).Grown := by
  cases a with
  | createRoot obj limits =>
    rcases t.createRoot_cases obj limits with refused | ⟨index,free,created⟩
    · rw [perform, refused]
      exact grown
    · rw [perform, created]
      exact grown.spawn free (new_children ..) nofun
  | createChild parent obj limits callerRights =>
    rcases t.createChild_cases parent obj limits callerRights with ⟨_,_,refused⟩ | ⟨_,parentJob,index,admitted⟩
    · rw [perform, refused]
      exact grown
    have spawned : (t.setJob ⟨index⟩ (.new obj (some parent) limits)).Grown := by
      apply grown.spawn admitted.free (new_children ..)
      intro _ recorded
      cases recorded
      exact ⟨parentJob,admitted.found,admitted.within⟩
    rcases admitted.outcome with ⟨_,result⟩ | ⟨_,free,result⟩
    · rw [perform, result]
      exact spawned
    rw [perform, result]
    apply spawned.link (job_spawn_of_some admitted.free admitted.found) free
    · rw [parentOf_spawn admitted.free, if_pos rfl]
      rfl
    rw [childIds_spawn admitted.free (new_children ..)]
    intro listed
    obtain ⟨_,found,_⟩ := parentOf_eq_some.mp (grown.linked _ _ listed)
    rw [(freeSlot_ok admitted.free).2.1] at found
    cases found
  | addProcess => exact grown.kin sameKin_addProcess
  | killOrder => exact grown.kin sameKin_killOrder

theorem Listed.step (listed : t.Listed) (proper : t.Proper a) : (t.perform a).Listed := by
  cases a with
  | createRoot obj limits =>
    rcases t.createRoot_cases obj limits with refused | ⟨index,free,created⟩
    · rw [perform, refused]
      exact listed
    rw [perform, created]
    intro id p recorded
    rw [parentOf_spawn free] at recorded
    rw [childIds_spawn free (new_children ..)]
    split at recorded
    · cases recorded
    · exact listed id p recorded
  | createChild parent obj limits =>
    rcases createChild_proper proper with ⟨_,refused⟩ | ⟨parentJob,index,_,found,_,free,place,created⟩
    · rw [perform, refused]
      exact listed
    rw [perform, created]
    have there : (t.setJob ⟨index⟩ (.new obj (some parent) limits)).job parent = some parentJob :=
      job_spawn_of_some free found
    intro id p recorded
    rw [(sameStock_linkAt there).parentOf, parentOf_spawn free] at recorded
    rw [(childIds_linkAt there place p).mem_iff, childIds_spawn free (new_children ..)]
    split at recorded
    · rename_i same
      cases recorded
      rw [if_pos rfl, ← same]
      exact mem_cons_self
    have old := listed id p recorded
    split
    · exact mem_cons_of_mem _ old
    · exact old
  | addProcess => exact listed.kin sameKin_addProcess
  | killOrder => exact listed.kin sameKin_killOrder

theorem Alone.step (alone : t.Alone) (proper : t.Proper a) : (t.perform a).Alone := by
  cases a with
  | createRoot obj limits =>
    rcases t.createRoot_cases obj limits with refused | ⟨_,free,created⟩
    · rw [perform, refused]
      exact alone
    · rw [perform, created]
      exact alone.same (processes_spawn free (new_processes ..))
  | createChild =>
    rcases createChild_proper proper with ⟨_,refused⟩ | ⟨_,_,_,found,_,free,_,created⟩
    · rw [perform, refused]
      exact alone
    · rw [perform, created]
      exact (alone.same (processes_spawn free (new_processes ..))).same (processes_linkAt (job_spawn_of_some free found))
  | addProcess id member callerRights =>
    rcases t.addProcess_cases id member callerRights with ⟨_,refused⟩ | ⟨accepts,_,_,found,free,added⟩
    · rw [perform, refused]
      exact alone
    rw [perform, added]
    apply alone.enroll found free
    intro other listed
    cases there : t.job other with
    | none => simp [processes, there] at listed
    | some old =>
      rw [processes_eq there] at listed
      exact proper accepts old (mem_live.mpr ⟨other.index,there⟩) listed
  | killOrder root callerRights entries =>
    rcases t.killOrder_table root callerRights entries with same | ⟨order,marked⟩
    · rw [perform, same]
      exact alone
    · rw [perform, marked]
      exact alone.same (t.processes_markKilled order)

theorem job_new (id : JobId) : (new : JobTable cfg).job id = none := by
  simp [new, job]

theorem grown_new : (new : JobTable cfg).Grown := by
  constructor
  · intro _ _ found
    rw [job_new] at found
    cases found
  · intro _ _ _ found
    rw [job_new] at found
    cases found
  · intro _ _ member
    simp [childIds, job_new] at member
  · simp [childIds, job_new]

theorem listed_new : (new : JobTable cfg).Listed := by
  intro _ _ recorded
  simp [parentOf, job_new] at recorded

theorem alone_new : (new : JobTable cfg).Alone := by
  constructor
  · simp [processes, job_new]
  · simp [processes, job_new]

section
variable (grown : t.Grown)
include grown

/-- Whatever was done, the child lists are a forest: a child is younger than the
    job that lists it. -/
theorem Grown.forest : Forest.IsForest t.childIds := by
  have younger {a b : JobId} (descends : Forest.Descends t.childIds a b) : b.index < a.index := by
    induction descends with
    | single child =>
      obtain ⟨job,found,parent⟩ := parentOf_eq_some.mp (grown.linked _ _ child)
      exact (grown.older _ job _ found parent).1
    | tail _ child ih =>
      obtain ⟨job,found,parent⟩ := parentOf_eq_some.mp (grown.linked _ _ child)
      exact (grown.older _ job _ found parent).1.trans ih
  constructor
  · exact grown.once
  · intro a b c first second
    have same := (grown.linked a b first).symm.trans (grown.linked a c second)
    exact some.inj same
  · intro _ descends
    exact lt_irrefl _ (younger descends)

theorem Grown.inside (found : t.job root = some job) (below : Forest.Below t.childIds id root) :
    id ∈ (range cfg.maxJobs).map JobId.mk := by
  have live : ∃ job, t.job id = some job := by
    cases below using Relation.ReflTransGen.head_induction_on with
    | refl => exact ⟨job,found⟩
    | head child =>
      obtain ⟨job,found,_⟩ := parentOf_eq_some.mp (grown.linked _ _ child)
      exact ⟨job,found⟩
  obtain ⟨_,found⟩ := live
  exact mem_map.mpr ⟨id.index,mem_range.mpr (lt_of_job found),rfl⟩

/-- The kill order lists the jobs below the root in the child lists, each once and
    after everything below it. -/
theorem Grown.killOrder (allowed : callerRights.contains .kill = true) (live : (t.job root).isSome) (entries : Nat) :
    ∃ order, t.killOrder root callerRights entries =
        (if entries < order.length then (.error .outOfMemory, t) else (.ok order, t.markKilled order)) ∧
      order.Nodup ∧ (∀ id, id ∈ order ↔ Forest.Below t.childIds id root) ∧
      order.Pairwise fun a b => ¬ Forest.Descends t.childIds b a := by
  obtain ⟨_,found⟩ := isSome_iff_exists.mp live
  obtain ⟨pre,walked,once,exact,ordered⟩ := Forest.walk_spec grown.forest root cfg.maxJobs
    ((range cfg.maxJobs).map JobId.mk) (by simp) (fun _ => grown.inside found)
  refine ⟨pre.reverse,?_,by simpa using once,fun _ => by rw [mem_reverse, exact], pairwise_reverse.mpr ordered⟩
  rw [JobTable.killOrder, if_neg (not_not.mpr allowed), if_neg (by simp [found]), walked]
  simp

theorem child_eq (listed : t.Listed) : Forest.Child t.childIds = fun a b => t.parentOf a = some b := by
  funext a b
  exact propext ⟨grown.linked a b,listed a b⟩

theorem descends_eq (listed : t.Listed) : Forest.Descends t.childIds = t.Descends := by
  rw [Forest.Descends, child_eq grown listed]
  rfl

theorem below_eq (listed : t.Listed) : Forest.Below t.childIds = t.Under := by
  rw [Forest.Below, child_eq grown listed]
  rfl

end

/-- Every job that records a parent is listed by that parent, once, by no other job
    and within its limits, and no job is its own ancestor. -/
structure IsTree (t : JobTable cfg) : Prop where
  listed : ∀ id job p, t.job id = some job → job.parent = some p →
    ∃ parent, t.job p = some parent ∧ parent.children.live.count id = 1 ∧
      job.limits.within parent.limits = true ∧
      ∀ q other, t.job q = some other → id ∈ other.children.live → q = p
  acyclic : ∀ id, ¬ t.Descends id id

theorem isTree_of_grown (grown : t.Grown) (listed : t.Listed) : t.IsTree := by
  constructor
  · intro id job p found recorded
    obtain ⟨_,parent,there,within⟩ := grown.older id job p found recorded
    have member := listed id p (parentOf_eq_some.mpr ⟨job,found,recorded⟩)
    have once := grown.once p
    rw [childIds_eq there] at member once
    refine ⟨parent,there,count_eq_one_of_mem once member,within,?_⟩
    intro q _ standing claims
    have owner := grown.linked id q (by rw [childIds_eq standing]; exact claims)
    rw [parentOf, found, bind_some, recorded] at owner
    exact (some.inj owner).symm
  · intro id descends
    rw [← descends_eq grown listed] at descends
    exact grown.forest.acyclic id descends

theorem nodup_killed (alone : t.Alone) {order : List JobId} (once : order.Nodup) :
    (order.flatMap t.processes).Nodup := by
  rw [nodup_flatMap]
  refine ⟨fun id _ => alone.once id,?_⟩
  exact once.imp fun different => alone.apart _ _ different

open Transition

/-- In every run that keeps to the condition the pool is a tree, a refused call
    changes nothing, and the kill order of a job gives the processes of the job and
    of everything below it, each once and the inner ones first. -/
theorem job_tree_is_sound {history : List Action} {t : JobTable cfg}
    (run : Disciplined (fun _ => Proper) Step new history t) : t.IsTree ∧
    (∀ parent object limits callerRights e, t.Proper (.createChild parent object limits callerRights) →
      (t.createChild parent object limits callerRights).1 = .error e →
      (t.createChild parent object limits callerRights).2 = t) ∧
    (∀ id member callerRights e, (t.addProcess id member callerRights).1 = .error e →
      (t.addProcess id member callerRights).2 = t) ∧
    ∀ root callerRights entries, callerRights.contains .kill = true → (t.job root).isSome →
      ∃ order, (t.killOrder root callerRights entries).1 =
          (if entries < order.length then .error .outOfMemory else .ok order) ∧ (order.flatMap t.processes).Nodup ∧
        (∀ p, p ∈ order.flatMap t.processes ↔ ∃ id, t.Under id root ∧ p ∈ t.processes id) ∧
        order.Pairwise fun a b => ¬ t.Descends b a := by
  have kept : t.Grown ∧ t.Listed ∧ t.Alone := by
    refine run.invariant (fun _ t => t.Grown ∧ t.Listed ∧ t.Alone) ?_ ⟨grown_new,listed_new,alone_new⟩
    intro _ _ a _ ⟨grown,listed,alone⟩ proper step
    cases step
    exact ⟨grown.step a,listed.step proper,alone.step proper⟩
  obtain ⟨grown,listed,alone⟩ := kept
  refine ⟨isTree_of_grown grown listed,?_,?_,?_⟩
  · intro _ _ _ callerRights _ proper failed
    rcases createChild_proper proper with ⟨_,refused⟩ | ⟨_,_,_,_,_,_,_,created⟩
    · rw [refused]
    · rw [created] at failed
      cases failed
  · intro id member callerRights _ failed
    rcases t.addProcess_cases id member callerRights with ⟨_,refused⟩ | ⟨_,_,_,_,_,added⟩
    · rw [refused]
    · rw [added] at failed
      cases failed
  · intro _ _ entries allowed live
    obtain ⟨order,killed,once,within,ordered⟩ := grown.killOrder allowed live entries
    rw [descends_eq grown listed] at ordered
    refine ⟨order,?_,nodup_killed alone once,?_,ordered⟩
    · rw [killed]
      split <;> rfl
    intro _
    rw [mem_flatMap]
    constructor
    · rintro ⟨id,member,process⟩
      refine ⟨id,?_,process⟩
      rw [← below_eq grown listed]
      exact (within id).mp member
    · rintro ⟨id,under,process⟩
      rw [← below_eq grown listed] at under
      exact ⟨id,(within id).mpr under,process⟩

def fullRights : Rights := (Rights.createJob.union .createProcess).union .kill

def family : List Action :=
  [.createRoot ⟨1⟩ ⟨8⟩, .createChild ⟨0⟩ ⟨2⟩ ⟨4⟩ fullRights, .createChild ⟨1⟩ ⟨3⟩ ⟨2⟩ fullRights,
    .addProcess ⟨1⟩ ⟨⟨10⟩, ⟨1⟩⟩ fullRights, .addProcess ⟨2⟩ ⟨⟨11⟩, ⟨2⟩⟩ fullRights]

theorem family_is_a_tree : ∃ t : JobTable .default, Disciplined (fun _ => Proper) Step new family t ∧
      (t.killOrder ⟨0⟩ fullRights 48).1 = .ok [⟨2⟩, ⟨1⟩, ⟨0⟩] ∧ t.IsTree :=
  Disciplined.reaches_also (by decide +kernel) fun _ run _ => (job_tree_is_sound run).1

def fullFamily : List Action :=
  .createRoot ⟨1⟩ ⟨8⟩ :: replicate 8 (.createChild ⟨0⟩ ⟨2⟩ ⟨4⟩ fullRights)

def twiceAdded : List Action :=
  [.createRoot ⟨1⟩ ⟨8⟩, .addProcess ⟨0⟩ ⟨⟨10⟩, ⟨1⟩⟩ fullRights, .addProcess ⟨0⟩ ⟨⟨10⟩, ⟨1⟩⟩ fullRights]

/-- A refused ninth child stays in the pool under a parent that does not list it,
    and a process that is added twice is killed twice. -/
theorem full_family_leaves_an_orphan : (∃ t : JobTable .default, Run Step new fullFamily t ∧ t.job ⟨9⟩ = none ∧
      (t.createChild ⟨0⟩ ⟨2⟩ ⟨4⟩ fullRights).1 = .error .outOfMemory ∧
      (t.createChild ⟨0⟩ ⟨2⟩ ⟨4⟩ fullRights).2.parentOf ⟨9⟩ = some ⟨0⟩ ∧
      ⟨9⟩ ∉ (t.createChild ⟨0⟩ ⟨2⟩ ⟨4⟩ fullRights).2.childIds ⟨0⟩) ∧
    ∃ t : JobTable .default, Run Step new twiceAdded t ∧
      (t.killOrder ⟨0⟩ fullRights 48).1 = .ok [⟨0⟩] ∧ t.processes ⟨0⟩ = [⟨10⟩, ⟨10⟩] :=
  ⟨Disciplined.reaches (by decide +kernel), Disciplined.reaches (by decide +kernel)⟩

end JobTable
end Tessera
