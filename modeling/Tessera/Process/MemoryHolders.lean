import Tessera.Memory.HolderSet
import Tessera.Memory.Pmem
import Tessera.Pager.SelfPaging
import Tessera.Process.Authority

/-!
The life of a memory object against the handles that name it. Handles move as in
the authority model; beside them stands the memory table with each object's
holders, which creation, closing, arrival and teardown keep up. Nothing here
attaches memory to a device, and the mappings a close or an exit revokes are left
out. An object stays while some process has a handle to it or a message moves one.
-/
namespace Tessera
open HandleTable List Option HandleWorld
open MemoryTable
variable {cfg : Config} {p : Nat} {r : ProcessHandles cfg}

def IsMemory (o : ObjectId) : Prop := memoryObjectIdBase ≤ o.raw

instance (o : ObjectId) : Decidable (IsMemory o) := inferInstanceAs (Decidable (_ ≤ _))

namespace HandleWorld

def LiveFor (s : HandleWorld cfg) (id o : ObjectId) : Prop :=
  ∃ r ∈ s.processes, r.id = id ∧ r.handles.holds o = true

instance (s : HandleWorld cfg) (id o : ObjectId) : Decidable (s.LiveFor id o) :=
  inferInstanceAs (Decidable (∃ r ∈ s.processes, _))

def Moving (s : HandleWorld cfg) (o : ObjectId) : Prop :=
  ∃ m ∈ s.inFlight, ∃ h ∈ m.handles.items, h.object = o ∧ h.shared = false

def DistinctIds (s : HandleWorld cfg) : Prop :=
  ∀ (p q : Nat) (r r' : ProcessHandles cfg), s.processes[p]? = some r → s.processes[q]? = some r' → r.id = r'.id → p = q

section Changes
variable {s s' : HandleWorld cfg} {f : ProcessHandles cfg → ProcessHandles cfg}

theorem moving_of_inFlight (same : s'.inFlight = s.inFlight) (o : ObjectId) : s'.Moving o ↔ s.Moving o := by
  rw [Moving, Moving, same]

section
variable (ids : s.DistinctIds)
include ids

theorem distinctIds_modify (changed : s'.processes = s.processes.modify p f)
    (keeps : ∀ r, (f r).id = r.id) : s'.DistinctIds := by
  have before {q : Nat} {r : ProcessHandles cfg} (there : s'.processes[q]? = some r) :
      ∃ r₀, s.processes[q]? = some r₀ ∧ r₀.id = r.id := by
    rw [changed, getElem?_modify] at there
    obtain ⟨r₀,here,same⟩ := map_eq_some_iff.mp there
    refine ⟨r₀,here,?_⟩
    rw [← same]
    split
    · exact (keeps r₀).symm
    · rfl
  intro q q' _ _ there there' same
  obtain ⟨r₀,here,old⟩ := before there
  obtain ⟨r₁,here',old'⟩ := before there'
  exact ids q q' r₀ r₁ here here' (by rw [old, old', same])

section
variable (there : s.processes[p]? = some r)
include there

theorem liveFor_self (o : ObjectId) : s.LiveFor r.id o ↔ r.handles.holds o = true := by
  constructor
  · rintro ⟨r',mem,same,holds⟩
    obtain ⟨q,here⟩ := mem_iff_getElem?.mp mem
    have spot := ids q p r' r here there same
    rw [spot, there] at here
    cases here
    exact holds
  · intro holds
    exact ⟨r,mem_of_getElem? there,rfl,holds⟩

theorem liveFor_modify
    (changed : s'.processes = s.processes.modify p f) (keeps : ∀ r, (f r).id = r.id) (id o : ObjectId) :
    s'.LiveFor id o ↔ (id = r.id ∧ (f r).handles.holds o = true) ∨ (id ≠ r.id ∧ s.LiveFor id o) := by
  have mine : s'.processes[p]? = some (f r) := by
    rw [changed, getElem?_modify, there]
    simp
  have ids' := distinctIds_modify ids changed keeps
  by_cases same : id = r.id
  · subst same
    rw [← keeps r, liveFor_self ids' mine]
    simp
  simp only [same, false_and, ne_eq, not_false_eq_true, true_and, false_or]
  unfold LiveFor
  simp only [mem_iff_getElem?, changed, getElem?_modify]
  constructor
  · rintro ⟨r',⟨q,here⟩,named,holds⟩
    obtain ⟨r₀,old,made⟩ := map_eq_some_iff.mp here
    split at made
    · rename_i spot
      subst spot made
      rw [there] at old
      cases old
      exact absurd (named.symm.trans (keeps r)) same
    · subst made
      exact ⟨r₀,⟨q,old⟩,named,holds⟩
  · rintro ⟨r',⟨q,here⟩,named,holds⟩
    refine ⟨r',⟨q,?_⟩,named,holds⟩
    have apart : p ≠ q := by
      rintro rfl
      rw [there] at here
      cases here
      exact same named.symm
    simp [apart, here]

theorem liveFor_setHandles (t : HandleTable cfg) (id o : ObjectId) : (s.setHandles p t).LiveFor id o ↔
      (id = r.id ∧ t.holds o = true) ∨ (id ≠ r.id ∧ s.LiveFor id o) :=
  liveFor_modify (f := fun r => { r with handles := t }) ids there rfl (fun _ => rfl) id o

theorem liveFor_grown {new : ObjectId → Prop}
    (grown : ∀ o, t.holds o = true ↔ r.handles.holds o = true ∨ new o) (id o : ObjectId) :
    (s.setHandles p t).LiveFor id o ↔ s.LiveFor id o ∨ id = r.id ∧ new o := by
  rw [liveFor_setHandles ids there, grown, ← liveFor_self ids there]
  by_cases same : id = r.id
  · simp [same]
  · simp [same]

theorem give_effect (e : HandleEntry) (minted : Bool) :
    (s.give p r.handles e minted).DistinctIds ∧ (s.give p r.handles e minted).inFlight = s.inFlight ∧
      (∀ id o, s.LiveFor id o → (s.give p r.handles e minted).LiveFor id o) ∧
      ∀ id o, (s.give p r.handles e minted).LiveFor id o → s.LiveFor id o ∨ (id = r.id ∧ o = e.object) := by
  unfold give
  split
  · rename_i t installed
    have live (id o : ObjectId) : ((s.setHandles p t).bear p [e] minted).LiveFor id o ↔
        s.LiveFor id o ∨ id = r.id ∧ o = e.object := liveFor_grown ids there (holds_install_ok installed) id o
    exact ⟨distinctIds_modify ids rfl fun _ => rfl,rfl,fun id o before => (live id o).mpr (.inl before),
      fun id o => (live id o).mp⟩
  · exact ⟨ids,rfl,fun _ _ => id,fun _ _ => .inl⟩

end

end

end Changes
end HandleWorld

structure HolderWorld (cfg : Config) (σ : Type) where
  handles : HandleWorld cfg
  memory : MemoryTable cfg
  graph : SelfPagingGraph cfg
  alloc : σ

inductive HolderAction where
  | movement (a : HandleAction)
  | memoryCreate (p bytes : Nat) (placement : Placement)
  | memoryCreatePaged (p bytes pager : Nat)

def HolderAction.actor : HolderAction → Option Nat
  | .movement a => a.actor
  | .memoryCreate p _ _ | .memoryCreatePaged p _ _ => some p

namespace HolderWorld
open Transition
variable {σ : Type}

section Calls
variable [FrameSource σ]

section
variable (w : HolderWorld cfg σ)

def initial (alloc : σ) : HolderWorld cfg σ := ⟨.initial, .new, .new, alloc⟩

def pagesFor (bytes : Nat) : Nat := (bytes + frameSize - 1) / frameSize

def memoryRights : Rights := ((Rights.read.union .write).union .map).union .transfer

def memoryDestroy (object : ObjectId) : Nat × HolderWorld cfg σ :=
  match w.memory.destroy object w.alloc with
  | (released, memory, alloc) => (released, { w with memory, alloc, graph := (w.graph.unbind object.raw).2 })

/-- The creator's handle to a new object; with no room for it the object goes again. -/
def installCreated (p : Nat) (t : HandleTable cfg) (object : ObjectId) (rights : Rights) :
    Except KError Handle × HolderWorld cfg σ :=
  match t.install object rights with
  | (.ok handle, t) =>
    (.ok handle, { w with handles := (w.handles.setHandles p t).bear p [⟨object, rights⟩] true })
  | (.error e, _) => (.error e, (w.memoryDestroy object).2)

def memoryCreate (p bytes : Nat) (placement : Placement) : Except KError Handle × HolderWorld cfg σ :=
  match w.handles.processes[p]? with
  | none => (.error .accessDenied, w)
  | some r =>
    if bytes = 0 then (.error .invalidMapping, w)
    else if cfg.maxObjectPages < pagesFor bytes then (.error .limitExceeded, w)
    else
      match w.memory.create r.id (pagesFor bytes) placement w.alloc with
      | (.error e, memory, alloc) => (.error e, { w with memory, alloc })
      | (.ok object, memory, alloc) => { w with memory, alloc }.installCreated p r.handles object memoryRights

def memoryCreatePaged (p bytes pager : Nat) : Except KError Handle × HolderWorld cfg σ :=
  match w.handles.processes[p]? with
  | none => (.error .accessDenied, w)
  | some r =>
    if cfg.maxObjectPages < pagesFor bytes then (.error .limitExceeded, w)
    else
      match r.handles.lookup (.fromRaw pager) with
      | .error e => (.error e, w)
      | .ok (server, held) =>
        if !held.contains .supply then (.error .accessDenied, w)
        else
          match w.memory.createPaged r.id (pagesFor bytes) server with
          | (.error e, memory) => (.error e, { w with memory })
          | (.ok object, memory) =>
            match w.graph.bind object.raw server.raw with
            | (.error e, _) => (.error e, ({ w with memory }.memoryDestroy object).2)
            | (.ok (), graph) =>
              { w with memory, graph }.installCreated p r.handles object (memoryRights.union .supply)

/-- Dropped first, then asked about. The number is of the frames released. -/
def handleClose (p : Nat) (h : Handle) : Except KError Nat × HolderWorld cfg σ :=
  match w.handles.processes[p]? with
  | none => (.error .accessDenied, w)
  | some r =>
    match r.handles.dropHandle h with
    | (.error e, _) => (.error e, w)
    | (.ok object, t) =>
      if t.holds object then (.ok 0, { w with handles := w.handles.setHandles p t })
      else if w.memory.isHeldBy object r.id then
        match w.memory.removeHolder object r.id with
        | (true, memory) => (.ok 0, { w with handles := w.handles.setHandles p t, memory })
        | (false, memory) =>
          match { w with handles := w.handles.setHandles p t, memory }.memoryDestroy object with
          | (released, w) => (.ok released, w)
      else (.ok 0, { w with handles := w.handles.setHandles p t })

def receive (w : HolderWorld cfg σ) (p k : Nat) : HolderWorld cfg σ :=
  match w.handles.processes[p]?, w.handles.inFlight[k]? with
  | some r, some m =>
    { w with
      handles := w.handles.receive p k
      memory := w.memory.adoptTransferredMemory r.id m.handles.items }
  | _, _ => w

def exit (w : HolderWorld cfg σ) (p : Nat) (code : Int) : HolderWorld cfg σ :=
  match w.handles.processes[p]? with
  | none => w
  | some r =>
    match w.memory.releaseMemoryOf r.id w.alloc with
    | (memory, alloc) => { w with handles := w.handles.perform (.exit p code), memory, alloc }

def act : HolderAction → HolderWorld cfg σ
  | .movement (.exit p code) => w.exit p code
  | .movement (.receive p k) => w.receive p k
  | .movement (.handleClose p h) => (w.handleClose p h).2
  | .movement a => { w with handles := w.handles.perform a }
  | .memoryCreate p bytes placement => (w.memoryCreate p bytes placement).2
  | .memoryCreatePaged p bytes pager => (w.memoryCreatePaged p bytes pager).2

def isPresent (p : Nat) : Bool := (w.handles.processes[p]?).any (·.present)

/-- Only a process that is still there calls the kernel. -/
def perform (a : HolderAction) : Option (HolderWorld cfg σ) :=
  if a.actor.all w.isPresent then some (w.act a) else none

def Step (a : HolderAction) (w' : HolderWorld cfg σ) : Prop := w.perform a = some w'

end

end Calls

section
variable (w : HolderWorld cfg σ) (r : ProcessHandles cfg)

/-- Whoever has a live handle to a memory object is a holder of an object that is
    there, and an object that is there is named by a live handle or one on its way. -/
def LifeFollowsHandles : Prop :=
  (∀ r ∈ w.handles.processes, ∀ o, IsMemory o → r.handles.holds o = true → w.memory.HeldBy o r.id) ∧
    ∀ o e, w.memory.find o = some e → (∃ r ∈ w.handles.processes, r.handles.holds o = true) ∨ w.handles.Moving o

/-- The receiver has room for every handle of the message; its memory objects are
    still there, a shared one can list the receiver, and no other process is left
    with a handle to a moved one. -/
def Receivable (m : Message cfg) : Prop :=
  m.handles.items.length ≤ r.handles.slots.vacancies ∧
    ∀ h ∈ m.handles.items, IsMemory h.object → (w.memory.find h.object).isSome = true ∧
      w.memory.Adoptable r.id h ∧
      (h.shared = false → ∀ r' ∈ w.handles.processes, r'.handles.holds h.object = true → r'.id = r.id)

/-- A grant of a memory object goes to a process that is its holder already. -/
def Grantable (process source : Handle) : Prop :=
  match r.handles.lookup process, r.handles.lookup source with
  | .ok (target, _), .ok (object, _) => IsMemory object → w.memory.isHeldBy object target = true
  | _, _ => True

def Careful : HolderAction → Prop
  | .movement (.spawn id) => ∀ r ∈ w.handles.processes, r.id ≠ id
  | .movement (.mint _ e) => ¬ IsMemory e.object
  | .movement (.send p _ args _) => ∀ r ∈ w.handles.processes[p]?,
      ∀ ds ∈ args.descriptors.toOption, r.handles.Sendable (ds.take args.handleCount)
  | .movement (.receive p k) => ∀ r ∈ w.handles.processes[p]?, ∀ m ∈ w.handles.inFlight[k]?, w.Receivable r m
  | .movement (.lose k) => ∀ m ∈ w.handles.inFlight[k]?, ∀ h ∈ m.handles.items, IsMemory h.object → h.shared = true
  | .movement (.processGrant p process source _) => ∀ r ∈ w.handles.processes[p]?, w.Grantable r process source
  | _ => True

instance (w : HolderWorld cfg σ) (r : ProcessHandles cfg) (m : Message cfg) : Decidable (w.Receivable r m) :=
  inferInstanceAs (Decidable (_ ∧ ∀ h ∈ m.handles.items, _))

instance (w : HolderWorld cfg σ) (r : ProcessHandles cfg) (process source : Handle) :
    Decidable (w.Grantable r process source) := by
  unfold Grantable
  split <;> infer_instance

instance (w : HolderWorld cfg σ) (a : HolderAction) : Decidable (w.Careful a) := by
  unfold Careful
  split <;> infer_instance

structure Kept (w : HolderWorld cfg σ) : Prop where
  attended : w.memory.Attended
  ids : w.handles.DistinctIds
  held : ∀ o id, IsMemory o → w.handles.LiveFor id o → w.memory.HeldBy o id
  backed : ∀ o id, w.memory.HeldBy o id → w.handles.LiveFor id o ∨ w.handles.Moving o

end

variable {w : HolderWorld cfg σ} {o id : ObjectId} {s : HandleWorld cfg} {p k : Nat} {e : HandleEntry}

theorem Kept.follows (kept : w.Kept) : w.LifeFollowsHandles := by
  constructor
  · intro r mem o memory holds
    exact kept.held o r.id memory ⟨r,mem,rfl,holds⟩
  intro o e found
  obtain ⟨id,listed⟩ := kept.attended.nonempty o e found
  rcases kept.backed o id ⟨e,found,listed⟩ with ⟨r,mem,_,holds⟩ | moving
  · exact .inl ⟨r,mem,holds⟩
  · exact .inr moving

theorem kept_initial (alloc : σ) : (initial alloc : HolderWorld cfg σ).Kept := by
  refine ⟨attended_new,?_,?_,?_⟩
  · intro _ _ _ _ there
    simp [initial, HandleWorld.initial] at there
  · rintro o _ _ ⟨_,mem,_⟩
    simp [initial, HandleWorld.initial] at mem
  rintro o _ ⟨e,found,_⟩
  have none := find_eq_none.mp (show find (MemoryTable.new : MemoryTable cfg) o = none by
    rw [find_eq_none]
    intro i e here
    simp [MemoryTable.new] at here)
  obtain ⟨named,i,_,here⟩ := cell_of_find found
  exact absurd named (none i e here)

theorem isMemory_of_held {t : MemoryTable cfg} (attended : t.Attended) (held : t.HeldBy o id) : IsMemory o := by
  obtain ⟨_,found,_⟩ := held
  exact (attended.present found).1

theorem Kept.quiet {w' : HolderWorld cfg σ} (kept : w.Kept) (attended : w'.memory.Attended)
    (same : ∀ o id, w'.memory.HeldBy o id ↔ w.memory.HeldBy o id) (ids : w'.handles.DistinctIds)
    (gained : ∀ o id, IsMemory o → w'.handles.LiveFor id o → w.handles.LiveFor id o ∨ w.memory.HeldBy o id)
    (lost : ∀ o id, IsMemory o → w.handles.LiveFor id o → w'.handles.LiveFor id o ∨ w'.handles.Moving o)
    (moving : ∀ o, IsMemory o → w.handles.Moving o → w'.handles.Moving o) : w'.Kept := by
  refine ⟨attended,ids,?_,?_⟩
  · intro o id memory live
    rw [same]
    rcases gained o id memory live with before | held
    · exact kept.held o id memory before
    · exact held
  · intro o id held
    rw [same] at held
    have memory := isMemory_of_held kept.attended held
    rcases kept.backed o id held with live | flying
    · exact lost o id memory live
    · exact .inr (moving o memory flying)

theorem Kept.moved (kept : w.Kept) (ids : s.DistinctIds)
    (gained : ∀ o id, IsMemory o → s.LiveFor id o → w.handles.LiveFor id o ∨ w.memory.HeldBy o id)
    (lost : ∀ o id, IsMemory o → w.handles.LiveFor id o → s.LiveFor id o ∨ s.Moving o)
    (moving : ∀ o, IsMemory o → w.handles.Moving o → s.Moving o) : { w with handles := s }.Kept :=
  kept.quiet kept.attended (fun _ _ => Iff.rfl) ids gained lost moving

theorem moving_eraseIdx {s' : HandleWorld cfg} (flights : s'.inFlight = s.inFlight.eraseIdx k) (flying : s.Moving o)
    (other : ∀ m, s.inFlight[k]? = some m → ∀ h ∈ m.handles.items, h.object = o → h.shared = true) : s'.Moving o := by
  obtain ⟨m,mem,h,inside,object,moved⟩ := flying
  refine ⟨m,?_,h,inside,object,moved⟩
  rw [flights, mem_eraseIdx_iff_getElem?]
  obtain ⟨i,here⟩ := mem_iff_getElem?.mp mem
  refine ⟨i,?_,here⟩
  rintro rfl
  have kept := other m here h inside object
  rw [moved] at kept
  cases kept

theorem Kept.refusedCreate {w₀ : HolderWorld cfg σ} (kept : w.Kept) (handles : w₀.handles = w.handles)
    (attended : w₀.memory.Attended) (holders : ∀ o id, w₀.memory.HeldBy o id ↔ w.memory.HeldBy o id) : w₀.Kept := by
  refine kept.quiet attended holders ?_ ?_ ?_ ?_
  · rw [handles]
    exact kept.ids
  · intro _ _ _ after
    exact .inl (handles ▸ after)
  · intro _ _ _ before
    exact .inl (handles ▸ before)
  · intro _ _ flying
    exact handles ▸ flying

section
variable (kept : w.Kept)
include kept

theorem Kept.renamed (there : w.handles.processes[p]? = some r)
    (changed : s.processes = w.handles.processes.modify p f)
    (keeps : ∀ r, (f r).id = r.id) (holds : ∀ o, IsMemory o → (f r).handles.holds o = r.handles.holds o)
    (flights : s.inFlight = w.handles.inFlight) : { w with handles := s }.Kept := by
  have live (o id : ObjectId) (memory : IsMemory o) : s.LiveFor id o ↔ w.handles.LiveFor id o := by
    rw [liveFor_modify kept.ids there changed keeps, holds o memory]
    by_cases same : id = r.id
    · subst same
      rw [liveFor_self kept.ids there]
      simp
    · simp [same]
  apply kept.moved
  · exact distinctIds_modify kept.ids changed keeps
  · intro o id memory after
    exact .inl ((live o id memory).mp after)
  · intro o id memory before
    exact .inl ((live o id memory).mpr before)
  · intro o _ flying
    exact (moving_of_inFlight flights o).mpr flying

theorem Kept.given (there : w.handles.processes[p]? = some r) (minted : Bool)
    (mine : IsMemory e.object → w.memory.HeldBy e.object r.id) :
    { w with handles := w.handles.give p r.handles e minted }.Kept := by
  obtain ⟨ids,flights,more,few⟩ := give_effect kept.ids there e minted
  apply kept.moved ids
  · intro o id memory after
    rcases few id o after with before | ⟨rfl,rfl⟩
    · exact .inl before
    · exact .inr (mine memory)
  · intro o id _ before
    exact .inl (more id o before)
  · intro o _ flying
    exact (moving_of_inFlight flights o).mpr flying

theorem Kept.spawn (fresh : ∀ r ∈ w.handles.processes, r.id ≠ id) :
    { w with handles := w.handles.perform (.spawn id) }.Kept := by
  have live (o x : ObjectId) : (w.handles.perform (.spawn id)).LiveFor x o ↔ w.handles.LiveFor x o := by
    unfold HandleWorld.perform HandleWorld.LiveFor
    simp only [mem_append, mem_singleton, or_and_right, exists_or, exists_eq_left,
      not_holds_new, Bool.false_eq_true, and_false, or_false]
  apply kept.moved
  · intro p q r r' there there' same
    simp only [HandleWorld.perform, getElem?_append] at there there'
    split at there
    · split at there'
      · exact kept.ids p q r r' there there' same
      obtain ⟨_,made⟩ := List.getElem?_eq_some_iff.mp there'
      simp only [getElem_singleton] at made
      subst made
      exact absurd same (fresh r (mem_of_getElem? there))
    · split at there'
      · obtain ⟨_,made⟩ := List.getElem?_eq_some_iff.mp there
        simp only [getElem_singleton] at made
        subst made
        exact absurd same.symm (fresh r' (mem_of_getElem? there'))
      · obtain ⟨first,_⟩ := List.getElem?_eq_some_iff.mp there
        obtain ⟨second,_⟩ := List.getElem?_eq_some_iff.mp there'
        simp only [length_singleton] at first second
        omega
  · intro o x _ after
    exact .inl ((live o x).mp after)
  · intro o x _ before
    exact .inl ((live o x).mpr before)
  · intro _ _ flying
    exact flying

theorem Kept.send (careful : w.Careful (.movement (.send p correlation args transfer))) :
    { w with handles := w.handles.send p correlation args transfer }.Kept := by
  unfold HandleWorld.send
  split
  · exact kept
  rename_i r there
  have good : ∀ ds, args.descriptors = .ok ds → r.handles.Sendable (ds.take args.handleCount) := by
    intro ds given
    exact careful r there ds (by rw [given]; rfl)
  rcases buildMessageFromArgs_sendable good correlation transfer with ⟨_,failed⟩ | ⟨m,_,t,built,fewer,lost⟩
  · rw [failed]
    exact kept.renamed there rfl (fun _ => rfl) (fun _ _ => rfl) rfl
  rw [built]
  have live := liveFor_setHandles kept.ids there t
  apply kept.moved
  · exact distinctIds_modify kept.ids rfl fun _ => rfl
  · intro o id _ after
    rcases (live id o).mp after with ⟨rfl,holds⟩ | ⟨_,before⟩
    · exact .inl ((liveFor_self kept.ids there o).mpr (fewer o holds))
    · exact .inl before
  · intro o id _ before
    by_cases same : id = r.id
    · subst same
      rcases lost o ((liveFor_self kept.ids there o).mp before) with holds | ⟨h,mem,object,away⟩
      · exact .inl ((live r.id o).mpr (.inl ⟨rfl,holds⟩))
      · exact .inr ⟨m,mem_append_right _ mem_cons_self,h,mem,object,away⟩
    · exact .inl ((live id o).mpr (.inr ⟨same,before⟩))
  · rintro _ _ ⟨m',mem,rest⟩
    exact ⟨m',mem_append_left _ mem,rest⟩

theorem Kept.lose (careful : w.Careful (.movement (.lose k))) :
    { w with handles := w.handles.perform (.lose k) }.Kept := by
  apply kept.moved
  · exact kept.ids
  · intro _ _ _ after
    exact .inl after
  · intro _ _ _ before
    exact .inl before
  · intro _ memory flying
    refine moving_eraseIdx rfl flying fun m there h inside object => ?_
    exact careful m there h inside (object ▸ memory)

theorem Kept.processGrant (careful : w.Careful (.movement (.processGrant p process src rights))) :
    { w with handles := w.handles.processGrant p process src rights }.Kept := by
  unfold HandleWorld.processGrant
  split
  · exact kept
  rename_i r there
  have grantable := careful r there
  unfold Grantable at grantable
  split
  · rename_i target _ _ _ looked looked'
    simp only [looked, looked'] at grantable
    split
    · exact kept
    split
    · exact kept
    split
    · exact kept
    split
    · exact kept
    split
    · exact kept
    rename_i named
    split
    · exact kept
    rename_i child here
    split
    · have same : child.id = target := by
        obtain ⟨inside,matching,_⟩ := findIdx?_eq_some_iff_getElem.mp named
        rw [getElem?_eq_getElem inside] at here
        cases here
        simp only [Bool.and_eq_true, beq_iff_eq] at matching
        exact matching.2
      refine kept.given here false fun memory => ?_
      rw [same]
      exact heldBy_iff.mp (grantable memory)
    · exact kept
  · exact kept

theorem Kept.receive (positive : 0 < cfg.maxHolders)
    (careful : w.Careful (.movement (.receive p k))) : (w.receive p k).Kept := by
  unfold HolderWorld.receive
  split
  · rename_i r m there here
    obtain ⟨room,ready⟩ := careful r there m here
    have adoptable : ∀ h ∈ m.handles.items, w.memory.Adoptable r.id h := by
      intro h mem
      by_cases memory : IsMemory h.object
      · exact (ready h mem memory).2.1
      · intro e found
        exact absurd (kept.attended.present found).1 memory
    obtain ⟨attended,holders⟩ := adoptTransferredMemory_effect kept.attended positive adoptable
    cases installed : r.handles.installTransferredHandles m.handles.items with
    | mk reports t =>
      have tables : w.handles.receive p k =
          { (w.handles.setHandles p t).bear p (arrived m.handles.items reports) false with
            inFlight := w.handles.inFlight.eraseIdx k } := by
        unfold HandleWorld.receive
        simp [there, here, installed]
      have live : ∀ id o, (w.handles.receive p k).LiveFor id o ↔
          w.handles.LiveFor id o ∨ id = r.id ∧ ∃ h ∈ m.handles.items, h.object = o := by
        rw [tables]
        exact liveFor_grown kept.ids there (holds_installTransferredHandles room installed)
      refine ⟨attended,?_,?_,?_⟩
      · rw [tables]
        exact distinctIds_modify kept.ids rfl fun _ => rfl
      · intro o id memory after
        rw [holders]
        rcases (live id o).mp after with before | ⟨rfl,h,mem,rfl⟩
        · have held := kept.held o id memory before
          by_cases named : id = r.id ∧ ∃ h ∈ m.handles.items, h.object = o
          · obtain ⟨e,found,_⟩ := held
            exact .inr ⟨named.1,⟨e,found⟩,named.2⟩
          refine .inl ⟨held,fun h mem object => ?_⟩
          by_contra moved
          obtain ⟨r',inside,mine,holds⟩ := before
          subst object
          have only := (ready h mem memory).2.2 (Bool.not_eq_true _ ▸ moved) r' inside holds
          exact named ⟨mine.symm.trans only,h,mem,rfl⟩
        · exact .inr ⟨rfl,isSome_iff_exists.mp (ready h mem memory).1,h,mem,rfl⟩
      · intro o id after
        rcases (holders o id).mp after with ⟨held,shared⟩ | ⟨rfl,_,named⟩
        · rcases kept.backed o id held with before | flying
          · exact .inl ((live id o).mpr (.inl before))
          · right
            refine moving_eraseIdx (k := k) (by dsimp only; rw [tables]) flying fun _ there' h mem object => ?_
            rw [here] at there'
            cases there'
            exact shared h mem object
        · exact .inl ((live r.id o).mpr (.inr ⟨rfl,named⟩))
  · exact kept

theorem Kept.setState (p : Nat) (state : ProcessState) :
    { w with handles := w.handles.perform (.setState p state) }.Kept := by
  cases there : w.handles.processes[p]? with
  | none =>
    have same : w.handles.perform (.setState p state) = w.handles := by
      have outside := List.getElem?_eq_none_iff.mp there
      simp [HandleWorld.perform, modify_eq_self outside]
    rw [same]
    exact kept
  | some => exact kept.renamed there rfl (fun _ => rfl) (fun _ _ => rfl) rfl

theorem Kept.mint (p : Nat) (other : ¬ IsMemory e.object) : { w with handles := w.handles.mint p e }.Kept := by
  unfold HandleWorld.mint
  split
  · exact kept
  · rename_i there
    exact kept.given there true fun memory => absurd memory other

theorem Kept.handleDuplicate (p rawHandle : Nat) (requested : Rights) :
    { w with handles := w.handles.handleDuplicate p rawHandle requested }.Kept := by
  unfold HandleWorld.handleDuplicate
  split
  · exact kept
  rename_i r there
  split
  · exact kept
  rename_i object _ looked
  split
  · refine kept.given there false fun memory => kept.held object r.id memory ?_
    rw [liveFor_self kept.ids there]
    exact holds_of_lookup looked
  · exact kept

theorem Kept.replaceRights (p : Nat) (h : Handle) (newRights : Rights) :
    { w with handles := w.handles.replaceRights p h newRights }.Kept := by
  unfold HandleWorld.replaceRights
  split
  · exact kept
  rename_i r there
  split
  · rename_i replaced
    refine kept.renamed there rfl (fun _ => rfl) (fun o _ => ?_) rfl
    have same := holds_replaceRights r.handles h newRights o
    rw [replaced] at same
    exact same
  · exact kept

end

section Steps
variable [FrameSource σ] {w w' w₀ : HolderWorld cfg σ} {object : ObjectId}

section
variable (kept : w.Kept)
include kept

theorem Kept.exit (p : Nat) (code : Int) : (w.exit p code).Kept := by
  unfold HolderWorld.exit
  split
  · exact kept
  rename_i r there
  obtain ⟨attended,holders⟩ := releaseMemoryOf_effect kept.attended r.id w.alloc
  have live (id o : ObjectId) : (w.handles.perform (.exit p code)).LiveFor id o ↔
      id ≠ r.id ∧ w.handles.LiveFor id o := by
    have gone : (w.handles.perform (.exit p code)).LiveFor id o ↔ _ := liveFor_modify
      (f := fun r => { r with state := .exited code, handles := .new, present := false })
      kept.ids there rfl (fun _ => rfl) id o
    simpa [not_holds_new] using gone
  refine ⟨attended,?_,?_,?_⟩
  · exact distinctIds_modify kept.ids rfl fun _ => rfl
  · intro o id memory after
    obtain ⟨other,before⟩ := (live id o).mp after
    exact (holders o id).mpr ⟨kept.held o id memory before,other⟩
  intro o id after
  obtain ⟨held,other⟩ := (holders o id).mp after
  rcases kept.backed o id held with before | flying
  · exact .inl ((live id o).mpr ⟨other,before⟩)
  · exact .inr flying

theorem Kept.closed (there : w.handles.processes[p]? = some r)
    (others : ∀ o, o ≠ object → t.holds o = r.handles.holds o) (last : t.holds object = false)
    (handles : w'.handles = w.handles.setHandles p t)
    (memory : w'.memory = (w.memory.letGo object r.id w.alloc).1) : w'.Kept := by
  obtain ⟨attended,holders⟩ := letGo_effect kept.attended object r.id w.alloc
  have live := liveFor_setHandles kept.ids there t
  refine ⟨by rw [memory]; exact attended,?_,?_,?_⟩
  · rw [handles]
    exact distinctIds_modify kept.ids rfl fun _ => rfl
  · intro o id isMemory after
    rw [handles, live] at after
    rw [memory, holders]
    rcases after with ⟨rfl,holds⟩ | ⟨other,before⟩
    · have apart : o ≠ object := by
        rintro rfl
        rw [last] at holds
        cases holds
      rw [others o apart] at holds
      exact ⟨kept.held o r.id isMemory ((liveFor_self kept.ids there o).mpr holds),fun gone => apart gone.1⟩
    · exact ⟨kept.held o id isMemory before,fun gone => other gone.2⟩
  · intro o id after
    rw [memory, holders] at after
    rw [handles, live]
    rcases kept.backed o id after.1 with before | flying
    · by_cases same : id = r.id
      · subst same
        have apart : o ≠ object := fun gone => after.2 ⟨gone,rfl⟩
        refine .inl (.inl ⟨rfl,?_⟩)
        rw [others o apart]
        exact (liveFor_self kept.ids there o).mp before
      · exact .inl (.inr ⟨same,before⟩)
    · exact .inr flying

theorem Kept.handleClose (p : Nat) (h : Handle) : (w.handleClose p h).2.Kept := by
  unfold HolderWorld.handleClose
  split
  · exact kept
  rename_i r there
  split
  · exact kept
  rename_i object _ dropped
  obtain ⟨had,others⟩ := dropHandle_ok dropped
  split
  · rename_i still
    refine kept.renamed there rfl (fun _ => rfl) (fun o _ => ?_) rfl
    by_cases same : o = object
    · subst same
      exact still.trans had.symm
    · exact others o same
  rename_i last
  rw [Bool.not_eq_true] at last
  split
  · split
    · rename_i removed
      refine kept.closed there others last rfl ?_
      rw [letGo, removed]
    rename_i memory removed
    refine kept.closed there others last rfl ?_
    rw [letGo, removed]
    rfl
  · rename_i stranger
    refine kept.renamed there rfl (fun _ => rfl) (fun o memory => ?_) rfl
    refine others o ?_
    rintro rfl
    apply stranger
    rw [heldBy_iff]
    exact kept.held o r.id memory ((liveFor_self kept.ids there o).mpr had)

theorem Kept.dropped (handles : w₀.handles = w.handles) (attended : w₀.memory.Attended)
    (fresh : ∀ id, ¬ w.memory.HeldBy object id)
    (holders : ∀ o id, w₀.memory.HeldBy o id ↔ w.memory.HeldBy o id ∨ o = object ∧ id = owner) :
    (w₀.memoryDestroy object).2.Kept := by
  obtain ⟨_,found,_⟩ := (holders object owner).mpr (.inr ⟨rfl,rfl⟩)
  obtain ⟨attended',gone⟩ := destroy_effect attended found w₀.alloc
  apply kept.refusedCreate (show (w₀.memoryDestroy object).2.handles = _ from handles) attended'
  · intro _ id
    rw [show (w₀.memoryDestroy object).2.memory = (w₀.memory.destroy object w₀.alloc).2.1 from rfl, gone, holders]
    constructor
    · rintro ⟨held | ⟨same,_⟩,other⟩
      · exact held
      · exact absurd same other
    intro held
    refine ⟨.inl held,?_⟩
    rintro rfl
    exact fresh id held

theorem Kept.installCreated (handles : w₀.handles = w.handles)
    (there : w.handles.processes[p]? = some r) (attended : w₀.memory.Attended)
    (fresh : ∀ id, ¬ w.memory.HeldBy object id)
    (holders : ∀ o id, w₀.memory.HeldBy o id ↔ w.memory.HeldBy o id ∨ o = object ∧ id = r.id)
    (rights : Rights) : (w₀.installCreated p r.handles object rights).2.Kept := by
  unfold HolderWorld.installCreated
  split
  · rename_i installed
    have live := liveFor_grown kept.ids there (holds_install_ok installed)
    rw [handles]
    refine ⟨attended,?_,?_,?_⟩
    · exact distinctIds_modify kept.ids rfl fun _ => rfl
    · intro o id memory after
      rw [holders]
      rcases (live id o).mp after with before | ⟨mine,new⟩
      · exact .inl (kept.held o id memory before)
      · exact .inr ⟨new,mine⟩
    · intro o id after
      rcases (holders o id).mp after with held | ⟨rfl,rfl⟩
      · rcases kept.backed o id held with before | flying
        · exact .inl ((live id o).mpr (.inl before))
        · exact .inr flying
      · exact .inl ((live r.id o).mpr (.inr ⟨rfl,rfl⟩))
  · exact kept.dropped handles attended fresh holders

section
variable (positive : 0 < cfg.maxHolders)
include positive

theorem Kept.memoryCreate (p bytes : Nat) (placement : Placement) : (w.memoryCreate p bytes placement).2.Kept := by
  unfold HolderWorld.memoryCreate
  split
  · exact kept
  rename_i r there
  split
  · exact kept
  split
  · exact kept
  have creates := creates_create kept.attended.sound r.id (pagesFor bytes) placement w.alloc
  obtain ⟨attended,refused,made⟩ := creates.effect kept.attended positive
  split
  · rename_i e _ _ created
    rw [created] at attended refused
    exact kept.refusedCreate rfl attended (refused e rfl)
  rename_i object _ _ created
  rw [created] at attended made
  obtain ⟨fresh,_,holders⟩ := made object rfl
  apply kept.installCreated
  · rfl
  · exact there
  · exact attended
  · exact fresh
  · exact holders

theorem Kept.memoryCreatePaged (p bytes pager : Nat) : (w.memoryCreatePaged p bytes pager).2.Kept := by
  unfold HolderWorld.memoryCreatePaged
  split
  · exact kept
  rename_i r there
  split
  · exact kept
  split
  · exact kept
  rename_i server _ _
  split
  · exact kept
  have creates := creates_createPaged kept.attended.sound r.id (pagesFor bytes) server
  obtain ⟨attended,refused,made⟩ := creates.effect kept.attended positive
  split
  · rename_i e _ created
    rw [created] at attended refused
    exact kept.refusedCreate rfl attended (refused e rfl)
  rename_i object _ created
  rw [created] at attended made
  obtain ⟨fresh,_,holders⟩ := made object rfl
  split
  · apply kept.dropped
    · rfl
    · exact attended
    · exact fresh
    · exact holders
  apply kept.installCreated
  · rfl
  · exact there
  · exact attended
  · exact fresh
  · exact holders

theorem Kept.step (careful : w.Careful a) (step : Step w a w') : w'.Kept := by
  unfold Step perform at step
  split at step
  · cases step
    cases a with
    | memoryCreate p bytes placement => exact kept.memoryCreate positive p bytes placement
    | memoryCreatePaged p bytes pager => exact kept.memoryCreatePaged positive p bytes pager
    | movement a =>
      cases a with
      | spawn => exact kept.spawn careful
      | setState p state => exact kept.setState p state
      | exit p code => exact kept.exit p code
      | mint p => exact kept.mint p careful
      | handleDuplicate p rawHandle requested => exact kept.handleDuplicate p rawHandle requested
      | replaceRights p h newRights => exact kept.replaceRights p h newRights
      | send => exact kept.send careful
      | receive => exact kept.receive positive careful
      | lose => exact kept.lose careful
      | processGrant => exact kept.processGrant careful
      | handleClose p h => exact kept.handleClose p h
  · cases step

end

end

/-- In every run of careful steps the memory table follows the handles. -/
theorem memory_follows_handles (positive : 0 < cfg.maxHolders) {alloc : σ} {history : List HolderAction}
    {w : HolderWorld cfg σ} (run : Disciplined (fun _ => Careful) Step (initial alloc) history w) :
    w.LifeFollowsHandles := by
  have kept : w.Kept := by
    refine run.invariant (fun _ w => w.Kept) ?_ (kept_initial alloc)
    intro _ _ _ _ kept careful step
    exact kept.step positive careful step
  exact kept.follows

end Steps

def booted : HolderWorld .default (BumpFrameAllocator .default) := initial (.new [⟨0, 4096 * 8, .usable⟩])

def oneHandle (handle : Nat) (rights : Rights) (shared : Bool) : ChannelMsgRequest :=
  ⟨1, 1, 0, .ok [], 1, .ok [.ok ⟨handle, rights, shared⟩]⟩

def onePage (p : Nat) : HolderAction := .memoryCreate p 4096 .default

def sharedAndClosed : List HolderAction :=
  [.movement (.spawn ⟨1⟩), .movement (.spawn ⟨2⟩), onePage 0,
    .movement (.send 0 0 (oneHandle 0 .read true) true), .movement (.receive 1 0),
    .movement (.handleClose 0 ⟨0⟩), .movement (.exit 1 0)]

theorem shared_object_goes_with_its_last_holder : 0 < Config.default.maxHolders ∧
    ∃ w : HolderWorld .default (BumpFrameAllocator .default),
      Disciplined (fun _ => Careful) Step booted sharedAndClosed w ∧
      w.LifeFollowsHandles ∧ w.memory.find ⟨0x1000⟩ = none := by
  obtain ⟨w,run,gone⟩ : ∃ w, Disciplined (fun _ => Careful) Step booted sharedAndClosed w ∧ w.memory.find ⟨0x1000⟩ = none :=
    Disciplined.reaches (by decide +kernel)
  exact ⟨by decide,w,run,memory_follows_handles (by decide) run,gone⟩

/-- A parent grants a memory object to a child that has not started and closes its own handle. -/
def grantedAndClosed : List HolderAction :=
  [.movement (.spawn ⟨1⟩), .movement (.spawn ⟨2⟩), .movement (.mint 0 ⟨⟨2⟩, .map⟩), onePage 0,
    .movement (.processGrant 0 ⟨0⟩ ⟨1⟩ .read), .movement (.handleClose 0 ⟨1⟩)]

def sharedTooOften : List HolderAction :=
  [.movement (.spawn ⟨1⟩), .movement (.spawn ⟨2⟩), .movement (.spawn ⟨3⟩), .movement (.spawn ⟨4⟩),
    .movement (.spawn ⟨5⟩), onePage 0] ++
    [1, 2, 3, 4].flatMap fun p => [.movement (.send 0 0 (oneHandle 0 .read true) true), .movement (.receive p 0)]

def movedDuplicate : List HolderAction :=
  [.movement (.spawn ⟨1⟩), .movement (.spawn ⟨2⟩), onePage 0, .movement (.handleDuplicate 0 0 .read),
    .movement (.send 0 0 (oneHandle 0 .read false) true), .movement (.receive 1 0)]

def sentAndExited : List HolderAction :=
  [.movement (.spawn ⟨1⟩), .movement (.spawn ⟨2⟩), onePage 0,
    .movement (.send 0 0 (oneHandle 0 .read false) true), .movement (.exit 0 0), .movement (.receive 1 0)]

/-- In each of these runs a process ends with a live handle to a memory object that
    does not list it; after the first and the last the object is gone. -/
theorem live_handles_outlast_their_object : (∃ w : HolderWorld .default (BumpFrameAllocator .default),
      Run Step booted grantedAndClosed w ∧ w.handles.LiveFor ⟨2⟩ ⟨0x1000⟩ ∧ w.memory.find ⟨0x1000⟩ = none) ∧
    (∃ w : HolderWorld .default (BumpFrameAllocator .default), Run Step booted sharedTooOften w ∧
      w.handles.LiveFor ⟨5⟩ ⟨0x1000⟩ ∧ ¬ w.memory.HeldBy ⟨0x1000⟩ ⟨5⟩) ∧
    (∃ w : HolderWorld .default (BumpFrameAllocator .default), Run Step booted movedDuplicate w ∧
      w.handles.LiveFor ⟨1⟩ ⟨0x1000⟩ ∧ ¬ w.memory.HeldBy ⟨0x1000⟩ ⟨1⟩) ∧
    ∃ w : HolderWorld .default (BumpFrameAllocator .default), Run Step booted sentAndExited w ∧
      w.handles.LiveFor ⟨2⟩ ⟨0x1000⟩ ∧ w.memory.find ⟨0x1000⟩ = none :=
  ⟨Disciplined.reaches (by decide +kernel), Disciplined.reaches (by decide +kernel),
    Disciplined.reaches (by decide +kernel), Disciplined.reaches (by decide +kernel)⟩

end HolderWorld
end Tessera
