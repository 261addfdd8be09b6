import Tessera.Lib.Generations
import Tessera.Lib.Transition
import Tessera.Process.HandleTable

/-!
Old names of reused slots. The object table counts references to its objects and, as the
handle table does, moves the generation of a slot on when it empties it. The generation
has sixteen bits and comes round: until then no handle and no object id that has gone out
of use resolves again.
-/
namespace Tessera
open Function Generations Transition List Option HandleTable
variable {cap : Nat} {cfg : Config}

inductive ObjectType where
  | process | thread | addressSpace | job | channel | port | memory | device | test
  deriving DecidableEq

/-- An object is there as long as it has a reference. -/
structure ObjectEntry where
  objectType : ObjectType
  refcount : Nat
  counted : 0 < refcount

structure ObjectTable (cap : Nat) where
  slots : Slots ObjectEntry cap
  generations : Nat → Nat

namespace ObjectId

def new (index generation : Nat) : ObjectId := ⟨generation % 2 ^ 16 * 2 ^ 16 + index % 2 ^ 16⟩

def index (id : ObjectId) : Nat := id.raw % 2 ^ 16

def generation (id : ObjectId) : Nat := id.raw / 2 ^ 16 % 2 ^ 16

end ObjectId

namespace ObjectTable
variable (t : ObjectTable cap) (id : ObjectId)

def new : ObjectTable cap := ⟨.empty, fun _ => 0⟩

def create (objectType : ObjectType) : Except KError ObjectId × ObjectTable cap :=
  match t.slots.free? with
  | none => (.error .outOfMemory, t)
  | some index =>
    (.ok (.new index (t.generations index)), { t with slots := t.slots.put index ⟨objectType, 1, Nat.one_pos⟩ })

def entry : Option ObjectEntry :=
  if id.index < cap ∧ t.generations id.index = id.generation then t.slots.cell id.index else none

def retain : Except KError Unit × ObjectTable cap :=
  match t.entry id with
  | none => (.error .badHandle, t)
  | some e => (.ok (), { t with slots := t.slots.put id.index ⟨e.objectType, e.refcount + 1, Nat.succ_pos _⟩ })

def release : Except KError Bool × ObjectTable cap :=
  match t.entry id with
  | none => (.error .badHandle, t)
  | some e =>
    if last : e.refcount - 1 = 0 then
      (.ok true, { slots := t.slots.clear id.index
                   generations := update t.generations id.index ((t.generations id.index + 1) % 2 ^ 16) })
    else (.ok false, { t with slots := t.slots.put id.index ⟨e.objectType, e.refcount - 1, Nat.pos_of_ne_zero last⟩ })

def aged : Generations := ofSlots t.slots t.generations

theorem entry_isSome : (t.entry id).isSome = true ↔ t.aged.Good id.index id.generation := by
  unfold entry
  split
  · rename_i inside
    exact ⟨fun found => ⟨found,inside.2⟩,fun good => good.1⟩
  rename_i outside
  refine iff_of_false nofun fun good => outside ⟨?_,good.2⟩
  obtain ⟨_,here⟩ := isSome_iff_exists.mp good.1
  exact Slots.lt_of_cell here

theorem ages_retain : t.aged.Ages (t.retain id).2.aged := by
  unfold retain
  split
  · exact .refl _
  · exact ages_put _ _ _ _

theorem ages_release (more : (t.release id).1 = .ok true → t.generations id.index + 1 < 2 ^ 16) :
    t.aged.Ages (t.release id).2.aged := by
  unfold release at more ⊢
  split
  · exact .refl _
  rename_i found
  rw [found] at more
  split
  · rename_i last
    exact ages_clear _ _ (more (by simp [last]))
  · exact ages_put _ _ _ _

/-- A reference given back right after it was taken is not the last. -/
theorem ages_retain_release : t.aged.Ages (((t.retain id).2.release id).2).aged := by
  unfold retain
  split
  · rename_i absent
    unfold release
    rw [absent]
    exact .refl _
  rename_i e found
  have inside : id.index < cap ∧ t.generations id.index = id.generation := by
    by_contra outside
    rw [entry, if_neg outside] at found
    cases found
  unfold release
  rw [entry, if_pos inside, Slots.cell_put_self _ inside.1]
  dsimp only
  rw [dif_neg (show ¬e.refcount + 1 - 1 = 0 from Nat.pos_iff_ne_zero.mp e.counted)]
  exact (ages_put t.slots t.generations _ _).trans (ages_put _ _ _ _)

end ObjectTable

namespace HandleTable
variable (t : HandleTable cfg) (objects : ObjectTable cap) (h : Handle)

def duplicate (newRights : Rights) : Except KError Handle × HandleTable cfg × ObjectTable cap :=
  match t.lookup h with
  | .error e => (.error e, t, objects)
  | .ok (object, current) =>
    if !newRights.isSubsetOf current then (.error .accessDenied, t, objects)
    else
      match objects.retain object with
      | (.error e, objects) => (.error e, t, objects)
      | (.ok (), objects) =>
        match t.insert object newRights with
        | (.ok handle, t) => (.ok handle, t, objects)
        | (.error e, t) => (.error e, t, (objects.release object).2)

def close : Except KError Bool × HandleTable cfg × ObjectTable cap :=
  match t.entry h with
  | .error e => (.error e, t, objects)
  | .ok e =>
    match objects.release e.object with
    | (result, objects) => (result, t.vacate h.index, objects)

def aged : Generations := ofSlots t.slots t.generations

theorem entry_isOk : (t.entry h).isOk = true ↔ t.aged.Good h.index h.generation := by
  unfold entry
  split
  · rename_i inside
    split
    · rename_i here
      exact iff_of_true rfl ⟨isSome_of_eq_some here,inside.2⟩
    · rename_i empty
      refine iff_of_false nofun fun good => ?_
      cases empty.symm.trans (isSome_iff_exists.mp good.1).choose_spec
  · rename_i outside
    refine iff_of_false nofun fun good => outside ⟨?_,good.2⟩
    obtain ⟨_,here⟩ := isSome_iff_exists.mp good.1
    exact Slots.lt_of_cell here

variable {h} {newRights : Rights}

theorem ages_insert (obj : ObjectId) (rights : Rights) : t.aged.Ages (t.insert obj rights).2.aged := by
  unfold insert
  split
  · exact .refl _
  · exact ages_put _ _ _ _

theorem ages_replaceRights : t.aged.Ages (t.replaceRights h newRights).2.aged := by
  unfold replaceRights
  split
  · exact .refl _
  split
  · exact ages_put _ _ _ _
  · exact .refl _

theorem ages_takeNarrowed {narrowed : Rights}
    (more : (t.takeNarrowed h narrowed).1.isOk = true → t.generations h.index + 1 < 2 ^ 16) :
    t.aged.Ages (t.takeNarrowed h narrowed).2.aged := by
  rw [takeNarrowed_eq] at more ⊢
  split
  · rename_i taken
    exact ages_clear _ _ (more taken)
  · exact .refl _

theorem ages_vacateAll {indices : List Nat} (once : indices.Nodup)
    (more : ∀ i ∈ indices, t.generations i + 1 < 2 ^ 16) : t.aged.Ages (indices.foldl vacate t).aged := by
  induction indices generalizing t with
  | nil => exact .refl _
  | cons i rest ih =>
    rw [nodup_cons] at once
    refine (ages_clear t.slots t.generations (more i mem_cons_self)).trans (ih (t.vacate i) once.2 fun j later => ?_)
    rw [generations_vacate t (ne_of_mem_of_not_mem later once.1)]
    exact more j (mem_cons_of_mem _ later)

theorem ages_reclaim {wanted : List ObjectId} {room : Nat}
    (more : ∀ i ∈ (t.slotsNaming wanted).take room, t.generations i + 1 < 2 ^ 16) :
    t.aged.Ages (t.reclaim wanted room).2.aged := by
  rw [reclaim_eq]
  exact ages_vacateAll t ((t.slotsNaming_nodup wanted).sublist (take_sublist ..)) more

theorem ages_duplicate : t.aged.Ages (t.duplicate objects h newRights).2.1.aged ∧
    objects.aged.Ages (t.duplicate objects h newRights).2.2.aged := by
  unfold duplicate
  split
  · exact ⟨.refl _,.refl _⟩
  rename_i obj _ _
  split
  · exact ⟨.refl _,.refl _⟩
  have retained := objects.ages_retain obj
  have undone := objects.ages_retain_release obj
  split
  · rename_i done
    rw [done] at retained
    exact ⟨.refl _,retained⟩
  rename_i done
  rw [done] at retained undone
  have inserted := t.ages_insert obj newRights
  split
  · rename_i put
    rw [put] at inserted
    exact ⟨inserted,retained⟩
  · rename_i put
    rw [put] at inserted
    exact ⟨inserted,undone⟩

end HandleTable

structure TableWorld (cfg : Config) (cap : Nat) where
  handles : HandleTable cfg
  objects : ObjectTable cap

inductive TableAction where
  | create (objectType : ObjectType)
  | retain (id : ObjectId)
  | release (id : ObjectId)
  | insert (object : ObjectId) (rights : Rights)
  | install (object : ObjectId) (rights : Rights)
  | duplicate (h : Handle) (newRights : Rights)
  | replaceRights (h : Handle) (newRights : Rights)
  | take (h : Handle)
  | takeNarrowed (h : Handle) (narrowed : Rights)
  | dropHandle (h : Handle)
  | close (h : Handle)
  | reclaim (wanted : List ObjectId) (room : Nat)

namespace TableWorld

def boot : TableWorld cfg cap := ⟨.new, .new⟩

def act (w : TableWorld cfg cap) : TableAction → TableWorld cfg cap
  | .create objectType => { w with objects := (w.objects.create objectType).2 }
  | .retain id => { w with objects := (w.objects.retain id).2 }
  | .release id => { w with objects := (w.objects.release id).2 }
  | .insert object rights => { w with handles := (w.handles.insert object rights).2 }
  | .install object rights => { w with handles := (w.handles.install object rights).2 }
  | .duplicate h newRights =>
    match w.handles.duplicate w.objects h newRights with
    | (_, handles, objects) => ⟨handles, objects⟩
  | .replaceRights h newRights => { w with handles := (w.handles.replaceRights h newRights).2 }
  | .take h => { w with handles := (w.handles.take h).2 }
  | .takeNarrowed h narrowed => { w with handles := (w.handles.takeNarrowed h narrowed).2 }
  | .dropHandle h => { w with handles := (w.handles.dropHandle h).2 }
  | .close h =>
    match w.handles.close w.objects h with
    | (_, handles, objects) => ⟨handles, objects⟩
  | .reclaim wanted room => { w with handles := (w.handles.reclaim wanted room).2 }

def Step (w : TableWorld cfg cap) (a : TableAction) (w' : TableWorld cfg cap) : Prop := w.act a = w'

/-- Nothing is taken out of a slot whose generation is the last one. -/
def Unspent (w : TableWorld cfg cap) : TableAction → Prop
  | .release id => (w.objects.release id).1 = .ok true → w.objects.generations id.index + 1 < 2 ^ 16
  | .take h => (w.handles.take h).1.isOk = true → w.handles.generations h.index + 1 < 2 ^ 16
  | .takeNarrowed h narrowed =>
    (w.handles.takeNarrowed h narrowed).1.isOk = true → w.handles.generations h.index + 1 < 2 ^ 16
  | .dropHandle h => (w.handles.entry h).isOk = true → w.handles.generations h.index + 1 < 2 ^ 16
  | .close h => ∀ e, w.handles.entry h = .ok e → w.handles.generations h.index + 1 < 2 ^ 16 ∧
      ((w.objects.release e.object).1 = .ok true → w.objects.generations e.object.index + 1 < 2 ^ 16)
  | .reclaim wanted room => ∀ i ∈ (w.handles.slotsNaming wanted).take room, w.handles.generations i + 1 < 2 ^ 16
  | _ => True

theorem ages_step {w w' : TableWorld cfg cap} (unspent : w.Unspent a) (step : w.Step a w') :
    w.handles.aged.Ages w'.handles.aged ∧ w.objects.aged.Ages w'.objects.aged := by
  subst step
  cases a with
  | create =>
    refine ⟨.refl _,?_⟩
    unfold act ObjectTable.create
    dsimp only
    split
    · exact .refl _
    · exact ages_put _ _ _ _
  | retain id => exact ⟨.refl _,w.objects.ages_retain id⟩
  | release id => exact ⟨.refl _,w.objects.ages_release id unspent⟩
  | insert obj rights | install obj rights => exact ⟨w.handles.ages_insert obj rights,.refl _⟩
  | duplicate => exact w.handles.ages_duplicate w.objects
  | replaceRights => exact ⟨w.handles.ages_replaceRights,.refl _⟩
  | takeNarrowed => exact ⟨w.handles.ages_takeNarrowed unspent,.refl _⟩
  | take =>
    refine ⟨?_,.refl _⟩
    simp only [Unspent, HandleTable.take] at unspent
    unfold act HandleTable.take
    dsimp only
    split
    · exact .refl _
    · rename_i found
      rw [found] at unspent
      exact w.handles.ages_takeNarrowed unspent
  | dropHandle =>
    refine ⟨?_,.refl _⟩
    unfold act dropHandle
    dsimp only
    split
    · exact .refl _
    · rename_i found
      exact ages_clear _ _ (unspent (by rw [found]; rfl))
  | close =>
    unfold act close
    dsimp only
    split
    · exact ⟨.refl _,.refl _⟩
    · rename_i e found
      obtain ⟨handle,object⟩ := unspent e found
      exact ⟨ages_clear _ _ handle,w.objects.ages_release _ object⟩
  | reclaim => exact ⟨w.handles.ages_reclaim unspent,.refl _⟩

theorem ages_run (run : Disciplined (fun _ => Unspent) Step w history w') :
    w.handles.aged.Ages w'.handles.aged ∧ w.objects.aged.Ages w'.objects.aged := by
  refine run.invariant (fun _ u => w.handles.aged.Ages u.handles.aged ∧ w.objects.aged.Ages u.objects.aged) ?_
    ⟨.refl _,.refl _⟩
  rintro _ _ _ _ ⟨handles,objects⟩ unspent step
  obtain ⟨handles',objects'⟩ := ages_step unspent step
  exact ⟨handles.trans handles',objects.trans objects'⟩

/-- Whatever runs on two tables without taking anything out of a slot in its last
    generation: a handle or an object id that resolved and then does not never will. -/
theorem closed_names_stay_stale {w closed later : TableWorld cfg cap} {before after : List TableAction}
    (first : Disciplined (fun _ => Unspent) Step w before closed)
    (second : Disciplined (fun _ => Unspent) Step closed after later) :
    (∀ h, (w.handles.entry h).isOk = true → (closed.handles.entry h).isOk = false →
      (later.handles.entry h).isOk = false) ∧
    ∀ id, (w.objects.entry id).isSome = true → (closed.objects.entry id).isSome = false →
      (later.objects.entry id).isSome = false := by
  simp only [← Bool.not_eq_true, entry_isOk, ObjectTable.entry_isSome]
  exact ⟨fun _ => (ages_run first).1.stays_bad (ages_run second).1,
    fun _ => (ages_run first).2.stays_bad (ages_run second).2⟩

/-- Both first slots are empty and have been emptied so many times. -/
def spent (k : Nat) : TableWorld .minimal 1 :=
  ⟨⟨.empty, update (fun _ => 0) 0 (k % 2 ^ 16)⟩, ⟨.empty, update (fun _ => 0) 0 (k % 2 ^ 16)⟩⟩

/-- An object with one handle, in those slots. -/
def inUse (k : Nat) : TableWorld .minimal 1 :=
  ((spent k).act (.create .test)).act (.insert (.new 0 k) .transfer)

theorem inUse_close (k : Nat) : (inUse k).act (.close (.new 0 k)) = spent (k + 1) := by
  have index : (Handle.new 0 k).index = 0 ∧ (Handle.new 0 k).generation = k % 2 ^ 16 := by
    simp only [Handle.new, Handle.index, Handle.generation]
    omega
  have obj : (ObjectId.new 0 k).index = 0 ∧ (ObjectId.new 0 k).generation = k % 2 ^ 16 := by
    simp only [ObjectId.new, ObjectId.index, ObjectId.generation]
    omega
  have named : (inUse k).handles.entry (.new 0 k) = .ok ⟨.new 0 k, .transfer⟩ := by
    rw [HandleTable.entry, index.1, index.2, if_pos ⟨by decide,rfl⟩]
    rfl
  have live : (inUse k).objects.entry (.new 0 k) = some ⟨.test, 1, Nat.one_pos⟩ := by
    rw [ObjectTable.entry, obj.1, obj.2, if_pos ⟨by decide,rfl⟩]
    rfl
  have onward (f : Nat → Nat) : update (update f 0 (k % 2 ^ 16)) 0 ((k % 2 ^ 16 + 1) % 2 ^ 16) =
      update f 0 ((k + 1) % 2 ^ 16) := by
    rw [update_idem, Nat.mod_add_mod]
  have emptied : ((inUse k).objects.release (.new 0 k)).2 = (spent (k + 1)).objects := by
    unfold ObjectTable.release spent
    rw [live, obj.1, ← onward]
    rfl
  unfold act HandleTable.close
  dsimp only
  rw [named]
  rw [emptied, index.1]
  unfold spent
  rw [← onward]
  rfl

theorem reused_slots_have_new_names :
    ((inUse 1).handles.entry (.new 0 0)).isOk = false ∧ ((inUse 1).objects.entry (.new 0 0)).isSome = false := by
  have unspent : (inUse 0).Unspent (.close (.new 0 0)) := by
    intro e found
    rw [show (inUse 0).handles.entry (.new 0 0) = .ok ⟨.new 0 0, .transfer⟩ from rfl, Except.ok.injEq] at found
    rw [← found]
    exact ⟨by decide,fun _ => by decide⟩
  have first : Disciplined (fun _ => Unspent) Step (inUse 0) _ (spent 1) := .more .start unspent (inUse_close 0)
  have second : Disciplined (fun _ => Unspent) Step (spent 1) [.create .test, .insert (.new 0 1) .transfer] (inUse 1) :=
    .more (.more .start trivial rfl) trivial rfl
  obtain ⟨handles,objects⟩ := closed_names_stay_stale first second
  exact ⟨handles _ (by decide) (by decide),objects _ (by decide) (by decide)⟩

theorem run_spent (run : Run Step w history (spent k)) (n : Nat) : ∃ more, Run Step w more (spent (k + n)) := by
  induction n with
  | zero => exact ⟨history,run⟩
  | succ n ih =>
    obtain ⟨_,run⟩ := ih
    have used : Run Step w _ (inUse (k + n)) := (run.more rfl).more rfl
    exact ⟨_,used.more (inUse_close (k + n))⟩

/-- The handle and the id of an object that is closed are good again when both slots have
    been emptied `2 ^ 16` times. -/
theorem closed_names_come_back : ∃ reused history,
    Run Step boot [.create .test, .insert (.new 0 0) .transfer] (inUse 0) ∧
    Run Step (inUse 0) [.close (.new 0 0)] (spent 1) ∧ Run Step (spent 1) history reused ∧
    ((spent 1).handles.entry (.new 0 0)).isOk = false ∧ ((spent 1).objects.entry (.new 0 0)).isSome = false ∧
    (reused.handles.entry (.new 0 0)).isOk = true ∧ (reused.objects.entry (.new 0 0)).isSome = true := by
  obtain ⟨more,run⟩ : ∃ more, Run Step (spent 1) more (spent (2 ^ 16)) := run_spent (Run.start _) (2 ^ 16 - 1)
  have begun : boot = spent 0 := by
    unfold boot spent HandleTable.new ObjectTable.new
    rw [update_eq_self_iff.mpr (by decide)]
  refine ⟨inUse (2 ^ 16),_,?_,(Run.start _).more (inUse_close 0),(run.more rfl).more rfl,?_⟩
  · rw [begun]
    exact ((Run.start _).more rfl).more rfl
  · decide

end TableWorld
end Tessera
