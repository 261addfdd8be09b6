import Tessera.Kernel.DmaCalls
import Tessera.Memory.MemoryRecords

/-!
What the calls do to the memory objects, the pager bindings and the budget of the
page cache. Most of them leave all three alone. Those that let go of an object or
stop a device change in a record only who holds it and which device reaches it, and
no device is added. Taking an object down is the one thing that removes a record.
-/
namespace Tessera
open MemoryTable
variable {cfg : Config} {σ : Type}

namespace MemoryTable

/-- The record is the same except for its holders and the device that reaches it, and
    the device is the same one or none. -/
structure Eased (e e' : MemoryObject cfg) : Prop where
  object : e'.object = e.object
  base : e'.base = e.base
  pages : e'.pages = e.pages
  memoryClass : e'.memoryClass = e.memoryClass
  pager : e'.pager = e.pager
  cache : e'.cache = e.cache
  attached : e'.attached = e.attached ∨ e'.attached = none

theorem Eased.refl (e : MemoryObject cfg) : Eased e e := ⟨rfl,rfl,rfl,rfl,rfl,rfl,Or.inl rfl⟩

theorem Eased.trans (first : Eased e f) (second : Eased f g) : Eased e g where
  object := second.object.trans first.object
  base := second.base.trans first.base
  pages := second.pages.trans first.pages
  memoryClass := second.memoryClass.trans first.memoryClass
  pager := second.pager.trans first.pager
  cache := second.cache.trans first.cache
  attached := by
    rcases second.attached with same | gone
    · rw [same]
      exact first.attached
    · exact .inr gone

structure Eases (t t' : MemoryTable cfg) : Prop where
  slots : t'.slots = t.slots
  taken : t'.taken = t.taken
  nextId : t'.nextId = t.nextId
  cells : ∀ i, Option.Rel Eased (t.objects.cell i) (t'.objects.cell i)

theorem Eases.refl (t : MemoryTable cfg) : Eases t t := ⟨rfl,rfl,rfl,fun _ => Slots.rel_refl Eased.refl _⟩

variable {f : MemoryObject cfg → MemoryObject cfg} {t t' : MemoryTable cfg} {object o : ObjectId}

theorem Eases.trans (first : Eases t u) (second : Eases u v) : Eases t v := by
  refine ⟨second.slots.trans first.slots,second.taken.trans first.taken,second.nextId.trans first.nextId,fun i => ?_⟩
  exact Slots.rel_trans Eased.trans (first.cells i) (second.cells i)

theorem Eases.update (t : MemoryTable cfg) (o : ObjectId) (keeps : ∀ e, Eased e (f e)) : Eases t (t.update o f) := by
  refine ⟨rfl,rfl,rfl,fun i => ?_⟩
  rw [MemoryTable.update, Slots.cell_modify]
  split
  · cases t.objects.cell i with
    | none => exact .none
    | some e => exact .some (keeps e)
  · exact Slots.rel_refl Eased.refl _

theorem Eases.before (eases : Eases t t') (here : t'.objects.cell i = some e') :
    ∃ e, t.objects.cell i = some e ∧ Eased e e' := by
  have rel := eases.cells i
  rw [here] at rel
  generalize t.objects.cell i = c at rel
  cases rel with
  | some eased => exact ⟨_,rfl,eased⟩

theorem Eases.sound (eases : Eases t t') (sound : t.Sound) : t'.Sound := by
  refine sound.of_records ?_ eases.nextId eases.taken
  intro i _ here
  obtain ⟨_,cell,eased⟩ := eases.before here
  exact ⟨_,cell,eased.object.symm,eased.base.symm,eased.pages.symm⟩

theorem Eases.find (eases : Eases t t') (sound : t.Sound) (o : ObjectId) :
    Option.Rel Eased (t.find o) (t'.find o) := by
  cases found : t.find o with
  | none =>
    have missing : t'.find o = none := by
      rw [find_eq_none] at found ⊢
      intro i e' here
      obtain ⟨_,cell,eased⟩ := eases.before here
      rw [eased.object]
      exact found i _ cell
    rw [missing]
    exact .none
  | some =>
    obtain ⟨object,i,_,here⟩ := cell_of_find found
    have rel := eases.cells i
    rw [here] at rel
    generalize cell : t'.objects.cell i = c at rel
    cases rel with
    | @some _ e' eased =>
      have found' := (eases.sound sound).find_of_cell cell
      rw [eased.object, object] at found'
      rw [found']
      exact .some eased

theorem attach_ok (attached : t.attach object a = (.ok (), t')) :
    t' = t.update object fun e => { e with lastAttachment := some (a.device, a.address), attached := some a } := by
  unfold attach at attached
  split at attached
  · cases attached
  split at attached
  · cases attached
  · cases attached
    rfl

section
variable (t : MemoryTable cfg)

theorem eases_detach (o : ObjectId) : Eases t (t.detach o).2 :=
  .update t o fun _ => ⟨rfl,rfl,rfl,rfl,rfl,rfl,Or.inr rfl⟩

theorem eases_forgetLastAttachment (o : ObjectId) : Eases t (t.forgetLastAttachment o) :=
  .update t o fun _ => ⟨rfl,rfl,rfl,rfl,rfl,rfl,Or.inl rfl⟩

theorem eases_removeHolder (o holder : ObjectId) : Eases t (t.removeHolder o holder).2 := by
  unfold removeHolder
  split
  · exact .refl t
  · exact .update t o fun _ => ⟨rfl,rfl,rfl,rfl,rfl,rfl,Or.inl rfl⟩

theorem eases_addHolder (o holder : ObjectId) : Eases t (t.addHolder o holder).2 := by
  unfold addHolder
  split
  · exact .refl t
  split
  · exact .refl t
  split
  · exact .refl t
  · exact .update t o fun _ => ⟨rfl,rfl,rfl,rfl,rfl,rfl,Or.inl rfl⟩

theorem eases_setSoleHolder (o owner : ObjectId) : Eases t (t.setSoleHolder o owner).2 :=
  .update t o fun _ => ⟨rfl,rfl,rfl,rfl,rfl,rfl,Or.inl rfl⟩

end

section
variable [FrameSource σ]

theorem destroy_cases (t : MemoryTable cfg) (object : ObjectId) (src : σ) :
    (∃ e, t.find object = some e ∧ e.attached = none) ∨
      t.destroy object src = (0, t, src) ∧ ∀ e, t.find object = some e → e.attached ≠ none := by
  cases found : t.find object with
  | none =>
    refine .inr ⟨?_,nofun⟩
    unfold destroy
    rw [found]
    cases t.objects.index? (named object) <;> rfl
  | some e =>
    cases reached : e.attached with
    | none => exact .inl ⟨e,rfl,reached⟩
    | some a =>
      obtain ⟨_,_,index,_⟩ := cell_of_find found
      refine .inr ⟨?_,?_⟩
      · unfold destroy
        rw [found, index]
        simp [reached]
      · rintro _ ⟨⟩
        rw [reached]
        exact Option.some_ne_none a

theorem find_destroy_other (sound : t.Sound) (other : o ≠ object) (src : σ) :
    (t.destroy object src).2.1.find o = t.find o := by
  rcases destroy_cases t object src with ⟨_,found,free⟩ | ⟨kept,_⟩
  · rw [find_destroy sound found free, if_neg other]
  · rw [kept]

end

theorem find_update_other (t : MemoryTable cfg) (other : o ≠ object) (keeps : ∀ e, (f e).object = e.object) :
    (t.update object f).find o = t.find o := by
  rw [t.find_update object keeps, if_neg other]

theorem find_removeHolder_other (t : MemoryTable cfg) (other : o ≠ object) (holder : ObjectId) :
    (t.removeHolder object holder).2.find o = t.find o := by
  unfold removeHolder
  split
  · rfl
  · exact t.find_update_other other fun _ => rfl

end MemoryTable

namespace Kernel

def setHandles (k : Kernel cfg σ) (slot : Nat) (handles : HandleTable cfg) : Kernel cfg σ :=
  { k with processes := k.processes.alter slot fun p => { p with handles } }

structure Spares (k k' : Kernel cfg σ) : Prop where
  memory : k'.memory = k.memory
  paging : k'.paging = k.paging
  cacheBudget : k'.cacheBudget = k.cacheBudget

/-- Objects have at most lost holders and devices. -/
structure Loosens (k k' : Kernel cfg σ) : Prop where
  memory : MemoryTable.Eases k.memory k'.memory
  paging : k'.paging = k.paging
  cacheBudget : k'.cacheBudget = k.cacheBudget

theorem Spares.refl (k : Kernel cfg σ) : Spares k k := ⟨rfl,rfl,rfl⟩

variable {k l m k' : Kernel cfg σ} {slot : Nat} {deviceHandle memoryHandle : Handle}

theorem Spares.trans (first : Spares k l) (second : Spares l m) : Spares k m :=
  ⟨second.memory.trans first.memory,second.paging.trans first.paging,second.cacheBudget.trans first.cacheBudget⟩

theorem Spares.loosens (spares : Spares k k') : Loosens k k' :=
  ⟨spares.memory ▸ .refl _,spares.paging,spares.cacheBudget⟩

theorem Loosens.refl (k : Kernel cfg σ) : Loosens k k := (Spares.refl k).loosens

theorem Loosens.trans (first : Loosens k l) (second : Loosens l m) : Loosens k m :=
  ⟨first.memory.trans second.memory,second.paging.trans first.paging,second.cacheBudget.trans first.cacheBudget⟩

theorem Loosens.foldl {α : Type} {f : Kernel cfg σ → α → Kernel cfg σ} (each : ∀ k a, Loosens k (f k a))
    (items : List α) (k : Kernel cfg σ) : Loosens k (items.foldl f k) := by
  induction items generalizing k with
  | nil => exact .refl k
  | cons a rest ih => exact (each k a).trans (ih (f k a))

theorem Spares.foldl {α : Type} {f : Kernel cfg σ → α → Kernel cfg σ} (each : ∀ k a, Spares k (f k a))
    (items : List α) (k : Kernel cfg σ) : Spares k (items.foldl f k) := by
  induction items generalizing k with
  | nil => exact .refl k
  | cons a rest ih => exact (each k a).trans (ih (f k a))

theorem spares_unbindPort (k : Kernel cfg σ) (port : PortId) (src signal : Nat) :
    Spares k (k.unbindPort port src signal) := by
  unfold unbindPort
  split <;> exact ⟨rfl,rfl,rfl⟩

theorem spares_endRoutes (dev : ObjectId) (turns : Nat) (k : Kernel cfg σ) : Spares k (endRoutes dev turns k).2 := by
  induction turns generalizing k with
  | zero => exact .refl k
  | succ turns ih =>
    unfold endRoutes
    split
    · exact .refl k
    rename_i route devices _
    have unbound := spares_unbindPort { k with devices } route.port route.intid irqPortSignal
    exact Spares.trans ⟨unbound.memory,unbound.paging,unbound.cacheBudget⟩ (ih _)

section
variable (k : Kernel cfg σ)

theorem spares_endDeviceIrqRoute (holder dev : ObjectId) : Spares k (k.endDeviceIrqRoute holder dev).2 := by
  unfold endDeviceIrqRoute
  split
  · exact spares_endRoutes dev _ k
  · exact .refl k

theorem spares_beginLease (dev holder : ObjectId) : Spares k (k.beginLease dev holder).2 := by
  unfold beginLease
  split
  · exact .refl k
  split
  · exact .refl k
  · split <;> exact ⟨rfl,rfl,rfl⟩

theorem spares_holdLease (dev caller : ObjectId) : Spares k (k.holdLease dev caller).2 := by
  unfold holdLease
  split
  · split <;> exact .refl k
  · exact spares_beginLease k dev caller

theorem spares_attachTranslations (dev memory caller : ObjectId) (frames : List PhysFrame) :
    Spares k (k.attachTranslations dev memory caller frames).2 := by
  have held := spares_holdLease k dev caller
  unfold attachTranslations
  split
  · rename_i refused
    rwa [refused] at held
  rename_i leased
  rw [leased] at held
  split
  · exact held
  split
  · exact held
  · split <;> exact ⟨held.memory,held.paging,held.cacheBudget⟩

theorem spares_placeAttachment (dev memory caller : ObjectId) (frames : List PhysFrame) :
    Spares k (k.placeAttachment dev memory caller frames).2 := by
  unfold placeAttachment
  split
  · exact spares_attachTranslations k dev memory caller frames
  · split <;> exact .refl k

theorem loosens_forgetAttachmentsTo (dev : ObjectId) : Loosens k (k.forgetAttachmentsTo dev) := by
  have sweep : ∀ (objects : List ObjectId) (t : MemoryTable cfg), MemoryTable.Eases t
      (objects.foldl (fun memory object => (memory.detach object).2.forgetLastAttachment object) t) := by
    intro objects
    induction objects with
    | nil => exact fun t => .refl t
    | cons o rest ih =>
      intro t
      exact ((eases_detach t o).trans (eases_forgetLastAttachment _ o)).trans (ih _)
  exact ⟨sweep _ _,rfl,rfl⟩

theorem loosens_endOneLease (dev : ObjectId) : Loosens k (k.endOneLease dev).2 := by
  unfold endOneLease
  split
  · exact ⟨.refl _,rfl,rfl⟩
  rename_i table _
  have forgot := loosens_forgetAttachmentsTo ((k.endTranslations dev).setTable table) dev
  exact ⟨forgot.memory,forgot.paging,forgot.cacheBudget⟩

theorem loosens_endDeviceLease (holder dev : ObjectId) : Loosens k (k.endDeviceLease holder dev).2 := by
  unfold endDeviceLease
  split
  · exact loosens_endOneLease k dev
  · exact .refl k

theorem loosens_expireLeases (now : Nat) : Loosens k (k.expireLeases now) :=
  Loosens.foldl (fun k (lease : ObjectId × ObjectId) => loosens_endOneLease k lease.1) _ k

theorem loosens_isolateDmaFault (dev : ObjectId) : Loosens k (k.isolateDmaFault dev).2 := by
  unfold isolateDmaFault
  split
  · exact .refl k
  · exact loosens_endOneLease k dev

theorem loosens_detachMemory (memory : ObjectId) : Loosens k (k.detachMemory memory).2 := by
  unfold detachMemory
  split
  · exact .refl k
  split
  · split
    · exact .refl k
    · split
      · exact ⟨.refl _,rfl,rfl⟩
      · exact ⟨k.memory.eases_detach memory,rfl,rfl⟩
  · exact ⟨k.memory.eases_detach memory,rfl,rfl⟩

theorem find_detachMemory_other {memory o : ObjectId} (other : o ≠ memory) :
    (k.detachMemory memory).2.memory.find o = k.memory.find o := by
  have kept : (k.memory.detach memory).2.find o = k.memory.find o :=
    k.memory.find_update_other other fun _ => rfl
  unfold detachMemory
  split
  · rfl
  split
  · split
    · rfl
    · split
      · rfl
      · exact kept
  · exact kept

theorem loosens_dmaDetach (slot : Nat) (handle : Handle) : Loosens k (k.dmaDetach slot handle).2 := by
  unfold dmaDetach
  split
  · exact .refl k
  split
  · exact .refl k
  rename_i memory _ _
  have loosened := loosens_detachMemory k memory
  split
  · exact .refl k
  split
  · exact .refl k
  split
  · rename_i detached
    rwa [detached] at loosened
  · rename_i stuck
    rwa [stuck] at loosened

end

def attachedThrough (k : Kernel cfg σ) (slot : Nat) (deviceHandle memoryHandle : Handle) : Option (ObjectId × Rights) :=
  match k.processes.cell slot with
  | none => none
  | some p =>
    match p.handles.lookup deviceHandle, p.handles.lookup memoryHandle with
    | .ok (_, rights), .ok (memory, _) => some (memory, rights)
    | _, _ => none

theorem dmaAttach_error (refused : k.dmaAttach slot deviceHandle memoryHandle = (.error e, k')) : Spares k k' := by
  unfold dmaAttach at refused
  split at refused
  · cases refused
    exact .refl k
  rename_i p _
  split at refused
  · cases refused
    exact .refl k
  rename_i dev _ _
  split at refused
  · cases refused
    exact .refl k
  split at refused
  · cases refused
    exact .refl k
  rename_i memory _ _
  have placed := spares_placeAttachment k dev memory p.id (k.memory.framesOf memory)
  repeat' split at refused
  all_goals try (cases refused; exact .refl k)
  · rename_i stopped
    rw [stopped] at placed
    cases refused
    exact placed
  · rename_i done
    rw [done] at placed
    unfold recordAttachment at refused
    split at refused
    · cases refused
    · cases refused
      split <;> exact ⟨placed.memory,placed.paging,placed.cacheBudget⟩

theorem dmaAttach_ok (attached : k.dmaAttach slot deviceHandle memoryHandle = (.ok address, k')) :
    ∃ memory rights a, k.attachedThrough slot deviceHandle memoryHandle = some (memory, rights) ∧
      attachPermitted ((k.memory.classOf memory).getD .unclassified) rights = true ∧
      k.memory.attach memory a = (.ok (), k'.memory) ∧ k'.paging = k.paging ∧ k'.cacheBudget = k.cacheBudget := by
  unfold dmaAttach at attached
  split at attached
  · cases attached
  rename_i p caller
  split at attached
  · cases attached
  rename_i dev rights device_held
  split at attached
  · cases attached
  split at attached
  · cases attached
  rename_i memory _ memory_held
  have placed := spares_placeAttachment k dev memory p.id (k.memory.framesOf memory)
  have through : k.attachedThrough slot deviceHandle memoryHandle = some (memory, rights) := by
    unfold attachedThrough
    rw [caller]
    dsimp only
    rw [device_held, memory_held]
  iterate 6
    split at attached
    · cases attached
  rename_i permitted
  split at attached
  · cases attached
  split at attached
  · cases attached
  rename_i done
  rw [done] at placed
  unfold recordAttachment at attached
  split at attached
  · rename_i recorded
    cases attached
    rw [placed.memory] at recorded
    exact ⟨memory,rights,_,through,by simpa using permitted,recorded,placed.paging,placed.cacheBudget⟩
  · cases attached

section
variable [FrameSource σ]

section
variable (k : Kernel cfg σ)

theorem destroyRecord_memory (memory : ObjectId) :
    (k.destroyRecord memory).memory = (k.memory.destroy memory k.alloc).2.1 := rfl

theorem spares_revokeMemoryMappings (slot : Nat) (object : ObjectId) :
    Spares k (k.revokeMemoryMappings slot object) := by
  unfold revokeMemoryMappings
  split <;> exact ⟨rfl,rfl,rfl⟩

theorem spares_unmapObjectPage (object : ObjectId) (off : Nat) : Spares k (k.unmapObjectPage object off) := by
  refine .foldl (fun k _ => ?_) _ k
  unfold unmapPageIn
  split <;> exact ⟨rfl,rfl,rfl⟩

theorem loosens_endBindingsOfDeparted (slot : Nat) (departed : List ObjectId) :
    Loosens k (k.endBindingsOfDeparted slot departed) := by
  unfold endBindingsOfDeparted
  split
  · exact .refl k
  refine .foldl (fun k object => ?_) _ k
  split
  · exact (spares_revokeMemoryMappings k slot object).loosens.trans (loosens_detachMemory _ object)
  · exact (loosens_endDeviceLease k _ object).trans (spares_endDeviceIrqRoute _ _ object).loosens

theorem handleClose_cases (slot : Nat) (handle : Handle) : Loosens k (k.handleClose slot handle).2 ∨
      ∃ p object handles k₁, k.processes.cell slot = some p ∧ p.handles.dropHandle handle = (.ok object, handles) ∧
        handles.holds object = false ∧ (k.memory.removeHolder object p.id).1 = false ∧ Loosens k k₁ ∧
        (k.handleClose slot handle).2 = k₁.memoryDestroy object := by
  unfold handleClose
  split
  · exact .inl (.refl k)
  rename_i p caller
  split
  · exact .inl (.refl k)
  rename_i object handles dropped
  dsimp only
  split
  · exact .inl ⟨.refl _,rfl,rfl⟩
  rename_i unheld
  split
  · generalize released : (k.setProcess slot { p with handles }).revokeMemoryMappings slot object = k₁
    have revoked : Spares k k₁ := by
      have spared := spares_revokeMemoryMappings (k.setProcess slot { p with handles }) slot object
      rw [released] at spared
      exact ⟨spared.memory,spared.paging,spared.cacheBudget⟩
    have lessened := k₁.memory.eases_removeHolder object p.id
    split
    · rename_i memory left
      rw [left] at lessened
      exact .inl (revoked.loosens.trans ⟨lessened,rfl,rfl⟩)
    rename_i memory last
    rw [last] at lessened
    refine .inr ⟨p,object,handles,{ k₁ with memory },caller,dropped,Bool.not_eq_true _ ▸ unheld,?_,
      revoked.loosens.trans ⟨lessened,rfl,rfl⟩,rfl⟩
    rw [← revoked.memory, last]
  · split
    · exact .inl ⟨.refl _,rfl,rfl⟩
    rename_i p' _
    have ended := (loosens_endDeviceLease ((k.setProcess slot { p with handles }).setProcess slot p') p'.id
      object).trans (spares_endDeviceIrqRoute _ p'.id object).loosens
    exact .inl ⟨ended.memory,ended.paging,ended.cacheBudget⟩

end

end
end Kernel
end Tessera
