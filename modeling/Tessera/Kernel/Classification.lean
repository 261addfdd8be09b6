import Tessera.Kernel.MemoryEffects
import Tessera.Memory.Pmem

/-!
Memory on the protected path. A class may be raised and never lowered, and memory
that has it is shown to a device only through a handle that carries the right for it.
The classification looks at the class alone: a device that reaches the object already
is not asked. So the path is kept in runs that classify an object before a device
reaches it, and only in those.
-/
namespace Tessera
open MemoryTable Option Kernel
variable {cfg : Config} {σ : Type}

namespace MemoryTable

def classify (t : MemoryTable cfg) (object : ObjectId) (memoryClass : MemoryClass) :
    Except KError Unit × MemoryTable cfg :=
  match t.find object with
  | none => (.error .wrongType, t)
  | some entry =>
    if memoryClass.level < entry.memoryClass.level then (.error .accessDenied, t)
    else (.ok (), t.update object fun e => { e with memoryClass })

/-- Some records may be gone; the others have kept their class and gained no device. -/
structure Fades (t t' : MemoryTable cfg) : Prop where
  sound : t'.Sound
  nextId : t'.nextId = t.nextId
  records : ∀ o e', t'.find o = some e' → ∃ e, t.find o = some e ∧ Eased e e'

variable {t : MemoryTable cfg}

theorem Eases.fades (eases : Eases t t') (sound : t.Sound) : Fades t t' := by
  refine ⟨eases.sound sound,eases.nextId,fun o _ found => ?_⟩
  have rel := eases.find sound o
  rw [found] at rel
  generalize before : t.find o = c at rel
  cases rel with
  | some eased => exact ⟨_,rfl,eased⟩

theorem Fades.trans (first : Fades t u) (second : Fades u v) : Fades t v := by
  refine ⟨second.sound,second.nextId.trans first.nextId,fun o e'' found => ?_⟩
  obtain ⟨e',middle,late⟩ := second.records o e'' found
  obtain ⟨e,start,early⟩ := first.records o e' middle
  exact ⟨e,start,early.trans late⟩

section
variable [FrameSource σ]

theorem fades_destroy (sound : t.Sound) (obj : ObjectId) (src : σ) : Fades t (t.destroy obj src).2.1 := by
  rcases destroy_cases t obj src with ⟨_,found,free⟩ | ⟨kept,_⟩
  · refine ⟨sound.destroy obj src,destroy_nextId t obj src,fun _ e' after => ?_⟩
    rw [find_destroy sound found free] at after
    split at after
    · cases after
    · exact ⟨e',after,.refl e'⟩
  · rw [kept]
    exact (Eases.refl t).fades sound

end
end MemoryTable

namespace Kernel

def memoryClassify (k : Kernel cfg σ) (slot : Nat) (handle : Handle) (memoryClass : MemoryClass) :
    Except KError Unit × Kernel cfg σ :=
  match k.processes.cell slot with
  | none => (.error .accessDenied, k)
  | some p =>
    match p.handles.lookup handle with
    | .error e => (.error e, k)
    | .ok (object, rights) =>
      if !rights.contains .write then (.error .accessDenied, k)
      else
        match k.memory.classify object memoryClass with
        | (.error e, _) => (.error e, k)
        | (.ok (), memory) => (.ok (), { k with memory })

section
variable [FrameSource σ] {k : Kernel cfg σ}

theorem fades_memoryDestroy (sound : k.memory.Sound) (memory : ObjectId) :
    k.memory.Fades (k.memoryDestroy memory).memory := by
  have loosened := ((loosens_detachMemory k memory).memory).fades sound
  exact loosened.trans (fades_destroy loosened.sound memory _)

theorem fades_handleClose (sound : k.memory.Sound) (slot : Nat) (handle : Handle) :
    k.memory.Fades (k.handleClose slot handle).2.memory := by
  rcases handleClose_cases k slot handle with loosened | ⟨_,obj,_,_,_,_,_,_,loosened,destroyed⟩
  · exact loosened.memory.fades sound
  rw [destroyed]
  have lessened := loosened.memory.fades sound
  exact lessened.trans (fades_memoryDestroy lessened.sound obj)

end
end Kernel

/-- A kernel, and for every object the rights of the handle through which a device was last
    made to reach it. -/
structure ClassWorld (cfg : Config) (σ : Type) where
  kernel : Kernel cfg σ
  attachedWith : ObjectId → Rights

/-- The three calls, what a transfer or a share does at its two ends, the other ways in which
    a handle or a lease goes, and the creation of objects. The handles a process has after a
    transfer are whatever the transfer makes of them. -/
inductive ClassAction (cfg : Config) where
  | classify (slot : Nat) (handle : Handle) (memoryClass : MemoryClass)
  | attach (slot : Nat) (deviceHandle memoryHandle : Handle)
  | detach (slot : Nat) (handle : Handle)
  | depart (slot : Nat) (handles : HandleTable cfg) (departed : List ObjectId)
  | arrive (slot : Nat) (handles : HandleTable cfg) (object holder : ObjectId) (shared : Bool)
  | close (slot : Nat) (handle : Handle)
  | lapse (now : Nat)
  | isolate (device : ObjectId)
  | create (owner : ObjectId) (pages : Nat) (placement : Placement)
  | createPaged (owner : ObjectId) (pages : Nat) (pager : ObjectId)

namespace ClassWorld

section
variable (w : ClassWorld cfg σ)

def withKernel (kernel : Kernel cfg σ) : ClassWorld cfg σ := { w with kernel }

def attach (slot : Nat) (deviceHandle memoryHandle : Handle) : ClassWorld cfg σ :=
  match w.kernel.dmaAttach slot deviceHandle memoryHandle, w.kernel.attachedThrough slot deviceHandle memoryHandle with
  | (.ok _, kernel), some (memory, rights) => ⟨kernel, Function.update w.attachedWith memory rights⟩
  | (_, kernel), _ => w.withKernel kernel

/-- An object is raised to the protected path only while no device reaches it. -/
def Early : ClassAction cfg → Prop
  | .classify slot handle .protectedContent =>
    (w.kernel.memoryClassify slot handle .protectedContent).1 = .ok () →
      ((w.kernel.processes.cell slot).all fun p =>
        match p.handles.lookup handle with
        | .ok (object, _) => w.kernel.memory.classOf object = some .protectedContent ∨
            (w.kernel.memory.attachmentOf object).isNone
        | .error _ => true) = true
  | _ => True

instance (w : ClassWorld cfg σ) (a : ClassAction cfg) : Decidable (w.Early a) := by
  unfold Early
  split <;> infer_instance

/-- Memory on the protected path is reached only through handles with the right for it. -/
def Shielded : Prop :=
  ∀ o e, w.kernel.memory.find o = some e → e.memoryClass = .protectedContent → e.attached.isSome = true →
    (w.attachedWith o).contains .protectedDma = true

def Rises (t t' : MemoryTable cfg) : Prop :=
  t.nextId ≤ t'.nextId ∧ ∀ o e', t'.find o = some e' → o.raw < t.nextId →
    ∃ e, t.find o = some e ∧ e.memoryClass.level ≤ e'.memoryClass.level

end

theorem Rises.trans (first : Rises t u) (second : Rises u v) : Rises t v := by
  refine ⟨first.1.trans second.1,fun o e'' found old => ?_⟩
  obtain ⟨e',middle,late⟩ := second.2 o e'' found (Nat.lt_of_lt_of_le old first.1)
  obtain ⟨e,start,early⟩ := first.2 o e' middle old
  exact ⟨e,start,early.trans late⟩

theorem Rises.refl (t : MemoryTable cfg) : Rises t t := ⟨Nat.le_refl _,fun _ e found _ => ⟨e,found,Nat.le_refl _⟩⟩

structure Keeps (w w' : ClassWorld cfg σ) : Prop where
  sound : w'.kernel.memory.Sound
  rises : Rises w.kernel.memory w'.kernel.memory
  shielded : w.Shielded → w'.Shielded

variable {w : ClassWorld cfg σ} {k : Kernel cfg σ}

theorem keeps_of_fades (fades : w.kernel.memory.Fades k.memory) : w.Keeps (w.withKernel k) := by
  refine ⟨fades.sound,⟨Nat.le_of_eq fades.nextId.symm,?_⟩,?_⟩
  · intro o e' found _
    obtain ⟨e,before,eased⟩ := fades.records o e' found
    exact ⟨e,before,Nat.le_of_eq (by rw [eased.memoryClass])⟩
  intro shielded o e' found classed reached
  obtain ⟨e,before,eased⟩ := fades.records o e' found
  rcases eased.attached with same | gone
  · exact shielded o e before (eased.memoryClass ▸ classed) (same ▸ reached)
  · rw [gone] at reached
    cases reached

theorem keeps_of_creates
    (creates : MemoryTable.Creates w.kernel.memory k.memory result owner) : w.Keeps (w.withKernel k) := by
  cases result with
  | error err =>
    obtain ⟨objects,next⟩ := creates.refused err rfl
    have same (o : ObjectId) : k.memory.find o = w.kernel.memory.find o := by
      rw [find, find, objects]
    refine ⟨creates.sound,⟨Nat.le_of_eq next.symm,?_⟩,?_⟩
    · intro o e found _
      exact ⟨e,same o ▸ found,Nat.le_refl _⟩
    · intro shielded o e found
      exact shielded o e (same o ▸ found)
  | ok obj =>
    obtain ⟨fresh,next,_,_,_,loose,finds⟩ := creates.made obj rfl
    refine ⟨creates.sound,⟨?_,?_⟩,?_⟩
    · exact next ▸ Nat.le_succ _
    · intro o e' found old
      rw [show (w.withKernel k).kernel = k from rfl, finds, if_neg] at found
      · exact ⟨e',found,Nat.le_refl _⟩
      · rintro rfl
        rw [fresh] at old
        exact absurd old (Nat.lt_irrefl _)
    · intro shielded o e' found classed reached
      rw [show (w.withKernel k).kernel = k from rfl, finds] at found
      split at found
      · cases found
        rw [loose] at reached
        cases reached
      · exact shielded o e' found classed reached

theorem keeps_classify (sound : w.kernel.memory.Sound) (slot : Nat) (handle : Handle)
    (memoryClass : MemoryClass) (early : w.Early (.classify slot handle memoryClass)) :
    w.Keeps (w.withKernel (w.kernel.memoryClassify slot handle memoryClass).2) := by
  have still : w.Keeps (w.withKernel w.kernel) := keeps_of_fades ((MemoryTable.Eases.refl _).fades sound)
  unfold Early memoryClassify at early
  unfold memoryClassify
  split
  · exact still
  rename_i caller
  split
  · exact still
  rename_i obj _ held
  split
  · exact still
  rename_i allowed
  unfold classify
  cases found : w.kernel.memory.find obj with
  | none => exact still
  | some entry =>
    dsimp only
    split
    · rename_i refused
      split at refused
      · exact still
      · cases refused
    rename_i raised
    split at raised
    · cases raised
    rename_i level
    cases raised
    have finds (o : ObjectId) := w.kernel.memory.find_update obj
      (f := fun e => { e with memoryClass }) (fun _ => rfl) o
    refine ⟨sound.update obj fun _ => ⟨rfl,rfl,rfl⟩,⟨Nat.le_refl _,?_⟩,?_⟩
    · intro o e' after _
      dsimp only [withKernel] at after
      rw [finds] at after
      split at after
      · rename_i same
        rw [same, found] at after
        cases after
        exact ⟨entry,same ▸ found,Nat.not_lt.mp level⟩
      · exact ⟨e',after,Nat.le_refl _⟩
    · intro shielded o e' after classed reached
      dsimp only [withKernel] at after
      rw [finds] at after
      split at after
      · rename_i same
        rw [same, found] at after
        cases after
        cases memoryClass with
        | unclassified => cases classed
        | protectedContent =>
          simp only [caller, held, allowed, classify, found, level, all_some, classOf, attachmentOf, bind_some, map_some,
            if_false, Bool.false_eq_true, forall_const, decide_eq_true_eq] at early
          rcases early with old | loose
          · exact shielded o entry (same ▸ found) (some.inj old) reached
          · rw [isNone_iff_eq_none.mp loose] at reached
            cases reached
      · exact shielded o e' after classed reached

theorem keeps_attach (sound : w.kernel.memory.Sound) (slot : Nat) (deviceHandle memoryHandle : Handle) :
    w.Keeps (w.attach slot deviceHandle memoryHandle) := by
  unfold attach
  cases done : w.kernel.dmaAttach slot deviceHandle memoryHandle with
  | mk result kernel =>
    cases result with
    | error =>
      have spared := dmaAttach_error done
      exact keeps_of_fades (spared.loosens.memory.fades sound)
    | ok address =>
      obtain ⟨memory,_,a,through,permitted,recorded,_,_⟩ := dmaAttach_ok done
      rw [through]
      have table := attach_ok recorded
      have finds (o : ObjectId) := w.kernel.memory.find_update memory (f := fun e =>
        { e with lastAttachment := some (a.device, a.address), attached := some a }) (fun _ => rfl) o
      rw [← table] at finds
      refine ⟨table ▸ sound.update memory fun _ => ⟨rfl,rfl,rfl⟩,⟨Nat.le_of_eq (by rw [table]; rfl),?_⟩,?_⟩
      · intro o e' after _
        rw [finds] at after
        split at after
        · obtain ⟨e,before,rfl⟩ := map_eq_some_iff.mp after
          exact ⟨e,before,Nat.le_refl _⟩
        · exact ⟨e',after,Nat.le_refl _⟩
      · intro shielded o e' after classed reached
        dsimp only at after ⊢
        rw [finds] at after
        split at after
        · rename_i same
          obtain ⟨_,before,rfl⟩ := map_eq_some_iff.mp after
          subst same
          rw [Function.update_self]
          simp only [classOf, before, map_some] at permitted
          rw [classed] at permitted
          exact permitted
        · rename_i other
          rw [Function.update_of_ne other]
          exact shielded o e' after classed reached

section
variable [FrameSource σ]

def perform (w : ClassWorld cfg σ) : ClassAction cfg → ClassWorld cfg σ
  | .classify slot handle memoryClass => w.withKernel (w.kernel.memoryClassify slot handle memoryClass).2
  | .attach slot deviceHandle memoryHandle => w.attach slot deviceHandle memoryHandle
  | .detach slot handle => w.withKernel (w.kernel.dmaDetach slot handle).2
  | .depart slot handles departed =>
    w.withKernel ((w.kernel.setHandles slot handles).endBindingsOfDeparted slot departed)
  | .arrive slot handles object holder true =>
    w.withKernel ((w.kernel.setHandles slot handles).setMemory (w.kernel.memory.addHolder object holder).2)
  | .arrive slot handles object holder false =>
    w.withKernel ((w.kernel.setHandles slot handles).setMemory (w.kernel.memory.setSoleHolder object holder).2)
  | .close slot handle => w.withKernel (w.kernel.handleClose slot handle).2
  | .lapse now => w.withKernel (w.kernel.expireLeases now)
  | .isolate device => w.withKernel (w.kernel.isolateDmaFault device).2
  | .create owner pages placement =>
    w.withKernel ((w.kernel.setMemory (w.kernel.memory.create owner pages placement w.kernel.alloc).2.1).setAlloc
      (w.kernel.memory.create owner pages placement w.kernel.alloc).2.2)
  | .createPaged owner pages pager =>
    w.withKernel (w.kernel.setMemory (w.kernel.memory.createPaged owner pages pager).2)

def Step (w : ClassWorld cfg σ) (a : ClassAction cfg) (w' : ClassWorld cfg σ) : Prop :=
  some (w.perform a) = some w'

theorem keeps_perform (sound : w.kernel.memory.Sound) (a : ClassAction cfg) (early : w.Early a) :
    w.Keeps (w.perform a) := by
  cases a with
  | classify slot handle memoryClass => exact keeps_classify sound slot handle memoryClass early
  | attach slot deviceHandle memoryHandle => exact keeps_attach sound slot deviceHandle memoryHandle
  | detach slot handle => exact keeps_of_fades ((loosens_dmaDetach _ slot handle).memory.fades sound)
  | depart slot handles departed =>
    exact keeps_of_fades ((loosens_endBindingsOfDeparted (w.kernel.setHandles slot handles) slot
      departed).memory.fades sound)
  | arrive slot handles obj holder shared =>
    cases shared with
    | true => exact keeps_of_fades ((eases_addHolder _ obj holder).fades sound)
    | false => exact keeps_of_fades ((eases_setSoleHolder _ obj holder).fades sound)
  | close slot handle => exact keeps_of_fades (fades_handleClose sound slot handle)
  | lapse now => exact keeps_of_fades ((loosens_expireLeases _ now).memory.fades sound)
  | isolate dev => exact keeps_of_fades ((loosens_isolateDmaFault _ dev).memory.fades sound)
  | create owner pages placement =>
    exact keeps_of_creates (creates_create sound owner pages placement w.kernel.alloc)
  | createPaged owner pages pager => exact keeps_of_creates (creates_createPaged sound owner pages pager)

/-- In every run that classifies memory before a device reaches it, no class goes down
    between two states, and in every state the memory on the protected path is reached only
    through handles with the right for it. -/
theorem protected_memory_stays_on_its_path {w₀ s t : ClassWorld cfg σ} (boot : w₀.kernel.memory = .new)
    {before after : List (ClassAction cfg)} (first : Transition.Disciplined (fun _ => Early) Step w₀ before s)
    (second : Transition.Disciplined (fun _ => Early) Step s after t) :
    t.Shielded ∧ ∀ o c c', s.kernel.memory.classOf o = some c → t.kernel.memory.classOf o = some c' →
      c.level ≤ c'.level := by
  have start : w₀.kernel.memory.Sound ∧ w₀.Shielded := by
    rw [boot]
    refine ⟨sound_new,fun o e found => ?_⟩
    rw [boot] at found
    have none : (new : MemoryTable cfg).find o = none :=
      find_eq_none.mpr (by simp [new])
    rw [none] at found
    cases found
  have mid : s.kernel.memory.Sound ∧ s.Shielded := by
    refine first.invariant (fun _ w => w.kernel.memory.Sound ∧ w.Shielded) ?_ start
    intro _ w a _ kept early step
    cases step
    have keeps := keeps_perform kept.1 a early
    exact ⟨keeps.sound,keeps.shielded kept.2⟩
  have last : t.kernel.memory.Sound ∧ t.Shielded ∧ Rises s.kernel.memory t.kernel.memory := by
    refine second.invariant (fun _ w => w.kernel.memory.Sound ∧ w.Shielded ∧ Rises s.kernel.memory w.kernel.memory) ?_
      ⟨mid.1,mid.2,.refl _⟩
    intro _ _ a _ kept early step
    cases step
    have keeps := keeps_perform kept.1 a early
    exact ⟨keeps.sound,keeps.shielded kept.2.1,kept.2.2.trans keeps.rises⟩
  refine ⟨last.2.1,fun o c c' classed risen => ?_⟩
  obtain ⟨e,here,rfl⟩ := map_eq_some_iff.mp classed
  obtain ⟨e',there,rfl⟩ := map_eq_some_iff.mp risen
  obtain ⟨obj,i,_,cell⟩ := cell_of_find here
  have old := (mid.1.minted i e cell).2
  rw [obj] at old
  obtain ⟨_,same,le⟩ := last.2.2.2 o e' there old
  rw [here] at same
  cases same
  exact le

end

/-- A machine without a translation unit, and a process that holds its device with these
    rights and will hold the first memory object. -/
def bench (rights : Rights) : ClassWorld .minimal (BumpFrameAllocator .minimal) where
  kernel :=
    { exec := .new .new
      devices := ⟨(DeviceTable.new.registerIdentified ⟨9⟩ 0 4096 rights).2, fun _ => .new⟩
      memory := .new
      processes := Slots.empty.put 0 { Process.new ⟨1⟩ (AddressSpace.fromArch .bare) with
        handles := ((HandleTable.new.insert ⟨9⟩ rights).2.insert ⟨0x1000⟩ (Rights.map.union .write)).2 }
      iommu := none
      alloc := .new [⟨0x100000, 0x10000, .usable⟩] }
  attachedWith := fun _ => ⟨0⟩

def deviceHandle : Handle := .new 0 0

def memoryHandle : Handle := .new 1 0

/-- The memory is classified first, and a device held with the right is then let in. -/
theorem classified_memory_is_shielded : ∃ w : ClassWorld .minimal (BumpFrameAllocator .minimal),
      Transition.Disciplined (fun _ => Early) Step (bench (Rights.map.union .protectedDma))
        [.create ⟨1⟩ 1 .default, .classify 0 memoryHandle .protectedContent, .attach 0 deviceHandle memoryHandle] w ∧
      (w.kernel.memory.attachmentOf ⟨0x1000⟩).isSome = true ∧ w.Shielded :=
  Transition.Disciplined.reaches_also (by decide +kernel) fun _ run _ =>
    (protected_memory_stays_on_its_path rfl run .start).1

/-- Memory that a device held without the right reaches already is classified, and the
    device goes on reaching it. -/
theorem attached_memory_is_classified : ∃ w : ClassWorld .minimal (BumpFrameAllocator .minimal),
      Transition.Run Step (bench .map)
        [.create ⟨1⟩ 1 .default, .attach 0 deviceHandle memoryHandle, .classify 0 memoryHandle .protectedContent] w ∧
      w.kernel.memory.classOf ⟨0x1000⟩ = some .protectedContent ∧
      (w.kernel.memory.attachmentOf ⟨0x1000⟩).isSome = true ∧
      (w.attachedWith ⟨0x1000⟩).contains .protectedDma = false :=
  Transition.Disciplined.reaches (by decide +kernel)

end ClassWorld
end Tessera
