import Tessera.Vm.PageEffects

/-!
The operations that take pages or permissions away, cut at every point where
another processor can get in between: each change of a page-table entry, each frame
taken or given back, and each wait for the other processors. Run alone, a program
does to the space exactly what the operation does.
-/
namespace Tessera
open FrameSource List
open AddressSpace

inductive VmReturn where
  | unit
  | call (result : Except KError Unit)
  | fault (outcome : FaultOutcome)

def VmReturn.succeeded : VmReturn → Bool
  | .unit | .call (.ok ()) | .fault .copied | .fault .filled => true
  | _ => false

/-- What is left of an operation. The records change only when it returns: nobody
    else looks at them while the space is borrowed. -/
inductive VmProgram (cfg : Config) where
  | translate (va : Nat) (next : Option (PhysFrame × PageFlags) → VmProgram cfg)
  | unmap (va : Nat) (next : Except KError PhysFrame → VmProgram cfg)
  | protect (va : Nat) (flags : PageFlags) (next : Except KError Unit → VmProgram cfg)
  | map (va : Nat) (frame : PhysFrame) (flags : PageFlags) (next : Except KError Unit → VmProgram cfg)
  | alloc (next : Option PhysFrame → VmProgram cfg)
  | retain (frame : PhysFrame) (next : VmProgram cfg)
  | free (frame : PhysFrame) (next : VmProgram cfg)
  | freeTables (next : VmProgram cfg)
  | shootDown (next : VmProgram cfg)
  | ret (result : VmReturn) (finish : AddressSpace cfg → AddressSpace cfg)

namespace VmProgram
variable {cfg : Config} {σ : Type} [FrameSource σ] (port : ArchPort)

section
variable (sp : AddressSpace cfg)

def alone : VmProgram cfg → AddressSpace cfg → σ → VmReturn × AddressSpace cfg × σ
  | .translate va next, sp, source => (next (sp.arch.translate va)).alone sp source
  | .unmap va next, sp, source =>
    (next (sp.arch.unmap va).1).alone (sp.setArch (sp.arch.unmap va).2) source
  | .protect va flags next, sp, source =>
    (next (sp.arch.protect port va flags).1).alone (sp.setArch (sp.arch.protect port va flags).2) source
  | .map va frame flags next, sp, source =>
    (next (sp.arch.map port va frame flags source).1).alone
      (sp.setArch (sp.arch.map port va frame flags source).2.1) (sp.arch.map port va frame flags source).2.2
  | .alloc next, sp, source => (next (allocFrame source).1).alone sp (allocFrame source).2
  | .retain frame next, sp, source => next.alone sp (retainFrame source frame)
  | .free frame next, sp, source => next.alone sp (freeFrame source frame)
  | .freeTables next, sp, source => next.alone sp (sp.arch.freeTables port source)
  | .shootDown next, sp, source => next.alone sp source
  | .ret result finish, sp, source => (result, finish sp, source)

def fail (e : KError) : VmProgram cfg := .ret (.call (.error e)) id

def evictPage (va : Nat) : VmProgram cfg :=
  .translate (alignDown va) fun
    | .none => fail .notMapped
    | .some (frame, _) =>
      .unmap (alignDown va) fun
        | .error e => fail e
        | .ok _ =>
          .shootDown (.free frame
            (.ret (.call (.ok ())) fun sp => { sp with mappedBytes := sp.mappedBytes - frameSize }))

def unmapPages (base : Nat) (next : Except KError Unit → VmProgram cfg) : (pages i : Nat) → VmProgram cfg
  | 0, _ => next (.ok ())
  | pages + 1, i =>
    .unmap (pageAt base i) fun
      | .error e => next (.error e)
      | .ok _ => unmapPages base next pages (i + 1)

def unmapRange (base len : Nat) : VmProgram cfg :=
  match sp.findExact base len with
  | .none => fail .notMapped
  | .some idx =>
    if (sp.mappings.cell idx).any (AddressSpace.Backing.isShared ·.backing) then fail .wrongType
    else
      unmapPages base (fun
        | .error e => fail e
        | .ok () =>
          .shootDown (.ret (.call (.ok ())) fun sp =>
            { sp.dropRecord idx with mappedBytes := sp.mappedBytes - len })) (len / frameSize) 0

def freeEach (frames : List PhysFrame) (next : VmProgram cfg) : VmProgram cfg :=
  frames.foldr .free next

def releaseBatch (batch : List PhysFrame) (next : VmProgram cfg) : VmProgram cfg :=
  if batch.length = 0 then next else .shootDown (freeEach batch next)

def unmapAndFree (base : Nat) (next : Nat → VmProgram cfg) :
    (pages i : Nat) → (batch : List PhysFrame) → (reclaimed : Nat) → VmProgram cfg
  | 0, _, batch, reclaimed => releaseBatch batch (next reclaimed)
  | pages + 1, i, batch, reclaimed =>
    .unmap (pageAt base i) fun
      | .error _ => unmapAndFree base next pages (i + 1) batch reclaimed
      | .ok frame =>
        if batch.length + 1 = reclaimBatch then
          releaseBatch (batch ++ [frame])
            (unmapAndFree base next pages (i + 1) [] (reclaimed + frameSize))
        else unmapAndFree base next pages (i + 1) (batch ++ [frame]) (reclaimed + frameSize)

def reclaimRange (base len : Nat) : VmProgram cfg :=
  match sp.findExact base len with
  | .none => fail .notMapped
  | .some idx =>
    unmapAndFree base (fun reclaimed => .ret (.call (.ok ())) fun sp =>
      { sp with mappedBytes := sp.mappedBytes - reclaimed }.dropRecord idx) (len / frameSize) 0 [] 0

def teardownSlots (sp : AddressSpace cfg) : List Nat → VmProgram cfg
  | [] => .freeTables (.ret .unit id)
  | idx :: rest =>
    match sp.mappings.cell idx with
    | .none => teardownSlots sp rest
    | .some m => unmapAndFree m.base (fun _ => teardownSlots sp rest) (m.len / frameSize) 0 [] 0

def teardown : VmProgram cfg := teardownSlots sp (List.range cfg.maxMappings)

def closeWindow (va : Nat) (next : VmProgram cfg) : (pages i : Nat) → VmProgram cfg
  | 0, _ => next
  | pages + 1, i => .unmap (pageAt va i) fun _ => closeWindow va next pages (i + 1)

def unmapDevicePages (va pages : Nat) : VmProgram cfg :=
  closeWindow va (.shootDown (.ret .unit id)) pages 0

def unmapDevicePage (va : Nat) : VmProgram cfg :=
  .unmap va fun
    | .error e => fail e
    | .ok _ => .shootDown (.ret (.call (.ok ())) id)

def protectPages (base : Nat) (rights : PageFlags) (next : Except KError Unit → VmProgram cfg) :
    (pages i : Nat) → VmProgram cfg
  | 0, _ => next (.ok ())
  | pages + 1, i =>
    .protect (pageAt base i) rights fun
      | .error e => next (.error e)
      | .ok () => protectPages base rights next pages (i + 1)

def protectRange (base len : Nat) (rights : PageFlags) : VmProgram cfg :=
  if rights.isWx then fail .wxViolation
  else
    match sp.findExact base len with
    | .none => fail .notMapped
    | .some idx =>
      protectPages base rights (fun
        | .error e => fail e
        | .ok () =>
          .shootDown (.ret (.call (.ok ())) fun sp => sp.changeRecord idx fun m => { m with rights }))
        (len / frameSize) 0

def reprotectRo (va : Nat) : VmProgram cfg :=
  match sp.mappingCovering va with
  | .none => fail .notMapped
  | .some m => .protect (alignDown va) (readOnly m.rights) fun result => .ret (.call result) id

def snapshotPages (src dst : Nat) (ro : PageFlags) (next : Except KError Unit → VmProgram cfg) :
    (pages i : Nat) → VmProgram cfg
  | 0, _ => next (.ok ())
  | pages + 1, i =>
    .translate (pageAt src i) fun
      | .none => next (.error .notMapped)
      | .some (frame, _) =>
        .retain frame (.protect (pageAt src i) ro fun
          | .error e => next (.error e)
          | .ok () =>
            .map (pageAt dst i) frame ro fun
              | .error e => next (.error e)
              | .ok () => snapshotPages src dst ro next pages (i + 1))

def snapshotCow (src dst len : Nat) : VmProgram cfg :=
  if src % frameSize ≠ 0 ∨ dst % frameSize ≠ 0 then fail .unaligned
  else if len = 0 ∨ len % frameSize ≠ 0 then fail .invalidMapping
  else
    match sp.findExact src len with
    | .none => fail .notMapped
    | .some idx =>
      if sp.overlaps dst len then fail .alreadyMapped
      else if sp.mappingCount ≥ cfg.maxMappings then fail .outOfMemory
      else
        match sp.mappings.cell idx with
        | .none => fail .notMapped
        | .some m =>
          snapshotPages src dst (readOnly m.rights) (fun
            | .error e => fail e
            | .ok () => .ret (.call (.ok ())) fun sp =>
              (sp.changeRecord idx fun m => { m with backing := .cow }).recordMapped dst len m.rights .cow)
            (len / frameSize) 0

def outcome (outcome : FaultOutcome) : VmProgram cfg := .ret (.fault outcome) id

def demandFill (page : Nat) (rights : PageFlags) : VmProgram cfg :=
  .alloc fun
    | .none => outcome .unresolvable
    | .some frame =>
      .map page frame rights fun
        | .error _ => .free frame (outcome .unresolvable)
        | .ok () => .ret (.fault .filled) fun sp => { sp with mappedBytes := sp.mappedBytes + frameSize }

def cowCopy (page : Nat) (rights : PageFlags) : VmProgram cfg :=
  .translate page fun
    | .none => outcome .unresolvable
    | .some (shared, flags) =>
      if flags.writable then outcome .unresolvable
      else
        .alloc fun
          | .none => outcome .unresolvable
          | .some priv =>
            .unmap page fun
              | .error _ => .free priv (outcome .unresolvable)
              | .ok _ =>
                .map page priv rights fun
                  | .error _ => .free priv (outcome .unresolvable)
                  | .ok () => .free shared (outcome .copied)

def resolveFault (virt : Nat) (write : Bool) : VmProgram cfg :=
  match sp.mappingCovering virt with
  | .none => outcome .unresolvable
  | .some m =>
    match m.backing with
    | .anonymousDemand =>
      .translate (alignDown virt) fun entry =>
        if entry.isSome then outcome .unresolvable else demandFill (alignDown virt) m.rights
    | .cow => if write then cowCopy (alignDown virt) m.rights else outcome .unresolvable
    | .object object baseOffset =>
      .translate (alignDown virt) fun
        | .none => outcome (.needsPageIn object (alignDown virt - m.base + baseOffset))
        | .some (_, flags) =>
          if write && !flags.writable && m.rights.writable then
            outcome (.writeToClean object (alignDown virt - m.base + baseOffset))
          else outcome .unresolvable
    | .anonymous | .shared _ _ => outcome .unresolvable

end

variable {port} {sp : AddressSpace cfg} {source : σ}

theorem protect_error {a b : ArchSpace} {va : Nat} {flags : PageFlags} {e : KError}
    (h : a.protect port va flags = (.error e, b)) : b = a := by
  rcases ArchSpace.protect_pages h with done | failed
  · cases done.1
  · exact failed.2

section
variable {next : VmProgram cfg}

@[simp] theorem translate_alone {next : Option (PhysFrame × PageFlags) → VmProgram cfg} :
    (translate va next).alone port sp source = (next (sp.arch.translate va)).alone port sp source := rfl

@[simp] theorem retain_alone :
    (retain frame next).alone port sp source = next.alone port sp (retainFrame source frame) := rfl

@[simp] theorem free_alone : (free frame next).alone port sp source = next.alone port sp (freeFrame source frame) := rfl

@[simp] theorem shootDown_alone : (shootDown next).alone port sp source = next.alone port sp source := rfl

@[simp] theorem ret_alone : (ret result finish).alone port sp source = (result, finish sp, source) := rfl

end

@[simp] theorem alloc_alone {next : Option PhysFrame → VmProgram cfg} : (VmProgram.alloc next).alone port sp source =
      match allocFrame source with
      | (.none, source) => (next .none).alone port sp source
      | (.some frame, source) => (next (.some frame)).alone port sp source := by
  simp only [alone]
  split <;> rename_i answered <;> rw [answered]

@[simp] theorem unmap_alone {next : Except KError PhysFrame → VmProgram cfg} :
    (VmProgram.unmap va next).alone port sp source = match sp.arch.unmap va with
      | (.error e, _) => (next (.error e)).alone port sp source
      | (.ok frame, arch) => (next (.ok frame)).alone port (sp.setArch arch) source := by
  simp only [alone]
  split
  · rename_i failed
    rw [failed, ArchSpace.unmap_error failed]
    rfl
  · rename_i done
    rw [done]

@[simp] theorem protect_alone {next : Except KError Unit → VmProgram cfg} :
    (VmProgram.protect va flags next).alone port sp source = match sp.arch.protect port va flags with
      | (.error e, _) => (next (.error e)).alone port sp source
      | (.ok (), arch) => (next (.ok ())).alone port (sp.setArch arch) source := by
  simp only [alone]
  split
  · rename_i failed
    rw [failed, protect_error failed]
    rfl
  · rename_i done
    rw [done]

@[simp] theorem map_alone {next : Except KError Unit → VmProgram cfg} :
    (VmProgram.map va frame flags next).alone port sp source = match sp.arch.map port va frame flags source with
      | (.error e, arch, source) => (next (.error e)).alone port (sp.setArch arch) source
      | (.ok (), arch, source) => (next (.ok ())).alone port (sp.setArch arch) source := by
  simp only [alone]
  split <;> rename_i answered <;> rw [answered]

@[simp] theorem releaseBatch_alone {next : VmProgram cfg} :
    (releaseBatch batch next).alone port sp source = next.alone port sp (freeAll source batch) := by
  have freed : (freeEach batch next).alone port sp source = next.alone port sp (freeAll source batch) := by
    induction batch generalizing source with
    | nil => rfl
    | cons frame rest ih => exact ih
  cases batch with
  | nil => rfl
  | cons => exact freed

theorem closeWindow_alone {next : VmProgram cfg} :
    (closeWindow va next pages i).alone port sp source = next.alone port (sp.closeWindow va pages i) source := by
  fun_induction sp.closeWindow va pages i with
  | case1 => rfl
  | case2 _ _ _ ih => exact ih

theorem unmapPages_alone {next : Except KError Unit → VmProgram cfg} :
    (unmapPages base next pages i).alone port sp source =
      (next (sp.unmapPages base pages i).1).alone port (sp.unmapPages base pages i).2 source := by
  fun_induction sp.unmapPages base pages i <;> simp_all [unmapPages]

theorem unmapAndFree_alone {next : Nat → VmProgram cfg} :
    (unmapAndFree base next pages i batch reclaimed).alone port sp source =
      (next (sp.unmapAndFree base source pages i batch reclaimed).1).alone port
        (sp.unmapAndFree base source pages i batch reclaimed).2.1
        (sp.unmapAndFree base source pages i batch reclaimed).2.2 := by
  fun_induction sp.unmapAndFree base source pages i batch reclaimed <;> simp_all [unmapAndFree]

theorem protectPages_alone {next : Except KError Unit → VmProgram cfg} :
    (protectPages base rights next pages i).alone port sp source =
      (next (sp.protectPages port base rights pages i).1).alone port
        (sp.protectPages port base rights pages i).2 source := by
  fun_induction sp.protectPages port base rights pages i <;> simp_all [protectPages]

theorem snapshotPages_alone {next : Except KError Unit → VmProgram cfg} :
    (snapshotPages src dst ro next pages i).alone port sp source =
      match sp.snapshotPages port src dst ro source pages i with
      | (answer, after, left) => (next answer).alone port after left := by
  fun_induction sp.snapshotPages port src dst ro source pages i <;> simp_all [snapshotPages, setArch]

theorem demandFill_alone :
    (demandFill page rights).alone port sp source = (sp.demandFill port page rights source).map .fault id := by
  fun_cases sp.demandFill port page rights source <;> simp_all [demandFill, outcome, setArch]

theorem cowCopy_alone :
    (cowCopy page rights).alone port sp source = (sp.cowCopy port page rights source).map .fault id := by
  fun_cases sp.cowCopy port page rights source <;> simp_all [cowCopy, outcome, setArch]

theorem unmapAndFree_arch {other : AddressSpace cfg} (sp : AddressSpace cfg) (same : other.arch = sp.arch)
    (base pages i : Nat) (source : σ) (batch : List PhysFrame) (reclaimed : Nat) :
    (other.unmapAndFree base source pages i batch reclaimed).2.1.arch =
        (sp.unmapAndFree base source pages i batch reclaimed).2.1.arch ∧
      (other.unmapAndFree base source pages i batch reclaimed).2.2 =
        (sp.unmapAndFree base source pages i batch reclaimed).2.2 := by
  fun_induction sp.unmapAndFree base source pages i batch reclaimed generalizing other with
  | case1 => exact ⟨same,rfl⟩
  | case2 | case3 | case4 => simp_all [AddressSpace.unmapAndFree, setArch]

theorem teardownSlots_alone {records other : AddressSpace cfg} {slots : List Nat} (distinct : slots.Nodup)
    (there : ∀ idx ∈ slots, sp.mappings.cell idx = records.mappings.cell idx) (same : other.arch = sp.arch) :
    ((teardownSlots records slots).alone port other source).2.2 =
      (sp.teardownSlots source slots).1.arch.freeTables port (sp.teardownSlots source slots).2 := by
  induction slots generalizing sp other source with
  | nil =>
    show other.arch.freeTables port source = sp.arch.freeTables port source
    rw [same]
  | cons idx rest ih =>
    obtain ⟨fresh,distinctRest⟩ := nodup_cons.mp distinct
    have here := there idx (mem_cons_self ..)
    unfold teardownSlots AddressSpace.teardownSlots teardownSlot
    rw [← here]
    cases sp.mappings.cell idx with
    | none => exact ih distinctRest (fun j mem => there j (mem_cons_of_mem _ mem)) same
    | some m =>
      dsimp only
      rw [unmapAndFree_alone]
      obtain ⟨arch,left⟩ := unmapAndFree_arch (sp.dropRecord idx) same m.base (m.len / frameSize) 0 source [] 0
      generalize reclaimed : (sp.dropRecord idx).unmapAndFree m.base source (m.len / frameSize) 0 [] 0 = result
        at arch left ⊢
      obtain ⟨_,after,_⟩ := result
      have touches : AddressSpace.Touches port _ (sp.dropRecord idx) after :=
        (unmapAndFree_edits (holds_pagesFrom m.base 0 (m.len / frameSize)) reclaimed).touches
      rw [left]
      refine ih distinctRest (fun j mem => ?_) arch
      have apart : idx ≠ j := fun same => fresh (same ▸ mem)
      rw [touches.mappings]
      exact (Slots.cell_assign_ne _ apart none).trans (there j (mem_cons_of_mem _ mem))

theorem teardown_alone : ((teardown sp).alone port sp source).2.2 = sp.teardown port source :=
  teardownSlots_alone nodup_range (fun _ _ => rfl) rfl

end VmProgram
end Tessera
