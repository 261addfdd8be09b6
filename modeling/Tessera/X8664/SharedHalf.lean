import Tessera.X8664.TableTree

/-!
The kernel in every address space. A user space is made with the kernel's upper-half
entries of that moment, so it follows the kernel space in everything below those
entries; an entry the kernel space gains in its top-level table afterwards is not in
the spaces that already live.
-/
namespace Tessera.X8664
open Function Transition Option BumpFrameAllocator X8664
variable {σ : Type} {mem : Tables}

structure Paging (σ : Type) where
  mem : Tables
  source : σ
  kernel : Nat
  users : Nat → Option Nat

/-- Calls on the kernel space name no user space; they are at upper-half addresses,
    the calls on a user space at lower-half ones. -/
inductive PagingAction where
  | newUser (id : Nat)
  | map (user : Option Nat) (virt : Nat) (frame : PhysFrame) (flags : PageFlags)
  | map2m (virt phys : Nat) (flags : PageFlags)
  | unmap (user : Option Nat) (virt : Nat)
  | protect (user : Option Nat) (virt : Nat) (flags : PageFlags)
  | freeTables (id : Nat)

def UpperHalf (virt : Nat) : Prop := 256 ≤ index virt 39

instance (virt : Nat) : Decidable (UpperHalf virt) := inferInstanceAs (Decidable (_ ≤ _))

theorem index_lt (virt shift : Nat) : index virt shift < 512 := Nat.mod_lt _ (by decide)

namespace Paging
variable [FrameSource σ]

def rootFor (w : Paging σ) (user : Option Nat) (virt : Nat) : Option Nat :=
  match user with
  | .none => if UpperHalf virt then some w.kernel else none
  | .some id => if UpperHalf virt then none else w.users id

def perform (w : Paging σ) : PagingAction → Option (Paging σ)
  | .newUser id =>
    if (w.users id).isSome then none
    else
      match newUser w.mem w.kernel w.source with
      | (.error _, mem, source) => some { w with mem, source }
      | (.ok root, mem, source) => some { w with mem, source, users := update w.users id (some root) }
  | .map user virt frame flags =>
    (w.rootFor user virt).map fun root =>
      match map w.mem root virt frame flags w.source with
      | (_, mem, source) => { w with mem, source }
  | .map2m virt phys flags =>
    (w.rootFor none virt).map fun root =>
      match map2m w.mem root virt phys flags w.source with
      | (_, mem, source) => { w with mem, source }
  | .unmap user virt => (w.rootFor user virt).map fun root => { w with mem := (unmap w.mem root virt).2 }
  | .protect user virt flags =>
    (w.rootFor user virt).map fun root => { w with mem := (protect w.mem root virt flags).2 }
  | .freeTables id =>
    (w.users id).map fun root =>
      { w with source := freeTables w.mem root w.source, users := update w.users id none }

def Step (w : Paging σ) (a : PagingAction) (w' : Paging σ) : Prop := w.perform a = some w'

/-- The top-level slot of a kernel mapping is there already, or no user space is. -/
def SlotReady (w : Paging σ) : PagingAction → Prop
  | .map none virt _ _ | .map2m virt _ _ =>
    w.mem w.kernel (index virt 39) = none → ∀ id, w.users id = none
  | _ => True

variable [CountedSource σ] {w w' : Paging σ}

/-- The spaces over one structure of tables, with the kernel's upper half in each. -/
structure Joined (place : Nat → Option Place) (w : Paging σ) : Prop where
  sound : Sound place w.mem w.source
  kernel : place w.kernel = some ⟨none, []⟩
  users : ∀ id root, w.users id = some root → place root = some ⟨some id, []⟩
  agree : ∀ id root idx, w.users id = some root → 256 ≤ idx → idx < 512 → w.mem root idx = w.mem w.kernel idx

variable {place : Nat → Option Place} {user : Option Nat} {virt root : Nat} {source : σ}

/-- A call on one space that keeps the top-level tables, but for an entry of its own
    half, or any entry while there is no user space. -/
theorem Joined.keep (joined : Joined place w) (sameKernel : w'.kernel = w.kernel) (sameUsers : w'.users = w.users)
    (sound : Sound place' w'.mem w'.source) (keeps : Keeps place place') {filled : Nat → Nat → Prop}
    (roots : RootsKept place w.mem w'.mem filled)
    (harmless : ∀ t idx, filled t idx → 256 ≤ idx → ∀ id, w.users id = none) : Joined place' w' := by
  refine ⟨sound,sameKernel ▸ keeps _ _ joined.kernel,fun id root live => ?_, fun id root idx live upper inside => ?_⟩
  · rw [sameUsers] at live
    exact keeps _ _ (joined.users id root live)
  rw [sameUsers] at live
  rw [sameKernel]
  have untouched : ∀ t q, place t = some q → q.path = [] → w'.mem t idx = w.mem t idx := by
    intro t q placed top
    rcases roots t q idx placed top with same | changed
    · exact same
    · rw [harmless t idx changed upper id] at live
      cases live
  rw [untouched root _ (joined.users id root live) rfl, untouched w.kernel _ joined.kernel rfl]
  exact joined.agree id root idx live upper inside

omit [FrameSource σ] [CountedSource σ] in
theorem rootFor_cases (found : w.rootFor user virt = some root) : (user = none ∧ UpperHalf virt ∧ root = w.kernel) ∨
      ∃ id, user = some id ∧ ¬UpperHalf virt ∧ w.users id = some root := by
  unfold rootFor at found
  split at found
  · split at found
    · rename_i upper
      cases found
      exact .inl ⟨rfl,upper,rfl⟩
    · cases found
  split at found
  · cases found
  · rename_i id lower
    exact .inr ⟨id,rfl,lower,found⟩

theorem Joined.rootFor (joined : Joined place w) (found : w.rootFor user virt = some root) :
    ∃ o, place root = some ⟨o, []⟩ := by
  rcases rootFor_cases found with ⟨_,_,rfl⟩ | ⟨id,_,_,live⟩
  · exact ⟨none,joined.kernel⟩
  · exact ⟨some id,joined.users id root live⟩

omit [FrameSource σ] [CountedSource σ] in
theorem filled_harmless (found : w.rootFor user virt = some root)
    (ready : user = none → w.mem w.kernel (index virt 39) = none → ∀ id, w.users id = none) :
    ∀ t idx, TopSlot w.mem root virt t idx → 256 ≤ idx → ∀ id, w.users id = none := by
  intro _ _ filled upper
  obtain ⟨_,rfl,missing⟩ := filled
  rcases rootFor_cases found with ⟨kernelCall,_,rfl⟩ | ⟨_,_,lower,_⟩
  · exact ready kernelCall missing
  · exact absurd upper lower

theorem Joined.newUser (id : Nat) (joined : Joined place w)
    (done : newUser w.mem w.kernel w.source = (result, mem, source)) :
    ∃ place', (∀ e, result = .error e → Joined place' { w with mem, source }) ∧
      ∀ root, result = .ok root → Joined place' { w with mem, source, users := update w.users id (some root) } := by
  unfold X8664.newUser at done
  split at done
  · rename_i drawn
    cases done
    have sound : Sound place w.mem source :=
      ⟨joined.sound.aligned,joined.sound.below,CountedSource.alloc_none joined.sound.counts drawn⟩
    exact ⟨place,fun _ _ => ⟨sound,joined.kernel,joined.users,joined.agree⟩,fun root ok => by cases ok⟩
  rename_i frame _ drawn
  cases done
  have isNew := joined.sound.fresh drawn
  have other : ∀ t q, place t = some q → t ≠ frame.base := by
    intro t q placed same
    rw [same, isNew] at placed
    cases placed
  have copied : ∀ t q, place t = some q →
      ((w.mem.clearFrame frame.base).copyUpper w.kernel frame.base) t = w.mem t := by
    intro t q placed
    simp [Tables.copyUpper, Tables.clearFrame, update_of_ne (other t q placed)]
  have upper : ∀ idx, ((w.mem.clearFrame frame.base).copyUpper w.kernel frame.base) frame.base idx =
      if 256 ≤ idx ∧ idx < 512 then w.mem w.kernel idx else none := by
    intro idx
    simp [Tables.copyUpper, Tables.clearFrame, update_of_ne (other w.kernel _ joined.kernel)]
  have grown := keeps_update (q := ⟨some id, []⟩) isNew
  have sound : Sound (update place frame.base (some ⟨some id, []⟩))
      ((w.mem.clearFrame frame.base).copyUpper w.kernel frame.base) source := by
    refine joined.sound.extend isNew drawn (fun t q idx e placed short entry isTable => ?_)
      (fun idx e entry isTable => ?_)
    · rw [copied t q placed] at entry
      exact grown _ _ (joined.sound.below t q idx e placed short entry isTable)
    rw [upper] at entry
    split at entry
    · rename_i inside
      rw [joined.sound.below w.kernel _ idx e joined.kernel (by simp) entry isTable]
      simp [Place.child, inside.1]
    · cases entry
  refine ⟨update place frame.base (some ⟨some id, []⟩),fun _ failed => (by cases failed),fun root ok => ?_⟩
  cases ok
  refine ⟨sound,grown _ _ joined.kernel,fun i root live => ?_,fun i root idx live high inside => ?_⟩
  · rcases update_eq_some live with ⟨rfl,new⟩ | ⟨_,old⟩
    · cases new
      exact update_self ..
    · exact grown _ _ (joined.users i root old)
  · dsimp only
    rw [copied w.kernel _ joined.kernel]
    rcases update_eq_some live with ⟨rfl,new⟩ | ⟨_,old⟩
    · cases new
      rw [upper, if_pos ⟨high,inside⟩]
    · rw [copied root _ (joined.users i root old)]
      exact joined.agree i root idx old high inside

theorem Joined.freeTables {id : Nat} (joined : Joined place w) (live : w.users id = some root) :
    Joined (fun t => (place t).filter fun q => q.owner ≠ some id)
      { w with source := freeTables w.mem root w.source, users := update w.users id none } := by
  refine ⟨freeTables_sound joined.sound (joined.users id root live),?_,fun i r there => ?_, fun i r idx there => ?_⟩
  · simp [joined.kernel]
  · rcases update_eq_some there with ⟨_,new⟩ | ⟨same,old⟩
    · cases new
    · simp [joined.users i r old, same]
  · rcases update_eq_some there with ⟨_,new⟩ | ⟨_,old⟩
    · cases new
    · exact joined.agree i r idx old

theorem Joined.step (joined : Joined place w) (ready : w.SlotReady a) (step : Step w a w') :
    ∃ place', Joined place' w' := by
  cases a with try obtain ⟨root,found,rfl⟩ := map_eq_some_iff.mp step
  | newUser id =>
    simp only [Step, perform] at step
    split at step
    · cases step
    split at step
    · rename_i e _ _ made
      cases step
      obtain ⟨place',failed,_⟩ := joined.newUser id made
      exact ⟨place',failed e rfl⟩
    rename_i root _ _ made
    cases step
    obtain ⟨place',_,ok⟩ := joined.newUser id made
    exact ⟨place',ok root rfl⟩
  | map =>
    obtain ⟨_,placed⟩ := joined.rootFor found
    obtain ⟨place',sound,keeps,roots⟩ := map_sound joined.sound placed rfl
    refine ⟨place',joined.keep rfl rfl sound keeps roots (filled_harmless found fun kernelCall => ?_)⟩
    subst kernelCall
    exact ready
  | map2m =>
    obtain ⟨_,placed⟩ := joined.rootFor found
    obtain ⟨place',sound,keeps,roots⟩ := map2m_sound joined.sound placed rfl
    exact ⟨place',joined.keep rfl rfl sound keeps roots (filled_harmless found fun _ => ready)⟩
  | unmap =>
    obtain ⟨_,placed⟩ := joined.rootFor found
    obtain ⟨sound,roots⟩ := unmap_sound joined.sound placed rfl
    exact ⟨place,joined.keep rfl rfl sound (fun _ _ => id) roots fun _ _ none => none.elim⟩
  | protect =>
    obtain ⟨_,placed⟩ := joined.rootFor found
    obtain ⟨sound,roots⟩ := protect_sound joined.sound placed rfl
    exact ⟨place,joined.keep rfl rfl sound (fun _ _ => id) roots fun _ _ none => none.elim⟩
  | freeTables => exact ⟨_,joined.freeTables found⟩

theorem joined_new (counts : CountedSource.Counts (fun _ => 0) source)
    (created : new mem source = (.ok root, mem', source')) :
    Joined (update (fun _ => none) root (some ⟨none, []⟩)) (⟨mem', source', root, fun _ => none⟩ : Paging σ) := by
  unfold new at created
  split at created
  · cases created
  rename_i drawn
  cases created
  have bare : Sound (fun _ => none) mem source := by
    refine ⟨?_,?_,by simpa using counts⟩
    · intro t q there
      cases there
    · intro t q idx e there
      cases there
  refine ⟨bare.extend rfl drawn (fun _ _ _ _ there => by cases there) (fun _ _ entry => ?_),
    update_self ..,fun _ _ live => (by cases live),fun _ _ _ live => (by cases live)⟩
  simp [Tables.clearFrame] at entry

end Paging

variable {a b virt shift : Nat} {rest : List Nat}

section
variable (same : mem a (index virt shift) = mem b (index virt shift))
include same

theorem passed_congr : passed mem a virt (shift :: rest) = passed mem b virt (shift :: rest) := by
  unfold passed
  rw [same]

theorem findTable_congr : findTable mem a virt (shift :: rest) = findTable mem b virt (shift :: rest) := by
  unfold findTable
  rw [same]

end

namespace Paging
variable [FrameSource σ] [CountedSource σ]

/-- In every run in which the kernel space gains no top-level entry while user spaces
    live, each of them translates every upper-half address as the kernel space does:
    the processor passes the same entries, and the kernel's own lookup finds the same. -/
theorem kernel_is_mapped_in_every_space {mem mem' : Tables} {source source' : σ} {root : Nat}
    (counts : CountedSource.Counts (fun _ => 0) source) (created : new mem source = (.ok root, mem', source'))
    {history : List PagingAction} {w : Paging σ}
    (run : Disciplined (fun _ => SlotReady) Step ⟨mem', source', root, fun _ => none⟩ history w)
    {id user virt : Nat} (live : w.users id = some user) (upper : UpperHalf virt) :
    walk w.mem user virt = walk w.mem w.kernel virt ∧ translate w.mem user virt = translate w.mem w.kernel virt := by
  obtain ⟨place,joined⟩ : ∃ place, Joined place w := by
    refine run.invariant (fun _ w => ∃ place, Joined place w) ?_ ⟨_,joined_new counts created⟩
    intro _ _ _ _ before ready step
    obtain ⟨_,joined⟩ := before
    exact joined.step ready step
  have same := joined.agree id user (index virt 39) live upper (index_lt virt 39)
  refine ⟨passed_congr same,?_⟩
  unfold translate find4k
  rw [findTable_congr same]

def memory : List MemoryRegion := [⟨0x100000, 0x100000, .usable⟩]

def data : PhysFrame := ⟨0x300000, by decide⟩

def booted : Option (Paging (BumpFrameAllocator Config.default)) :=
  match new (fun _ _ => none) (BumpFrameAllocator.new memory) with
  | (.ok root, mem, source) => some ⟨mem, source, root, fun _ => none⟩
  | (.error _, _, _) => none

theorem booted_eq_some (h : booted = some w) : ∃ mem source root, w = ⟨mem, source, root, fun _ => none⟩ ∧
      new (fun _ _ => none) (BumpFrameAllocator.new memory) = (.ok root, mem, source) := by
  unfold booted at h
  split at h
  · rename_i root mem source created
    cases h
    exact ⟨mem,source,root,rfl,created⟩
  · cases h

def slotThere (w : Paging σ) : PagingAction → Bool
  | .map none virt _ _ | .map2m virt _ _ => (w.mem w.kernel (index virt 39)).isSome
  | _ => true

omit [FrameSource σ] [CountedSource σ] in
theorem ready_of_slotThere {w : Paging σ} {a : PagingAction} (h : w.slotThere a = true) : w.SlotReady a := by
  cases a with
  | map user =>
    cases user with
    | none =>
      intro missing
      simp [slotThere, missing] at h
    | some => trivial
  | map2m =>
    intro missing
    simp [slotThere, missing] at h
  | _ => trivial

/-- A kernel stack mapped before a user space is made, and another one in the same
    top-level slot afterwards: the user space has it too. -/
theorem later_stack_is_mapped_in_user_space : ∃ mem source root w user,
      new (fun _ _ => none) (BumpFrameAllocator.new memory : BumpFrameAllocator Config.default) =
        (.ok root, mem, source) ∧ Disciplined (fun _ => SlotReady) Step ⟨mem, source, root, fun _ => none⟩
        [.map none 0xffffc00800000000 data PageFlags.rw, .newUser 1,
          .map none 0xffffc00800200000 data PageFlags.rw] w ∧
      w.users 1 = some user ∧ translate w.mem user 0xffffc00800200000 = some (data, PageFlags.rw) := by
  have done : (booted.bind fun w => (w.perform (.map none 0xffffc00800000000 data PageFlags.rw)).bind fun w =>
      performAll (fun _ w a => w.slotThere a = true) perform [.map none 0xffffc00800000000 data PageFlags.rw] w
        [.newUser 1, .map none 0xffffc00800200000 data PageFlags.rw]).any (fun w =>
      (w.users 1).isSome && decide (translate w.mem w.kernel 0xffffc00800200000 = some (data, PageFlags.rw))) =
      true := by decide +kernel
  obtain ⟨w,performed,checked⟩ := (any_eq_true _ _).mp done
  obtain ⟨_,boot,performed⟩ := bind_eq_some_iff.mp performed
  obtain ⟨mem,source,root,rfl,created⟩ := booted_eq_some boot
  obtain ⟨first,step,performed⟩ := bind_eq_some_iff.mp performed
  have begun : Disciplined (fun _ => SlotReady) Step ⟨mem, source, root, fun _ => none⟩
      ([] ++ [.map none 0xffffc00800000000 data PageFlags.rw]) first :=
    Disciplined.start.more (fun _ _ => rfl) step
  have run := begun.performAll_of (fun _ _ _ => ready_of_slotThere) performed
  rw [Bool.and_eq_true, decide_eq_true_iff] at checked
  obtain ⟨user,live⟩ := isSome_iff_exists.mp checked.1
  have upper : UpperHalf 0xffffc00800200000 := by decide
  have same := (kernel_is_mapped_in_every_space
    (BumpFrameAllocator.counts_new (BumpFrameAllocator.single_region_apart _)) created run live upper).2
  exact ⟨mem,source,root,w,user,created,run,live,same.trans checked.2⟩

/-- A kernel stack mapped in a slot that was empty when the user space was made: the
    kernel space translates its address and the user space does not. -/
theorem later_slot_is_missing_in_user_space : ∃ mem source root w user,
      new (fun _ _ => none) (BumpFrameAllocator.new memory : BumpFrameAllocator Config.default) =
        (.ok root, mem, source) ∧ Run Step ⟨mem, source, root, fun _ => none⟩
        [.newUser 1, .map none 0xffffc00800000000 data PageFlags.rw] w ∧
      w.users 1 = some user ∧ UpperHalf 0xffffc00800000000 ∧
      translate w.mem w.kernel 0xffffc00800000000 = some (data, PageFlags.rw) ∧
      (walk w.mem w.kernel 0xffffc00800000000).length = 4 ∧ walk w.mem user 0xffffc00800000000 = [] := by
  have done : (booted.bind fun w => performAll (fun _ _ _ => True) perform [] w
      [.newUser 1, .map none 0xffffc00800000000 data PageFlags.rw]).any (fun w => (w.users 1).any fun user =>
        decide (translate w.mem w.kernel 0xffffc00800000000 = some (data, PageFlags.rw) ∧
          (walk w.mem w.kernel 0xffffc00800000000).length = 4 ∧ walk w.mem user 0xffffc00800000000 = [])) =
      true := by decide +kernel
  obtain ⟨w,performed,checked⟩ := (any_eq_true _ _).mp done
  obtain ⟨_,boot,performed⟩ := bind_eq_some_iff.mp performed
  obtain ⟨mem,source,root,rfl,created⟩ := booted_eq_some boot
  obtain ⟨user,live,facts⟩ := (any_eq_true _ _).mp checked
  exact ⟨mem,source,root,w,user,created,Disciplined.start.performAll performed,live,by decide,
    of_decide_eq_true facts⟩

end Paging
end Tessera.X8664
