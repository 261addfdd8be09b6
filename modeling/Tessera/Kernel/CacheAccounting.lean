import Tessera.Kernel.PageSupply
import Tessera.Kernel.PagerBindings
import Tessera.Kernel.ResidentPages

/-!
The budget of the page cache against the pages that are resident. A supply takes a place
in the budget and an eviction gives one back. An object that is taken down with pages of
its own gives none back, and neither does a supply that waited for a write-back and
finds its source unmapped. Where neither happens, the budget counts the resident pages
of the live objects that a service backs.
-/
namespace Tessera
open MemoryTable Option List
variable {cfg : Config} {σ : Type}

def MemoryTable.Served (t : MemoryTable cfg) (o : ObjectId) : Prop := ∀ e, t.find o = some e → e.pager.isSome = true

variable {t : MemoryTable cfg} {o : ObjectId}

theorem MemoryTable.Served.editCache (served : t.Served o) (o' : ObjectId)
    (f : ObjectCache cfg → ObjectCache cfg) : (t.editCache o' f).Served o := by
  intro e found
  rw [find_editCache] at found
  split at found
  · obtain ⟨old,before,rfl⟩ := map_eq_some_iff.mp found
    exact served old before
  · exact served e found

theorem MemoryTable.served_of_anyPage (sound : t.Sound) {choose : ObjectCache cfg → Option Nat}
    (chosen : t.anyPage choose = some (o, off)) : t.Served o := by
  obtain ⟨e,live,picked⟩ := exists_of_findSome?_eq_some chosen
  obtain ⟨_,here⟩ := Slots.mem_live.mp live
  split at picked
  · cases picked
  rename_i serves
  obtain ⟨_,_,same⟩ := map_eq_some_iff.mp picked
  have named : e.object = o := congrArg Prod.fst same
  intro _ found
  rw [← named, sound.find_of_cell here] at found
  cases found
  cases pager : e.pager with
  | none => simp [pager] at serves
  | some => rfl

namespace Kernel

/-- The budget is so many places ahead of the resident pages. -/
structure Accounted (ahead : Nat) (k : Kernel cfg σ) : Prop where
  sound : k.memory.Sound
  roomy : k.memory.AllRoomy
  counted : k.cacheBudget.ordinaryInUse = k.memory.cachedPages + ahead

variable {ahead : Nat} {k k' : Kernel cfg σ}

theorem accounted_cacheTake (acc : k.Accounted 0) (taken : k.cacheTake = some k') : k'.Accounted 1 := by
  obtain ⟨_,drawn,rfl⟩ := map_eq_some_iff.mp taken
  obtain ⟨_,drawn⟩ := ite_none_right_eq_some.mp drawn
  cases drawn
  exact ⟨acc.sound,acc.roomy,congrArg (· + 1) acc.counted⟩

theorem accounted_cacheGiveBack (acc : k.Accounted 1) : k.cacheGiveBack.Accounted 0 :=
  ⟨acc.sound,acc.roomy,congrArg (· - 1) acc.counted⟩

theorem armed_offset (p : PageEntry) : (ObjectCache.armed p).offset = p.offset := by
  unfold ObjectCache.armed
  split <;> rfl

section
variable (acc : k.Accounted ahead)
include acc

theorem Accounted.of_loosens (loosens : Loosens k k') : k'.Accounted ahead := by
  refine ⟨loosens.memory.sound acc.sound,acc.roomy.eases loosens.memory,?_⟩
  rw [loosens.cacheBudget, cachedPages_eases loosens.memory]
  exact acc.counted

theorem Accounted.of_same (memory : k'.memory = k.memory)
    (budget : k'.cacheBudget = k.cacheBudget) : k'.Accounted ahead :=
  ⟨memory ▸ acc.sound,memory ▸ acc.roomy,by rw [memory, budget]; exact acc.counted⟩

section
variable (object : ObjectId)
include object

theorem Accounted.edit (keeps : ∀ e, (f e).object = e.object ∧ (f e).base = e.base ∧
      (f e).pages = e.pages ∧ (f e).pager = e.pager)
    (roomy : ∀ e, k.memory.find object = some e → MemoryTable.Roomy (f e)) :
    (k.setMemory (k.memory.update object f)).Accounted ahead := by
  refine ⟨acc.sound.update object fun e => ⟨(keeps e).1,(keeps e).2.1,(keeps e).2.2.1⟩,
    acc.roomy.update object roomy,acc.counted.trans ?_⟩
  rw [setMemory, k.memory.cachedPages_update object fun e => ⟨(keeps e).2.1,(keeps e).2.2.1,(keeps e).2.2.2⟩]

theorem Accounted.editCache (off : Nat) (keeps : ∀ p, (f p).offset = p.offset) :
    (k.setMemory (k.memory.editCache object (·.edit off f))).Accounted ahead := by
  refine acc.edit object ?_ fun _ found => (acc.roomy.find found).edit off keeps
  exact fun _ => ⟨rfl,rfl,rfl,rfl⟩

theorem accounted_writeBack (off : Nat)
    (req : WriteBackRequest) : (k.writeBack object off req).2.Accounted ahead := by
  have begun := acc.editCache object off armed_offset
  unfold writeBack
  split
  · exact acc
  cases req with
  | unsent => exact acc
  | refused => exact begun.editCache object off (f := ObjectCache.disarmed) fun _ => rfl
  | sent => exact begun

theorem accounted_writtenBack (off : Nat)
    (persisted : Bool) : (k.writtenBack object off persisted).2.Accounted ahead := by
  have ended := acc.editCache object off (f := ObjectCache.disarmed) fun _ => rfl
  unfold writtenBack
  dsimp only [endWriteBack]
  split
  · exact ended.editCache object off (f := ObjectCache.cleaned) fun _ => rfl
  · exact ended

end

end

theorem served_writtenBack (served : k.memory.Served o) (object : ObjectId) (off : Nat)
    (persisted : Bool) : (k.writtenBack object off persisted).2.memory.Served o := by
  have ended : (k.memory.endWriteBack object off).2.Served o := served.editCache object fun c => (c.endWriteBack off).2
  unfold writtenBack
  dsimp only [setMemory]
  split
  · exact ended.editCache object (·.markClean off)
  · exact ended

section
variable [FrameSource σ]
variable {ahead slot source : Nat} {k : Kernel cfg σ} {object owner o : ObjectId}
  {memory t t' : MemoryTable cfg}

theorem accounted_evictPage (acc : k.Accounted ahead) (served : k.memory.Served object) (off : Nat) :
    (k.evictPage object off).2.Accounted ahead := by
  unfold evictPage
  rcases k.memory.evict_cases object off with kept | ⟨_,_,_,_,_,gone⟩
  · rw [kept]
    exact acc
  have count := cachedPages_evict acc.sound served gone
  rw [gone]
  generalize table : update _ object _ = memory at count ⊢
  have sound : memory.Sound := table ▸ (acc.sound.setSlots _).update object fun _ => ⟨rfl,rfl,rfl⟩
  have roomy : memory.AllRoomy := table ▸ MemoryTable.AllRoomy.update acc.roomy object fun _ found =>
    (acc.roomy.find found).forget off
  have swept := spares_unmapObjectPage { k with memory } object off
  refine ⟨?_,?_,?_⟩
  · show (unmapObjectPage { k with memory } object off).memory.Sound
    rw [swept.memory]
    exact sound
  · show (unmapObjectPage { k with memory } object off).memory.AllRoomy
    rw [swept.memory]
    exact roomy
  show (unmapObjectPage { k with memory } object off).cacheBudget.ordinaryInUse - 1 =
    (unmapObjectPage { k with memory } object off).memory.cachedPages + ahead
  rw [swept.memory, swept.cacheBudget]
  have before := acc.counted
  dsimp only at before ⊢
  omega

theorem accounted_evicts (k : Kernel cfg σ) (object : ObjectId) (off : Nat)
    (chosen : k.memory.anyEvictable = some (object, off)) (acc : k.Accounted ahead) :
    (k.evictPage object off).2.Accounted ahead := accounted_evictPage acc (served_of_anyPage acc.sound chosen) off

theorem accounted_reclaimForPressure (passes : Nat) (acc : k.Accounted ahead) :
    (reclaimForPressure passes k).2.Accounted ahead :=
  reclaimForPressure_rule accounted_evicts passes acc

theorem accounted_allocFrameReclaiming (acc : k.Accounted ahead) : k.allocFrameReclaiming.2.Accounted ahead :=
  allocFrameReclaiming_rule accounted_evicts (fun _ _ acc => acc.of_same rfl rfl) acc

omit [FrameSource σ] in
theorem accounted_supply (acc : k.Accounted 1) (fits : cfg.maxObjectPages ≤ cfg.maxCachedPages)
    (placed : k.memory.supply object page frame = (.ok (), memory)) : (k.setMemory memory).Accounted 0 := by
  rcases supply_cases acc.roomy fits object page frame with ⟨_,refused⟩ | ⟨e,found,backed,inside,empty,filled⟩
  · rw [refused] at placed
    cases placed
  rw [filled] at placed
  cases placed
  have count := cachedPages_place acc.sound found backed inside (some frame)
    (f := fun e' => { e' with cache := (e.cache.install (page * frameSize)).2 }) fun _ => ⟨rfl,rfl,rfl⟩
  rw [empty] at count
  refine ⟨(acc.sound.setSlots _).update object fun _ => ⟨rfl,rfl,rfl⟩,?_,acc.counted.trans ?_⟩
  · refine MemoryTable.AllRoomy.update acc.roomy object fun e' also => ?_
    rw [show k.memory.find object = some e' from also] at found
    cases found
    exact ((acc.roomy.find also).install fits inside).2
  · exact count.symm

variable {port : ArchPort}

def Readable (port : ArchPort) (k : Kernel cfg σ) (slot source : Nat) : Prop :=
  ∀ p ∈ k.processes.cell slot, p.space.validateUserRange port source frameSize false = .ok ()

omit [FrameSource σ] in
theorem Readable.of_sameRecords (readable : Readable port k slot source)
    (same : SameRecords k k') : Readable port k' slot source := by
  intro p' here
  have rel := same slot
  unfold Readable at readable
  rw [show k'.processes.cell slot = some p' from here] at rel
  generalize k.processes.cell slot = c at rel readable
  cases rel with
  | some mappings => exact readable_of_mappings mappings (readable _ rfl)

theorem accounted_fillPage (acc : k.Accounted 1) (fits : cfg.maxObjectPages ≤ cfg.maxCachedPages)
    (readable : Readable port k slot source) (object : ObjectId) (page : Nat) :
    (k.fillPage port slot object page source).2.Accounted 0 := by
  have drawn := accounted_allocFrameReclaiming acc
  have same := sameRecords_allocFrameReclaiming k
  unfold fillPage
  split
  · rename_i none
    rw [none] at drawn
    exact accounted_cacheGiveBack drawn
  rename_i frame k₁ some
  rw [some] at drawn same
  split
  · exact accounted_cacheGiveBack (drawn.of_same rfl rfl)
  rename_i p here
  rw [readPage_ok (readable.of_sameRecords same p here)]
  dsimp only
  split
  · rename_i placed
    exact accounted_supply drawn fits placed
  rename_i memory refused
  have kept : memory = k₁.memory := by
    rcases supply_cases drawn.roomy fits object page frame with ⟨_,stays⟩ | ⟨_,_,_,_,_,filled⟩
    · rw [stays] at refused
      cases refused
      rfl
    · rw [filled] at refused
      cases refused
  exact accounted_cacheGiveBack (drawn.of_same kept rfl)

section
variable (acc : k.Accounted 0)
include acc

theorem reclaimOnePage_keeps (req : WriteBackRequest) :
    (k.reclaimOnePage req).2.Accounted 0 ∧ SameRecords k (k.reclaimOnePage req).2 := by
  have evicts {k : Kernel cfg σ} (acc : k.Accounted 0) {object : ObjectId}
      (served : k.memory.Served object) (off : Nat) :
      (k.evictFor object off).2.Accounted 0 ∧ SameRecords k (k.evictFor object off).2 := by
    have evicted := accounted_evictPage acc served off
    have same := sameRecords_evictPage k object off
    unfold evictFor
    split
    all_goals
      rename_i done
      rw [done] at evicted same
      exact ⟨evicted,same⟩
  unfold reclaimOnePage
  split
  · rename_i off chosen
    exact evicts acc (served_of_anyPage acc.sound chosen) off
  split
  · exact ⟨acc,.refl k⟩
  rename_i object off chosen
  have asked := accounted_writeBack acc object off req
  have kept : (k.writeBack object off req).2.processes = k.processes := by
    unfold writeBack
    split
    · rfl
    · cases req <;> rfl
  split
  · rename_i k₁ clean
    have unchanged : k₁ = k := by
      unfold writeBack at clean
      split at clean
      · exact (congrArg Prod.snd clean).symm
      · cases req <;> cases clean
    rw [unchanged]
    exact evicts acc (served_of_anyPage acc.sound chosen) off
  · rename_i failed
    rw [failed] at asked kept
    exact ⟨asked,.of_processes kept⟩
  · rename_i waits
    rw [waits] at asked kept
    exact ⟨asked,.of_processes kept⟩

section
variable (fits : cfg.maxObjectPages ≤ cfg.maxCachedPages)
include fits

section
variable (readable : Readable port k slot source)
include readable

theorem accounted_takeAndFill (object : ObjectId) (page : Nat) :
    (k.takeAndFill port slot object page source).2.Accounted 0 := by
  unfold takeAndFill
  split
  · exact acc
  rename_i taken
  refine accounted_fillPage (accounted_cacheTake acc taken) fits (readable.of_sameRecords ?_) object page
  obtain ⟨_,_,rfl⟩ := map_eq_some_iff.mp taken
  exact .of_processes rfl

theorem accounted_supplyPage (object : ObjectId) (page : Nat) (req : WriteBackRequest) :
    (k.supplyPage port slot object page source req).2.Accounted 0 := by
  obtain ⟨reclaimed,same⟩ := reclaimOnePage_keeps acc req
  unfold supplyPage
  split
  · rename_i taken
    have filled := accounted_takeAndFill acc fits readable object page
    rwa [takeAndFill, taken] at filled
  split
  all_goals
    rename_i done
    rw [done] at reclaimed same
  · exact reclaimed
  · exact reclaimed
  · exact accounted_takeAndFill reclaimed fits (readable.of_sameRecords same) object page

theorem accounted_finishSupply (object : ObjectId) (page : Nat)
    (served : k.memory.Served target) (off : Nat) (persisted : Bool) :
    (k.finishSupply port slot object page source target off persisted).2.Accounted 0 := by
  have answered := accounted_writtenBack acc target off persisted
  have kept : SameRecords k (k.writtenBack target off persisted).2 := by
    unfold writtenBack
    dsimp only
    split <;> exact .of_processes rfl
  have still := served_writtenBack served target off persisted
  unfold finishSupply
  split
  · rename_i failed
    rw [failed] at answered
    exact answered
  rename_i k₁ clean
  rw [clean] at answered kept still
  have evicted := accounted_evictPage answered still off
  have same := kept.trans (sameRecords_evictPage k₁ target off)
  split
  · rename_i stays
    rw [stays] at evicted
    exact evicted
  rename_i gone
  rw [gone] at evicted same
  exact accounted_takeAndFill evicted fits (readable.of_sameRecords same) object page

end

/-- What a supply reads was checked before the budget was touched, and evictions leave it
    readable. -/
theorem accounted_pageSupply (slot : Nat) (handle : Handle) (off source : Nat) (req : WriteBackRequest) :
    (k.pageSupply port slot handle off source req).2.Accounted 0 := by
  fun_cases k.pageSupply port slot handle off source req with
  | case8 =>
    rename_i here _ _ _ _ _ _ _ _ checked
    refine accounted_supplyPage acc fits ?_ _ _ req
    intro p' also
    rw [show k.processes.cell slot = some p' from also] at here
    cases here
    exact checked
  | _ => exact acc

end

end

omit [FrameSource σ] in
theorem framesOf_eases (eases : MemoryTable.Eases t t') (sound : t.Sound) (o : ObjectId) :
    t'.framesOf o = t.framesOf o := by
  have rel := eases.find sound o
  unfold framesOf
  generalize t.find o = a, t'.find o = b at rel
  cases rel with
  | none => rfl
  | some eased =>
    rw [map_some, eased.base, eased.pages]
    exact framesIn_congr fun s _ _ => congrFun eases.slots s

theorem accounted_destroyRecord (acc : k.Accounted ahead)
    (vacant : (k.memory.pagerOf object).isSome = true → k.memory.framesOf object = []) :
    (k.destroyRecord object).Accounted ahead := by
  refine ⟨acc.sound.destroy object _,acc.roomy.destroy object _,acc.counted.trans ?_⟩
  rw [destroyRecord_memory, cachedPages_destroy acc.sound vacant]

theorem accounted_memoryDestroy (acc : k.Accounted ahead)
    (vacant : (k.memory.pagerOf object).isSome = true → k.memory.framesOf object = []) :
    (k.memoryDestroy object).Accounted ahead := by
  have loosened := loosens_detachMemory k object
  have detached := acc.of_loosens loosened
  have unbound : ((k.detachMemory object).2.pagingUnbind object).Accounted ahead := detached.of_same rfl rfl
  refine accounted_destroyRecord unbound fun backed => ?_
  have before := pagerOf_eases loosened.memory acc.sound object
  exact (framesOf_eases loosened.memory acc.sound object).trans (vacant (before ▸ backed))

def Vacates (k : Kernel cfg σ) (owner object : ObjectId) : Prop :=
  (k.memory.pagerOf object).isSome = true →
    (k.memory.removeHolder object owner).1 = true ∨ k.memory.framesOf object = []

theorem framesOf_destroy_other (sound : t.Sound) (other : o ≠ object) (src : σ) :
    (t.destroy object src).2.1.framesOf o = t.framesOf o := by
  have finds := find_destroy_other sound other src
  unfold framesOf
  rw [finds]
  cases found : t.find o with
  | none => rfl
  | some f =>
    refine framesIn_congr fun s above below => ?_
    rcases t.destroy_cases object src with ⟨e,gone,free⟩ | ⟨kept,_⟩
    · obtain ⟨named,j,index,here⟩ := cell_of_find gone
      obtain ⟨mine,i,_,there⟩ := cell_of_find found
      unfold MemoryTable.destroy
      rw [index, gone]
      dsimp only
      rw [if_neg (by simp [free])]
      refine if_neg fun within => ?_
      have apart : i ≠ j := by
        rintro rfl
        rw [here] at there
        cases there
        exact other (mine.symm.trans named)
      refine sound.apart i j f e there here apart s ⟨above,below⟩ ⟨within.1,?_⟩
      omega
    · rw [kept]

theorem vacates_releaseHeld_other (sound : k.memory.Sound) (other : o ≠ object) (vacates : k.Vacates owner o) :
    (releaseHeld owner k object).Vacates owner o := by
  have finds := find_releaseHeld_other sound owner other
  have frames : (releaseHeld owner k object).memory.framesOf o = k.memory.framesOf o := by
    obtain ⟨_,loosened,_,same | ⟨_,destroyed⟩⟩ := releaseHeld_cases k owner object
    · rw [same, framesOf_eases loosened.memory sound]
    · rw [destroyed, destroyRecord_memory, framesOf_destroy_other (loosened.memory.sound sound) other,
        framesOf_eases loosened.memory sound]
  intro backed
  rw [frames]
  rw [pagerOf, finds] at backed
  rcases vacates backed with held | empty
  · left
    unfold removeHolder at held ⊢
    rw [finds]
    cases found : k.memory.find o with
    | none | some =>
      rw [found] at held
      exact held
  · exact .inr empty

section
variable (acc : k.Accounted ahead)
include acc

theorem accounted_handleClose
    (vacates : ∀ p object handles, k.processes.cell slot = some p → p.handles.dropHandle handle = (.ok object, handles) →
      handles.holds object = false → k.Vacates p.id object) : (k.handleClose slot handle).2.Accounted ahead := by
  rcases handleClose_cases k slot handle with loosened | ⟨p,object,handles,_,caller,dropped,unheld,last,loosened,destroyed⟩
  · exact acc.of_loosens loosened
  rw [destroyed]
  refine accounted_memoryDestroy (acc.of_loosens loosened) fun backed => ?_
  rw [pagerOf_eases loosened.memory acc.sound] at backed
  rw [framesOf_eases loosened.memory acc.sound]
  rcases vacates p object handles caller dropped unheld backed with held | empty
  · rw [last] at held
    cases held
  · exact empty

theorem accounted_releaseHeld (vacates : k.Vacates owner object) : (releaseHeld owner k object).Accounted ahead := by
  obtain ⟨_,loosened,_,same | ⟨last,destroyed⟩⟩ := releaseHeld_cases k owner object
  · exact same ▸ acc.of_loosens loosened
  rw [destroyed]
  refine accounted_destroyRecord (acc.of_loosens loosened) fun backed => ?_
  rw [pagerOf_eases loosened.memory acc.sound] at backed
  rw [framesOf_eases loosened.memory acc.sound]
  rcases vacates backed with held | empty
  · rw [last] at held
    cases held
  · exact empty

end

omit [FrameSource σ] in
theorem Accounted.founds (acc : k.Accounted ahead) (sound : memory.Sound)
    (founds : MemoryTable.Founds k.memory memory) : (k.setMemory memory).Accounted ahead := by
  refine ⟨sound,acc.roomy.founds founds,acc.counted.trans ?_⟩
  rw [setMemory, cachedPages_founds acc.sound founds]

theorem accounted_memoryCreatePaged (acc : k.Accounted ahead) (slot bytes : Nat) (pagerHandle : Handle) :
    (k.memoryCreatePaged slot bytes pagerHandle).2.Accounted ahead := by
  unfold memoryCreatePaged
  split
  · exact acc
  split
  · exact acc
  rename_i p _
  split
  · exact acc
  rename_i pager _ _
  split
  · exact acc
  have creates := creates_createPaged acc.sound p.id ((bytes + frameSize - 1) / frameSize) pager
  have made := acc.founds creates.sound
    (k.memory.made_createPaged p.id ((bytes + frameSize - 1) / frameSize) pager).founds
  split
  · rename_i memory refused
    rwa [refused] at made
  rename_i object memory done
  rw [done] at made
  obtain ⟨_,_,_,empty,_⟩ := createPaged_ok acc.sound done
  have taken (paging : SelfPagingGraph cfg) : ({ k.setMemory memory with paging }.memoryDestroy object).Accounted ahead := by
    refine accounted_memoryDestroy ?_ fun _ => empty
    exact made.of_same rfl rfl
  split
  · exact taken _
  dsimp only [installPaged]
  split
  · exact made.of_same rfl rfl
  · exact taken _

end

end Kernel

/-- The calls of the page cache, and everything around them: the calls that make and take
    down objects, what happens to single pages, and all that changes processes and the
    allocator but no table of the cache. -/
inductive CacheAction (cfg : Config) (σ : Type) where
  | paged (a : PagedAction cfg)
  | supply (slot : Nat) (handle : Handle) (offset source : Nat) (request : WriteBackRequest)
  | resume (slot : Nat) (object : ObjectId) (page source : Nat) (target : ObjectId) (offset : Nat) (persisted : Bool)
  | evict (object : ObjectId) (offset : Nat)
  | reclaim
  | markDirty (object : ObjectId) (offset : Nat)
  | markClean (object : ObjectId) (offset : Nat)
  | request (object : ObjectId) (offset : Nat) (request : WriteBackRequest)
  | answer (object : ObjectId) (offset : Nat) (persisted : Bool)
  | fault (object : ObjectId)
  | elsewhere (processes : Slots (Process cfg) cfg.maxProcesses) (alloc : σ)

namespace Kernel

def serves (k : Kernel cfg σ) (object : ObjectId) : Bool := (k.memory.find object).all (·.pager.isSome)

theorem served_of_serves {k : Kernel cfg σ} (serves : k.serves object = true) : k.memory.Served object := by
  intro _ found
  rw [Kernel.serves, found] at serves
  exact serves

section
variable [FrameSource σ] (port : ArchPort)

/-- Pages are evicted only from objects that a service backs. A supply that waited holds on
    to such a page, and to its object's id, which is never given out again. -/
def performCache (k : Kernel cfg σ) : CacheAction cfg σ → Kernel cfg σ
  | .paged a => k.performPaged a
  | .supply slot handle offset source request => (k.pageSupply port slot handle offset source request).2
  | .resume slot object page source target offset persisted =>
    if k.serves target then (k.finishSupply port slot object page source target offset persisted).2 else k
  | .evict object offset => if k.serves object then (k.evictPage object offset).2 else k
  | .reclaim => (reclaimForPressure cfg.maxFrameSlots k).2
  | .markDirty object offset => k.setMemory (k.memory.markDirty object offset).2
  | .markClean object offset => k.setMemory (k.memory.markClean object offset)
  | .request object offset request => (k.writeBack object offset request).2
  | .answer object offset persisted => (k.writtenBack object offset persisted).2
  | .fault object => k.setMemory (k.memory.setFaulted object)
  | .elsewhere processes alloc => { k with processes, alloc }

def CacheStep (k : Kernel cfg σ) (a : CacheAction cfg σ) (k' : Kernel cfg σ) : Prop :=
  some (k.performCache port a) = some k'

end

/-- An object that a service backs is taken down only without pages, and a supply that
    waited still finds its source. -/
def Thrifty (port : ArchPort) (k : Kernel cfg σ) : CacheAction cfg σ → Prop
  | .paged (.close slot handle) => ∀ p ∈ k.processes.cell slot, ∀ object ∈ closed p handle,
      (p.handles.dropHandle handle).2.holds object = false → k.Vacates p.id object
  | .paged (.destroy object) => (k.memory.pagerOf object).isSome = true → k.memory.framesOf object = []
  | .paged (.release owner) => ∀ object ∈ k.memory.objectsHeldBy owner, k.Vacates owner object
  | .resume slot _ _ source _ _ _ => Readable port k slot source
  | _ => True

instance (k : Kernel cfg σ) (owner object : ObjectId) : Decidable (k.Vacates owner object) := by
  unfold Vacates
  infer_instance

instance (port : ArchPort) (k : Kernel cfg σ) (slot source : Nat) : Decidable (Readable port k slot source) := by
  unfold Readable
  infer_instance

instance (port : ArchPort) (k : Kernel cfg σ) (a : CacheAction cfg σ) : Decidable (Thrifty port k a) := by
  unfold Thrifty
  split <;> infer_instance

section
variable [FrameSource σ] {port : ArchPort} {k : Kernel cfg σ}

theorem accounted_performPaged (acc : k.Accounted 0) (a : PagedAction cfg)
    (thrifty : Thrifty port k (.paged a)) : (k.performPaged a).Accounted 0 := by
  cases a with
  | createPaged slot bytes pager => exact accounted_memoryCreatePaged acc slot bytes pager
  | close =>
    refine accounted_handleClose acc fun p object handles caller dropped unheld => ?_
    refine thrifty p caller object ?_ ?_
    · rw [closed, dropped]
      rfl
    · rw [dropped]
      exact unheld
  | destroy => exact accounted_memoryDestroy acc thrifty
  | release =>
    refine releaseMemoryOf_rule (fun _ => Accounted.sound) (fun _ _ => accounted_releaseHeld) ?_ acc thrifty
    exact fun k object _ acc => vacates_releaseHeld_other acc.sound
  | create owner pages placement =>
    have creates := creates_create acc.sound owner pages placement k.alloc
    exact (acc.founds creates.sound (k.memory.made_create owner pages placement k.alloc).founds).of_same rfl rfl
  | attach slot deviceHandle memoryHandle =>
    dsimp only [performPaged]
    cases done : k.dmaAttach slot deviceHandle memoryHandle with
    | mk result =>
      cases result with
      | error => exact acc.of_loosens (dmaAttach_error done).loosens
      | ok address =>
        obtain ⟨memory,_,a,_,_,recorded,_,budget⟩ := dmaAttach_ok done
        have table := attach_ok recorded
        have placed := acc.edit memory
          (f := fun e => { e with lastAttachment := some (a.device, a.address), attached := some a })
          (fun _ => ⟨rfl,rfl,rfl,rfl⟩) fun _ found => (acc.roomy.find found).of_cache rfl
            (acc.roomy.find found).distinct rfl (acc.roomy.find found).listed
        exact placed.of_same table budget
  | detach slot handle => exact acc.of_loosens (loosens_dmaDetach k slot handle)
  | depart slot handles departed =>
    have loosened := loosens_endBindingsOfDeparted (k.setHandles slot handles) slot departed
    exact acc.of_loosens ⟨loosened.memory,loosened.paging,loosened.cacheBudget⟩
  | arrive slot handles object holder shared =>
    cases shared with
    | true => exact acc.of_loosens ⟨k.memory.eases_addHolder object holder,rfl,rfl⟩
    | false => exact acc.of_loosens ⟨k.memory.eases_setSoleHolder object holder,rfl,rfl⟩

omit [FrameSource σ] in
theorem accounted_markDirty (acc : k.Accounted 0) (object : ObjectId) (off : Nat) :
    (k.setMemory (k.memory.markDirty object off).2).Accounted 0 := by
  unfold MemoryTable.markDirty
  split
  · exact acc.of_same rfl rfl
  rename_i found
  refine acc.edit object ?_ fun _ also => ?_
  · exact fun _ => ⟨rfl,rfl,rfl,rfl⟩
  rw [also] at found
  cases found
  have roomy := acc.roomy.find also
  unfold ObjectCache.markDirty
  split
  · exact roomy
  split
  · exact roomy
  · exact roomy.edit off (f := ObjectCache.dirtied) fun _ => rfl

theorem accounted_performCache (acc : k.Accounted 0) (fits : cfg.maxObjectPages ≤ cfg.maxCachedPages)
    (a : CacheAction cfg σ) (thrifty : Thrifty port k a) : (k.performCache port a).Accounted 0 := by
  cases a with
  | paged a => exact accounted_performPaged acc a thrifty
  | supply slot handle off source req => exact accounted_pageSupply acc fits slot handle off source req
  | resume slot object page source target off persisted =>
    dsimp only [performCache]
    split
    · rename_i serves
      exact accounted_finishSupply acc fits thrifty object page (served_of_serves serves) off persisted
    · exact acc
  | evict object off =>
    dsimp only [performCache]
    split
    · rename_i serves
      exact accounted_evictPage acc (served_of_serves serves) off
    · exact acc
  | reclaim => exact accounted_reclaimForPressure _ acc
  | markDirty object off => exact accounted_markDirty acc object off
  | markClean object off => exact acc.editCache object off (f := ObjectCache.cleaned) fun _ => rfl
  | request object off req => exact accounted_writeBack acc object off req
  | answer object off persisted => exact accounted_writtenBack acc object off persisted
  | fault object =>
    refine acc.edit object (fun _ => ⟨rfl,rfl,rfl,rfl⟩) fun _ found => ?_
    have roomy := acc.roomy.find found
    exact roomy.of_cache rfl roomy.distinct rfl roomy.listed
  | elsewhere => exact acc.of_same rfl rfl

omit [FrameSource σ] in
theorem accounted_start (empty : k.memory = .new) (unused : k.cacheBudget.ordinaryInUse = 0) : k.Accounted 0 := by
  have none (i : Nat) : k.memory.objects.cell i = none := by
    rw [empty]
    exact Slots.cell_empty i
  refine ⟨empty ▸ sound_new,fun i _ here => ?_,?_⟩
  · rw [none i] at here
    cases here
  have nothing : k.memory.cachedPages = 0 := by
    refine Finset.sum_eq_zero fun i _ => ?_
    rw [residentAt, none i]
  rw [unused, nothing]

/-- In every run in which objects go without pages and waiting supplies keep their source,
    the budget of the page cache counts the resident pages of the live objects that a
    service backs. -/
theorem budget_counts_resident_pages (fits : cfg.maxObjectPages ≤ cfg.maxCachedPages) {k₀ k : Kernel cfg σ}
    (empty : k₀.memory = .new) (unused : k₀.cacheBudget.ordinaryInUse = 0) {history : List (CacheAction cfg σ)}
    (run : Transition.Disciplined (fun _ => Thrifty port) (CacheStep port) k₀ history k) :
    k.cacheBudget.ordinaryInUse = k.memory.cachedPages := by
  have acc : k.Accounted 0 := by
    refine run.invariant (fun _ k => k.Accounted 0) ?_ (accounted_start empty unused)
    intro _ _ a _ acc thrifty step
    cases step
    exact accounted_performCache acc fits a thrifty
  exact acc.counted

end

def supplyHost : Kernel .minimal (BumpFrameAllocator .minimal) where
  exec := .new .new
  devices := ⟨.new, fun _ => .new⟩
  memory := .new
  processes := Slots.empty.put 0 { Process.new ⟨1⟩ ⟨.bare,
      Slots.empty.put 0 ⟨0x400000, frameSize, PageFlags.rw.user, .anonymous⟩, 1, frameSize⟩ with
    handles := (HandleTable.new.insert ⟨5⟩ .supply).2 }
  iommu := none
  alloc := .new [⟨0x100000, 0x40000, .usable⟩]

def supplies : List (CacheAction .minimal (BumpFrameAllocator .minimal)) :=
  [.paged (.createPaged 0 8192 (.new 0 0)), .supply 0 (.new 1 0) 0 0x400000 .unsent,
    .supply 0 (.new 1 0) 4096 0x400000 .unsent, .evict ⟨0x1000⟩ 0]

theorem supplied_pages_are_counted : ∃ k : Kernel .minimal (BumpFrameAllocator .minimal),
      Transition.Disciplined (fun _ => Thrifty .x8664) (CacheStep .x8664) supplyHost supplies k ∧
      k.memory.cachedPages = 1 ∧ k.cacheBudget.ordinaryInUse = k.memory.cachedPages :=
  Transition.Disciplined.reaches_also (by decide +kernel) fun _ run _ =>
    budget_counts_resident_pages (by decide) rfl rfl run

/-- The place of a page goes for good when its object is closed with the page in it. -/
theorem closed_object_keeps_its_places : ∃ k : Kernel .minimal (BumpFrameAllocator .minimal),
      Transition.Run (CacheStep .x8664) supplyHost [.paged (.createPaged 0 4096 (.new 0 0)),
        .supply 0 (.new 1 0) 0 0x400000 .unsent, .paged (.close 0 (.new 1 0))] k ∧
      k.livePaged.length = 0 ∧ k.memory.cachedPages = 0 ∧ k.cacheBudget.ordinaryInUse = 1 :=
  Transition.Disciplined.reaches (by decide +kernel)

end Kernel
end Tessera
