import Tessera.Memory.MemoryTable

/-!
The memory table as a set of records under distinct ids. Each record owns a run of
the slot pool that no other record reaches into, so that a change to one object
leaves every other object's record and frames alone.
-/
namespace Tessera.MemoryTable
open Slots
variable {cfg : Config} {σ : Type} [FrameSource σ]

def InRun (e : MemoryObject cfg) (s : Nat) : Prop := e.base ≤ s ∧ s < e.base + e.pages

structure Sound (t : MemoryTable cfg) : Prop where
  distinct : ∀ i j e f, t.objects.cell i = some e → t.objects.cell j = some f → e.object = f.object → i = j
  minted : ∀ i e, t.objects.cell i = some e → memoryObjectIdBase ≤ e.object.raw ∧ e.object.raw < t.nextId
  started : memoryObjectIdBase ≤ t.nextId
  claimed : ∀ i e, t.objects.cell i = some e → ∀ s, InRun e s → t.taken s = true
  apart : ∀ i j e f, t.objects.cell i = some e → t.objects.cell j = some f → i ≠ j → ∀ s, InRun e s → ¬ InRun f s
  inside : ∀ i e, t.objects.cell i = some e → e.base + e.pages ≤ cfg.maxFrameSlots

theorem sound_new : (new : MemoryTable cfg).Sound := by
  constructor <;> simp [new]

variable {t t' : MemoryTable cfg} {o owner : ObjectId} {e : MemoryObject cfg}
  {f : MemoryObject cfg → MemoryObject cfg} {pages base slot : Nat}

theorem find_eq_none : t.find o = none ↔ ∀ i e, t.objects.cell i = some e → e.object ≠ o := by
  unfold find named
  rw [find?_eq_none]
  simp

theorem cell_of_find (found : t.find o = some e) :
    e.object = o ∧ ∃ i, t.objects.index? (named o) = some i ∧ t.objects.cell i = some e := by
  obtain ⟨matching,i,index,here⟩ := find?_eq_some found
  exact ⟨of_decide_eq_true matching,i,index,here⟩

theorem find_update (t : MemoryTable cfg) (o : ObjectId) (keeps : ∀ e, (f e).object = e.object)
    (o' : ObjectId) : (t.update o f).find o' = if o' = o then (t.find o').map f else t.find o' :=
  t.objects.find?_modify_key keeps o o'

theorem findRun_eq_some (found : t.findRun pages start turns = some base) :
    base + pages ≤ cfg.maxFrameSlots ∧ ∀ s, base ≤ s → s < base + pages → t.taken s = false := by
  induction turns generalizing start with
  | zero => cases found
  | succ turns ih =>
    unfold findRun at found
    split at found
    · rename_i room
      split at found
      · exact ih found
      rename_i clear
      cases found
      refine ⟨room,fun s above below => ?_⟩
      simpa using List.find?_eq_none.mp clear s (List.mem_range'_1.mpr ⟨above,below⟩)
    · cases found

theorem takeRun_eq_some (done : t.takeRun pages = (some base, t')) :
    base + pages ≤ cfg.maxFrameSlots ∧ (∀ s, base ≤ s → s < base + pages → t.taken s = false) ∧
      t' = { t with taken := assignRun t.taken base pages true, slots := assignRun t.slots base pages none } := by
  unfold takeRun at done
  split at done
  · cases done
  split at done
  · cases done
  rename_i found
  cases done
  obtain ⟨room,clear⟩ := findRun_eq_some found
  exact ⟨room,clear,rfl⟩

theorem takeRun_eq_none (done : t.takeRun pages = (none, t')) : t' = t := by
  unfold takeRun at done
  split at done
  · cases done
    rfl
  · split at done <;> cases done
    rfl

section
variable (sound : t.Sound)
include sound

theorem Sound.find_of_cell (here : t.objects.cell i = some e) : t.find e.object = some e := by
  cases found : t.find e.object with
  | none => exact absurd rfl (find_eq_none.mp found i e here)
  | some f =>
    obtain ⟨same,j,_,there⟩ := cell_of_find found
    have spot := sound.distinct j i f e there here same
    rw [← spot, there] at here
    exact here

theorem Sound.of_records
    (records : ∀ i e', t'.objects.cell i = some e' → ∃ e, t.objects.cell i = some e ∧ e.object = e'.object ∧
      e.base = e'.base ∧ e.pages = e'.pages) (next : t'.nextId = t.nextId) (taken : t'.taken = t.taken) :
    t'.Sound := by
  have runs {i : Nat} {e' : MemoryObject cfg} (here : t'.objects.cell i = some e') :
      ∃ e, t.objects.cell i = some e ∧ e.object = e'.object ∧ (∀ s, InRun e' s ↔ InRun e s) ∧
        e'.base + e'.pages = e.base + e.pages := by
    obtain ⟨e,before,obj,base,pages⟩ := records i e' here
    exact ⟨e,before,obj,fun s => by rw [InRun, InRun, base, pages],by rw [base, pages]⟩
  refine ⟨?_,?_,next ▸ sound.started,?_,?_,?_⟩
  · intro i j _ _ first second same
    obtain ⟨e,before,obj,_⟩ := runs first
    obtain ⟨f,earlier,other,_⟩ := runs second
    exact sound.distinct i j e f before earlier (obj.trans (same.trans other.symm))
  · intro i _ here
    obtain ⟨e,before,obj,_⟩ := runs here
    rw [← obj, next]
    exact sound.minted i e before
  · intro i _ here s within
    obtain ⟨e,before,_,run,_⟩ := runs here
    rw [taken]
    exact sound.claimed i e before s ((run s).mp within)
  · intro i j _ _ first second different s within
    obtain ⟨e,before,_,run,_⟩ := runs first
    obtain ⟨f,earlier,_,other,_⟩ := runs second
    rw [other]
    exact sound.apart i j e f before earlier different s ((run s).mp within)
  · intro i _ here
    obtain ⟨e,before,_,_,extent⟩ := runs here
    rw [extent]
    exact sound.inside i e before

theorem Sound.update (o : ObjectId)
    (keeps : ∀ e, (f e).object = e.object ∧ (f e).base = e.base ∧ (f e).pages = e.pages) : (t.update o f).Sound := by
  refine sound.of_records ?_ rfl rfl
  intro _ e' here
  rcases cell_modify_cases here with same | ⟨e,before,_,rfl⟩
  · exact ⟨e',same,rfl,rfl,rfl⟩
  · exact ⟨e,before,(keeps e).1.symm,(keeps e).2.1.symm,(keeps e).2.2.symm⟩

theorem Sound.setSlots (slots : Nat → Option PhysFrame) : { t with slots }.Sound :=
  sound.of_records (fun _ e here => ⟨e,here,rfl,rfl,rfl⟩) rfl rfl

theorem Sound.insert (vacant : t.objects.cell slot = none) (obj : e.object = ⟨t.nextId⟩)
    (room : e.base + e.pages ≤ cfg.maxFrameSlots) (clear : ∀ s, InRun e s → t.taken s = false)
    (objects : t'.objects = t.objects.put slot e) (next : t'.nextId = t.nextId + 1)
    (taken : t'.taken = assignRun t.taken e.base e.pages true) : t'.Sound := by
  have cells {i : Nat} {f : MemoryObject cfg} (here : t'.objects.cell i = some f) :
      (i = slot ∧ f = e) ∨ (i ≠ slot ∧ t.objects.cell i = some f) := by
    rw [objects] at here
    rcases cell_put_cases here with ⟨same,is⟩ | ⟨other,before⟩
    · exact .inl ⟨same.symm,is⟩
    · exact .inr ⟨fun same => other same.symm,before⟩
  have fresh {i : Nat} {f : MemoryObject cfg} (before : t.objects.cell i = some f) : f.object ≠ e.object := by
    intro same
    have below := (sound.minted i f before).2
    rw [same, obj] at below
    exact absurd below (lt_irrefl _)
  have away {i : Nat} {f : MemoryObject cfg} (before : t.objects.cell i = some f) {s : Nat} (within : InRun f s) :
      ¬ InRun e s := by
    intro also
    have busy := sound.claimed i f before s within
    rw [clear s also] at busy
    cases busy
  refine ⟨?_,?_,?_,?_,?_,?_⟩
  · intro i j f g first second same
    rcases cells first with ⟨rfl,rfl⟩ | ⟨_,before⟩ <;> rcases cells second with ⟨rfl,rfl⟩ | ⟨_,earlier⟩
    · rfl
    · exact absurd same.symm (fresh earlier)
    · exact absurd same (fresh before)
    · exact sound.distinct i j f g before earlier same
  · intro i f here
    rw [next]
    rcases cells here with ⟨_,rfl⟩ | ⟨_,before⟩
    · rw [obj]
      exact ⟨sound.started,Nat.lt_succ_self _⟩
    · obtain ⟨low,_⟩ := sound.minted i f before
      exact ⟨low,by omega⟩
  · have := sound.started
    omega
  · intro i f here s within
    rw [taken, assignRun]
    split
    · rfl
    rename_i outside
    rcases cells here with ⟨_,rfl⟩ | ⟨_,before⟩
    · exact absurd within outside
    · exact sound.claimed i f before s within
  · intro i j f g first second different s within
    rcases cells first with ⟨rfl,rfl⟩ | ⟨_,before⟩ <;> rcases cells second with ⟨rfl,rfl⟩ | ⟨_,earlier⟩
    · exact absurd rfl different
    · exact fun also => away earlier also within
    · exact away before within
    · exact sound.apart i j f g before earlier different s within
  · intro i f here
    rcases cells here with ⟨_,rfl⟩ | ⟨_,before⟩
    · exact room
    · exact sound.inside i f before

theorem Sound.giveBack (clear : ∀ s, base ≤ s → s < base + pages → t.taken s = false)
    (slots : Nat → Option PhysFrame) :
    ({ t with taken := assignRun t.taken base pages true, slots }.freeRun base pages).Sound := by
  refine ⟨sound.distinct,sound.minted,sound.started,?_,sound.apart,sound.inside⟩
  intro i e here s within
  have busy := sound.claimed i e here s within
  simp only [freeRun, assignRun]
  have outside : ¬ (base ≤ s ∧ s < base + pages) := by
    rintro ⟨above,below⟩
    rw [clear s above below] at busy
    cases busy
  rw [if_neg (by omega), if_neg outside]
  exact busy

end

theorem drawFrames_records (t : MemoryTable cfg) (src : σ) (slots : List Nat) :
    ∃ filled, (t.drawFrames src slots).2.1 = { t with slots := filled } ∧ ∀ s, s ∉ slots → filled s = t.slots s := by
  induction slots generalizing t src with
  | nil => exact ⟨_,rfl,fun _ _ => rfl⟩
  | cons i rest ih =>
    unfold drawFrames
    split
    · exact ⟨_,rfl,fun _ _ => rfl⟩
    rename_i frame src' _
    obtain ⟨filled,drawn,others⟩ := ih { t with slots := Function.update t.slots i (some frame) } src'
    refine ⟨filled,drawn,fun s outside => ?_⟩
    obtain ⟨apart,outside⟩ := not_or.mp (mt List.mem_cons.mpr outside)
    exact (others s outside).trans (Function.update_of_ne apart _ _)

theorem find_insert (after : t'.Sound) (inside : slot < cfg.maxMemoryObjects)
    (vacant : t.objects.cell slot = none) (objects : t'.objects = t.objects.put slot e) (o : ObjectId) :
    t'.find o = if o = e.object then some e else t.find o := by
  have here : t'.objects.cell slot = some e := by rw [objects, cell_put_self _ inside]
  split
  · rename_i same
    rw [same]
    exact after.find_of_cell here
  rename_i other
  rw [find, objects]
  exact find?_put_other inside vacant (decide_eq_false (Ne.symm other))

/-- The table as a creation leaves it: as it was, or with a run that nobody had taken and
    given back, or with that run under a new record, empty if a service is to fill it. -/
inductive Made (t : MemoryTable cfg) (owner : ObjectId) (pages : Nat) (pager : Option ObjectId) :
    Except KError ObjectId → MemoryTable cfg → Prop where
  | refused (err : KError) : Made t owner pages pager (.error err) t
  | returned (err : KError) {base : Nat} {slots : Nat → Option PhysFrame}
      (clear : ∀ s, base ≤ s → s < base + pages → t.taken s = false)
      (spared : ∀ s, ¬ (base ≤ s ∧ s < base + pages) → slots s = t.slots s) :
    Made t owner pages pager (.error err) ({ t with taken := assignRun t.taken base pages true, slots }.freeRun base pages)
  | entered {slot : Nat} {e : MemoryObject cfg} {t' : MemoryTable cfg} (small : pages ≤ cfg.maxObjectPages)
      (free : t.objects.free? = some slot) (room : e.base + e.pages ≤ cfg.maxFrameSlots)
      (clear : ∀ s, InRun e s → t.taken s = false) (spared : ∀ s, ¬ InRun e s → t'.slots s = t.slots s)
      (vacant : pager.isSome = true → ∀ s, InRun e s → t'.slots s = none)
      (objects : t'.objects = t.objects.put slot e) (next : t'.nextId = t.nextId + 1)
      (taken : t'.taken = assignRun t.taken e.base e.pages true) (object : e.object = ⟨t.nextId⟩)
      (holders : e.holders = soleHolder owner) (attached : e.attached = none) (size : e.pages = pages)
      (cache : e.cache = .new (dirtyLimit cfg)) (backed : e.pager = pager) :
    Made t owner pages pager (.ok ⟨t.nextId⟩) t'

theorem made_create (t : MemoryTable cfg) (owner : ObjectId) (pages : Nat) (placement : Placement) (src : σ) :
    Made t owner pages none (t.create owner pages placement src).1 (t.create owner pages placement src).2.1 := by
  unfold create
  split
  · exact .refused _
  rename_i sized
  split
  · exact .refused _
  rename_i free
  split
  · rename_i taken
    rw [takeRun_eq_none taken]
    exact .refused _
  rename_i base _ taken
  obtain ⟨room,clear,rfl⟩ := takeRun_eq_some taken
  obtain ⟨filled,drawn,others⟩ := drawFrames_records
    { t with taken := assignRun t.taken base pages true, slots := assignRun t.slots base pages none } src (run base pages)
  have spared (s : Nat) (outside : ¬ (base ≤ s ∧ s < base + pages)) : filled s = t.slots s :=
    (others s fun mem => outside (List.mem_range'_1.mp mem)).trans (if_neg outside)
  split
  · rename_i partly
    rw [partly] at drawn
    subst drawn
    exact .returned _ clear spared
  rename_i whole
  rw [whole] at drawn
  subst drawn
  split
  · exact .returned _ clear spared
  refine .entered (Nat.not_lt.mp fun beyond => sized (.inr beyond)) free room ?_ ?_ nofun rfl rfl rfl rfl rfl rfl rfl rfl rfl
  · exact fun s within => clear s within.1 within.2
  · exact spared

theorem made_createPaged (t : MemoryTable cfg) (owner : ObjectId) (pages : Nat) (pager : ObjectId) :
    Made t owner pages (some pager) (t.createPaged owner pages pager).1 (t.createPaged owner pages pager).2 := by
  unfold createPaged
  split
  · exact .refused _
  rename_i sized
  split
  · exact .refused _
  rename_i free
  split
  · rename_i taken
    rw [takeRun_eq_none taken]
    exact .refused _
  rename_i taken
  obtain ⟨room,clear,rfl⟩ := takeRun_eq_some taken
  refine .entered (Nat.not_lt.mp fun beyond => sized (.inr beyond)) free room ?_ ?_ ?_ rfl rfl rfl rfl rfl rfl rfl rfl rfl
  · exact fun s within => clear s within.1 within.2
  · exact fun s outside => if_neg outside
  · exact fun _ s within => if_pos within

/-- What a creation can do: refuse, with every record as it was, or enter one record
    under the next id. -/
structure Creates (t t' : MemoryTable cfg) (result : Except KError ObjectId) (owner : ObjectId) : Prop where
  sound : t'.Sound
  refused : ∀ err, result = .error err → t'.objects = t.objects ∧ t'.nextId = t.nextId
  made : ∀ object, result = .ok object → object = ⟨t.nextId⟩ ∧ t'.nextId = t.nextId + 1 ∧
    ∃ e, e.object = object ∧ e.holders = soleHolder owner ∧ e.attached = none ∧
      ∀ o, t'.find o = if o = object then some e else t.find o

theorem Made.creates (made : Made t owner pages pager result t') (sound : t.Sound) : Creates t t' result owner := by
  cases made with
  | refused => exact ⟨sound,fun _ _ => ⟨rfl,rfl⟩,nofun⟩
  | returned _ clear => exact ⟨sound.giveBack clear _,fun _ _ => ⟨rfl,rfl⟩,nofun⟩
  | entered _ free room clear _ _ objects next taken obj holders attached =>
    obtain ⟨inside,vacant⟩ := free?_eq_some free
    have after := sound.insert vacant obj room clear objects next taken
    refine ⟨after,nofun,?_⟩
    rintro _ ⟨⟩
    refine ⟨rfl,next,_,obj,holders,attached,fun o => ?_⟩
    rw [find_insert after inside vacant objects o, obj]

section
variable (sound : t.Sound)
include sound

theorem creates_create (owner : ObjectId) (pages : Nat) (placement : Placement) (src : σ) :
    Creates t (t.create owner pages placement src).2.1 (t.create owner pages placement src).1 owner :=
  (t.made_create owner pages placement src).creates sound

theorem creates_createPaged (owner : ObjectId) (pages : Nat) (pager : ObjectId) :
    Creates t (t.createPaged owner pages pager).2 (t.createPaged owner pages pager).1 owner :=
  (t.made_createPaged owner pages pager).creates sound

theorem Sound.destroy (obj : ObjectId) (src : σ) : (t.destroy obj src).2.1.Sound := by
  unfold MemoryTable.destroy
  split
  · rename_i slot e index found
    split
    · exact sound
    obtain ⟨_,i,spot,here⟩ := cell_of_find found
    rw [index] at spot
    cases spot
    have cells {j : Nat} {f : MemoryObject cfg} (there : (t.objects.clear slot).cell j = some f) :
        j ≠ slot ∧ t.objects.cell j = some f := by
      obtain ⟨other,before⟩ := cell_clear_cases there
      exact ⟨fun same => other same.symm,before⟩
    refine ⟨?_,?_,sound.started,?_,?_,?_⟩
    · intro i j f g first second
      exact sound.distinct i j f g (cells first).2 (cells second).2
    · intro i f there
      exact sound.minted i f (cells there).2
    · intro j f there s within
      obtain ⟨other,before⟩ := cells there
      have away := sound.apart j slot f e before here other s within
      simp only [freeRun, assignRun]
      rw [if_neg]
      · exact sound.claimed j f before s within
      · rintro ⟨above,_⟩
        exact away ⟨above,by omega⟩
    · intro i j f g first second
      exact sound.apart i j f g (cells first).2 (cells second).2
    · intro i f there
      exact sound.inside i f (cells there).2
  · exact sound

theorem find_destroy (found : t.find obj = some e) (loose : e.attached = none) (src : σ) (o : ObjectId) :
    (t.destroy obj src).2.1.find o = if o = obj then none else t.find o := by
  have after := sound.destroy obj src
  obtain ⟨named,slot,index,here⟩ := cell_of_find found
  unfold MemoryTable.destroy at after ⊢
  rw [index, found] at after ⊢
  simp only [loose, Option.isSome_none, Bool.false_eq_true, if_false] at after ⊢
  split
  · rename_i same
    rw [find_eq_none]
    intro i f there is
    obtain ⟨other,before⟩ := cell_clear_cases there
    exact other (sound.distinct slot i e f here before (by rw [named, is, same]))
  rename_i other
  cases before : t.find o with
  | none =>
    rw [find_eq_none]
    intro i f there
    exact find_eq_none.mp before i f (cell_clear_cases there).2
  | some =>
    obtain ⟨rfl,i,_,stands⟩ := cell_of_find before
    apply after.find_of_cell (i := i)
    rw [Slots.clear, cell_assign_ne _ _ _]
    · exact stands
    rintro rfl
    rw [here] at stands
    cases stands
    exact other named

end

theorem destroy_nextId (t : MemoryTable cfg) (obj : ObjectId) (src : σ) :
    (t.destroy obj src).2.1.nextId = t.nextId := by
  unfold MemoryTable.destroy
  split
  · split <;> rfl
  · rfl

end Tessera.MemoryTable
