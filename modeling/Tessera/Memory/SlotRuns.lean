import Tessera.Memory.MemoryRecords
import Tessera.Memory.Pmem
import Tessera.Lib.Transition

/-!
The pool of frame slots over whole runs. Every taken slot lies in the run of a live
object, and a slot nobody has taken holds no frame. So a creation that fails leaves
the table exactly as it found it, and it lacks slots only when no run is free.
-/
namespace Tessera.MemoryTable
open Slots Transition Function List
variable {cfg : Config} {σ : Type} {t t' : MemoryTable cfg} {pages base : Nat}

/-- The first-fit search passes over a start only for a taken slot that every run from there contains. -/
theorem findRun_eq_none (searched : t.findRun pages start turns = none)
    (enough : cfg.maxFrameSlots < start + turns) (above : start ≤ base) (room : base + pages ≤ cfg.maxFrameSlots) :
    ∃ s, base ≤ s ∧ s < base + pages ∧ t.taken s = true := by
  induction turns generalizing start with
  | zero => omega
  | succ turns ih =>
    unfold findRun at searched
    rw [if_pos (by omega)] at searched
    split at searched
    · rename_i busy found
      have taken := find?_some found
      have within := mem_range'_1.mp (mem_of_find?_eq_some found)
      by_cases inside : base ≤ busy
      · exact ⟨busy,inside,by omega,taken⟩
      · exact ih searched (by omega) (by omega)
    · cases searched

theorem takeRun_refused (refused : (t.takeRun pages).1 = none) (positive : pages ≠ 0)
    (room : base + pages ≤ cfg.maxFrameSlots) : ∃ s, base ≤ s ∧ s < base + pages ∧ t.taken s = true := by
  unfold takeRun at refused
  rw [if_neg (by omega)] at refused
  split at refused
  · rename_i searched
    exact findRun_eq_none searched (by omega) (Nat.zero_le _) room
  · cases refused

/-- The frames that so many draws in a row obtain, up to the first refusal. -/
def draws [FrameSource σ] (src : σ) : Nat → List PhysFrame × σ
  | 0 => ([], src)
  | pages + 1 =>
    match FrameSource.allocFrame src with
    | (none, src) => ([], src)
    | (some frame, src) => (frame :: (draws src pages).1, (draws src pages).2)

theorem drawFrames_draws [FrameSource σ] (src : σ) (slots : List Nat) (fresh : ∀ s ∈ slots, t.slots s = none)
    (apart : slots.Nodup) :
    (slots.filterMap (t.drawFrames src slots).2.1.slots, (t.drawFrames src slots).2.2) = draws src slots.length := by
  induction slots generalizing t src with
  | nil => rfl
  | cons i rest ih =>
    obtain ⟨away,apart⟩ := nodup_cons.mp apart
    rw [length_cons]
    unfold drawFrames draws
    rcases FrameSource.allocFrame src with ⟨_ | frame,src'⟩
    · exact Prod.ext (filterMap_eq_nil_iff.mpr fresh) rfl
    dsimp only
    have others : ∀ s ∈ rest, Function.update t.slots i (some frame) s = none := by
      intro s there
      have other : s ≠ i := fun same => away (same ▸ there)
      exact (update_of_ne other ..).trans (fresh s (mem_cons_of_mem _ there))
    obtain ⟨filled,drawn,kept⟩ := drawFrames_records { t with slots := Function.update t.slots i (some frame) } src' rest
    rw [← ih (t := { t with slots := Function.update t.slots i (some frame) }) src' others apart, drawn]
    have here : filled i = some frame := (kept i away).trans (update_self ..)
    simp [here]

theorem createPaged_refused (failed : t.createPaged owner pages pager = (.error err, t')) :
    t' = t ∧ (err = .outOfFrameSlots → pages ≠ 0 ∧ (t.takeRun pages).1 = none) := by
  unfold createPaged at failed
  split at failed
  · cases failed
    exact ⟨rfl,nofun⟩
  rename_i sized
  split at failed
  · cases failed
    exact ⟨rfl,nofun⟩
  split at failed
  · rename_i refused
    cases failed
    exact ⟨takeRun_eq_none refused,fun _ => ⟨fun zero => sized (.inl zero),by rw [refused]⟩⟩
  · cases failed

structure Pooled (t : MemoryTable cfg) : Prop where
  sound : t.Sound
  covered : ∀ s, t.taken s = true → ∃ i e, t.objects.cell i = some e ∧ InRun e s
  blank : ∀ s, t.taken s = false → t.slots s = none

section
variable (pooled : t.Pooled)
include pooled

theorem Pooled.returned (room : base + pages ≤ cfg.maxFrameSlots)
    (clear : ∀ s, base ≤ s → s < base + pages → t.taken s = false) {slots : Nat → Option PhysFrame}
    (spared : ∀ s, ¬ (base ≤ s ∧ s < base + pages) → slots s = t.slots s) :
    { t with taken := assignRun t.taken base pages true, slots }.freeRun base pages = t := by
  have whole : min (base + pages) cfg.maxFrameSlots - base = pages := by omega
  have taken : assignRun (assignRun t.taken base pages true) base pages false = t.taken := by
    funext s
    unfold assignRun
    split
    · rename_i within
      exact (clear s within.1 within.2).symm
    · rfl
  have emptied : assignRun slots base pages none = t.slots := by
    funext s
    unfold assignRun
    split
    · rename_i within
      exact (pooled.blank s (clear s within.1 within.2)).symm
    · rename_i outside
      exact spared s outside
  rw [freeRun]
  simp [whole, taken, emptied]

theorem Pooled.create_refused [FrameSource σ] {src src' : σ} {err : KError}
    (failed : t.create owner pages placement src = (.error err, t', src')) :
    t' = t ∧ (src' = src ∨ src' = freeFrames (draws src pages).2 (draws src pages).1) ∧
      (err = .outOfFrameSlots → pages ≠ 0 ∧ (t.takeRun pages).1 = none) := by
  unfold create at failed
  split at failed
  · cases failed
    exact ⟨rfl,.inl rfl,nofun⟩
  rename_i sized
  split at failed
  · cases failed
    exact ⟨rfl,.inl rfl,nofun⟩
  split at failed
  · rename_i refused
    cases failed
    exact ⟨takeRun_eq_none refused,.inl rfl,fun _ => ⟨fun zero => sized (.inl zero),by rw [refused]⟩⟩
  rename_i base _ taken
  obtain ⟨room,clear,rfl⟩ := takeRun_eq_some taken
  let claimed : MemoryTable cfg :=
    { t with taken := assignRun t.taken base pages true, slots := assignRun t.slots base pages none }
  obtain ⟨_,drawn,others⟩ := drawFrames_records claimed src (run base pages)
  have account := drawFrames_draws (t := claimed) src (run base pages)
    (fun s there => if_pos (mem_range'_1.mp there)) nodup_range'
  rw [show (run base pages).length = pages from length_range'] at account
  have same := pooled.returned room clear fun s outside =>
    (others s fun there => outside (mem_range'_1.mp there)).trans (if_neg outside)
  -- both ways to fail past this point give the run back with what was drawn into it
  generalize claimed.drawFrames src (run base pages) = drew at failed drawn account
  obtain ⟨whole,_,_⟩ := drew
  subst drawn
  rw [← account]
  cases whole with
  | false =>
    cases failed
    exact ⟨same,.inr rfl,nofun⟩
  | true =>
    dsimp only at failed
    split at failed
    · rename_i unmet
      cases failed
      refine ⟨same,.inr rfl,?_⟩
      rintro rfl
      unfold Placement.satisfiedBy at unmet
      repeat' split at unmet
      all_goals cases unmet
    · cases failed

theorem Pooled.entered (made : Made t owner pages pager (.ok obj) t') : t'.Pooled := by
  cases made with
  | @entered slot e _ _ free room clear spared _ objects next taken obj =>
    obtain ⟨inside,vacant⟩ := free?_eq_some free
    refine ⟨pooled.sound.insert vacant obj room clear objects next taken,?_,?_⟩
    · intro s busy
      by_cases within : e.base ≤ s ∧ s < e.base + e.pages
      · exact ⟨slot,e,by rw [objects, cell_put_self _ inside],within⟩
      rw [taken, assignRun, if_neg within] at busy
      obtain ⟨i,f,here,run⟩ := pooled.covered s busy
      exact ⟨i,f,by rw [objects, cell_put_of_empty _ vacant here],run⟩
    · intro s unused
      by_cases within : e.base ≤ s ∧ s < e.base + e.pages
      · rw [taken, assignRun, if_pos within] at unused
        cases unused
      rw [taken, assignRun, if_neg within] at unused
      exact (spared s within).trans (pooled.blank s unused)

theorem Pooled.create [FrameSource σ] (owner : ObjectId) (pages : Nat) (placement : Placement) (src : σ) :
    (t.create owner pages placement src).2.1.Pooled := by
  have made := t.made_create owner pages placement src
  rcases done : t.create owner pages placement src with ⟨_ | _,_,_⟩
  · rw [(pooled.create_refused done).1]
    exact pooled
  · rw [done] at made
    exact pooled.entered made

theorem Pooled.createPaged (owner : ObjectId) (pages : Nat) (pager : ObjectId) :
    (t.createPaged owner pages pager).2.Pooled := by
  have made := t.made_createPaged owner pages pager
  rcases done : t.createPaged owner pages pager with ⟨_ | _,_⟩
  · rw [(createPaged_refused done).1]
    exact pooled
  · rw [done] at made
    exact pooled.entered made

theorem Pooled.setSlot (held : c = none ∨ t.taken i = true) :
    { t with slots := Function.update t.slots i c }.Pooled := by
  refine ⟨pooled.sound.setSlots _,pooled.covered,fun s unused => ?_⟩
  by_cases same : s = i
  · subst same
    rcases held with rfl | busy
    · exact update_self ..
    · cases unused.symm.trans busy
  · exact (update_of_ne same ..).trans (pooled.blank s unused)

theorem Pooled.update (obj : ObjectId)
    (keeps : ∀ e, (f e).object = e.object ∧ (f e).base = e.base ∧ (f e).pages = e.pages) :
    (t.update obj f).Pooled := by
  refine ⟨pooled.sound.update obj keeps,fun s busy => ?_,pooled.blank⟩
  obtain ⟨i,e,here,within⟩ := pooled.covered s busy
  have cell := t.objects.cell_modify (named obj) f i
  rw [here] at cell
  split at cell
  · refine ⟨i,f e,cell,?_⟩
    unfold InRun at within ⊢
    rwa [(keeps e).2.1, (keeps e).2.2]
  · exact ⟨i,e,cell,within⟩

theorem Pooled.destroy [FrameSource σ] (obj : ObjectId) (src : σ) : (t.destroy obj src).2.1.Pooled := by
  refine ⟨pooled.sound.destroy obj src,?_,?_⟩
  all_goals
    unfold MemoryTable.destroy
    split
    on_goal 2 => first | exact pooled.covered | exact pooled.blank
    rename_i slot e index found
    split
    · first | exact pooled.covered | exact pooled.blank
    obtain ⟨_,i,spot,here⟩ := cell_of_find found
    rw [index] at spot
    cases spot
    have inside := pooled.sound.inside slot e here
    have whole : min (e.base + e.pages) cfg.maxFrameSlots - e.base = e.pages := by omega
    intro s
    simp only [freeRun, whole, assignRun]
    split
  · simp
  · rename_i outside
    intro busy
    obtain ⟨i,f,there,within⟩ := pooled.covered s busy
    refine ⟨i,f,?_,within⟩
    rw [cell_clear, if_neg]
    · exact there
    rintro rfl
    rw [here] at there
    cases there
    exact outside within
  · exact fun _ => rfl
  · exact pooled.blank s

theorem Pooled.supply (obj : ObjectId) (page : Nat) (frame : PhysFrame) : (t.supply obj page frame).2.Pooled := by
  unfold MemoryTable.supply
  split
  · exact pooled
  rename_i entry found
  split
  · exact pooled
  split
  · exact pooled
  split
  · exact pooled
  obtain ⟨_,i,_,here⟩ := cell_of_find found
  have busy : t.taken (entry.base + page) = true := pooled.sound.claimed i entry here _ ⟨by omega,by omega⟩
  exact (pooled.setSlot (.inr busy)).update obj fun _ => ⟨rfl,rfl,rfl⟩

theorem Pooled.evict (obj : ObjectId) (off : Nat) : (t.evict obj off).2.Pooled := by
  unfold MemoryTable.evict
  split
  · exact pooled
  dsimp only
  split
  · exact pooled
  split
  · exact pooled
  · exact (pooled.setSlot (.inl rfl)).update obj fun _ => ⟨rfl,rfl,rfl⟩

end

theorem pooled_new : (new : MemoryTable cfg).Pooled :=
  ⟨sound_new,nofun,fun _ _ => rfl⟩

inductive PoolAction where
  | create (owner : ObjectId) (pages : Nat) (placement : Placement)
  | createPaged (owner : ObjectId) (pages : Nat) (pager : ObjectId)
  | supply (object : ObjectId) (page : Nat) (frame : PhysFrame)
  | evict (object : ObjectId) (offset : Nat)
  | destroy (object : ObjectId)

variable [FrameSource σ]

/-- One call on the table beside the source it draws from, whether it succeeds or fails. -/
def act (w : MemoryTable cfg × σ) : PoolAction → MemoryTable cfg × σ
  | .create owner pages placement => (w.1.create owner pages placement w.2).2
  | .createPaged owner pages pager => ((w.1.createPaged owner pages pager).2, w.2)
  | .supply object page frame => ((w.1.supply object page frame).2, w.2)
  | .evict object offset => ((w.1.evict object offset).2, w.2)
  | .destroy object => (w.1.destroy object w.2).2

def PoolStep (w : MemoryTable cfg × σ) (a : PoolAction) (w' : MemoryTable cfg × σ) : Prop := some (act w a) = some w'

theorem pooled_step {w w' : MemoryTable cfg × σ} (pooled : w.1.Pooled) (step : PoolStep w a w') : w'.1.Pooled := by
  cases step
  cases a with
  | create owner pages placement => exact pooled.create owner pages placement w.2
  | createPaged owner pages pager => exact pooled.createPaged owner pages pager
  | supply obj page frame => exact pooled.supply obj page frame
  | evict obj off => exact pooled.evict obj off
  | destroy obj => exact pooled.destroy obj w.2

theorem slot_runs_are_exact {src : σ} {history : List PoolAction} {w : MemoryTable cfg × σ}
    (run : Run PoolStep (new, src) history w) :
    (∀ i j e f, w.1.objects.cell i = some e → w.1.objects.cell j = some f → i ≠ j → ∀ s, InRun e s → ¬ InRun f s) ∧
    (∀ s, w.1.taken s = true ↔ ∃ i e, w.1.objects.cell i = some e ∧ InRun e s) ∧
    (∀ owner pages placement err t' src', w.1.create owner pages placement w.2 = (.error err, t', src') →
      t' = w.1 ∧ (src' = w.2 ∨ src' = freeFrames (draws w.2 pages).2 (draws w.2 pages).1) ∧
      (err = .outOfFrameSlots → ∀ base, base + pages ≤ cfg.maxFrameSlots →
        ∃ s, base ≤ s ∧ s < base + pages ∧ w.1.taken s = true)) ∧
    ∀ owner pages pager err t', w.1.createPaged owner pages pager = (.error err, t') →
      t' = w.1 ∧ (err = .outOfFrameSlots → ∀ base, base + pages ≤ cfg.maxFrameSlots →
        ∃ s, base ≤ s ∧ s < base + pages ∧ w.1.taken s = true) := by
  have pooled : w.1.Pooled := run.invariant (·.1.Pooled) (fun _ _ _ => pooled_step) pooled_new
  refine ⟨pooled.sound.apart,fun s => ⟨pooled.covered s,?_⟩,?_,?_⟩
  · rintro ⟨i,e,here,within⟩
    exact pooled.sound.claimed i e here s within
  · intro _ _ _ _ _ _ failed
    obtain ⟨same,freed,lacking⟩ := pooled.create_refused failed
    exact ⟨same,freed,fun full _ => takeRun_refused (lacking full).2 (lacking full).1⟩
  · intro _ _ _ _ _ failed
    obtain ⟨same,lacking⟩ := createPaged_refused failed
    exact ⟨same,fun full _ => takeRun_refused (lacking full).2 (lacking full).1⟩

theorem third_slot_is_in_a_run : ∃ w : MemoryTable .minimal × BumpFrameAllocator .minimal,
      Run PoolStep (new, .new [⟨0x100000, 0x4000, .usable⟩])
        [.create ⟨1⟩ 2 .default, .createPaged ⟨1⟩ 1 ⟨7⟩, .create ⟨1⟩ 4 .default, .destroy ⟨0x1000⟩] w ∧
      (w.1.taken 1 = false ∧ w.1.taken 2 = true) ∧ ∃ i e, w.1.objects.cell i = some e ∧ InRun e 2 :=
  Disciplined.reaches_also (by decide +kernel) fun _ run taken => ((slot_runs_are_exact run).2.1 2).mp taken.2

end Tessera.MemoryTable
