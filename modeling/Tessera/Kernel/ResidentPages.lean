import Tessera.Kernel.MemoryEffects
import Tessera.Memory.CachedPages
import Mathlib.Algebra.BigOperators.Group.Finset.Basic

/-!
How many pages the memory table holds for objects that a service backs, and what each
change of the table does to that number. Filling or emptying a slot of such an object
moves it by one. Everything else that a call does to the table leaves it alone, because
the runs of two objects never meet. The cache of an object has room for every page the
object has, so a page is never refused for want of a record.
-/
namespace Tessera.MemoryTable
open List Slots Finset Option Function MemoryTable ObjectCache
variable {cfg : Config} {σ : Type}

def residentIn (t : MemoryTable cfg) (e : MemoryObject cfg) : Nat := (t.framesIn e.base e.pages).length

def residentAt (t : MemoryTable cfg) (i : Nat) : Nat :=
  match t.objects.cell i with
  | none => 0
  | some e => if e.pager.isSome then t.residentIn e else 0

def cachedPages (t : MemoryTable cfg) : Nat := ∑ i ∈ range cfg.maxMemoryObjects, t.residentAt i

structure Alike (e e' : MemoryObject cfg) : Prop where
  base : e'.base = e.base
  pages : e'.pages = e.pages
  pager : e'.pager = e.pager

variable {t t' : MemoryTable cfg} {base pages s page : Nat} {f : MemoryObject cfg → MemoryObject cfg}
  {o : ObjectId} {e : MemoryObject cfg}

theorem framesIn_congr (same : ∀ s, base ≤ s → s < base + pages → t'.slots s = t.slots s) :
    t'.framesIn base pages = t.framesIn base pages := by
  refine filterMap_congr fun s mem => ?_
  obtain ⟨above,below⟩ := mem_range'_1.mp mem
  exact same s above below

theorem residentAt_alike (alike : Option.Rel Alike (t.objects.cell i) (t'.objects.cell i))
    (slots : ∀ e, t.objects.cell i = some e → ∀ s, InRun e s → t'.slots s = t.slots s) :
    t'.residentAt i = t.residentAt i := by
  unfold residentAt
  generalize t.objects.cell i = before, t'.objects.cell i = after at alike slots
  cases alike with
  | none => rfl
  | @some e e' alike =>
    have frames : t'.framesIn e.base e.pages = t.framesIn e.base e.pages :=
      framesIn_congr fun s above below => slots e rfl s ⟨above,below⟩
    unfold residentIn
    dsimp only
    rw [alike.pager, alike.base, alike.pages, frames]

theorem cachedPages_congr (same : ∀ i, t'.residentAt i = t.residentAt i) : t'.cachedPages = t.cachedPages :=
  sum_congr rfl fun i _ => same i

theorem cachedPages_shift (inside : j < cfg.maxMemoryObjects)
    (others : ∀ i, i ≠ j → t'.residentAt i = t.residentAt i) :
    t'.cachedPages + t.residentAt j = t.cachedPages + t'.residentAt j := by
  have mem : j ∈ Finset.range cfg.maxMemoryObjects := Finset.mem_range.mpr inside
  have rest : ∑ i ∈ (Finset.range cfg.maxMemoryObjects).erase j, t'.residentAt i =
      ∑ i ∈ (Finset.range cfg.maxMemoryObjects).erase j, t.residentAt i :=
    sum_congr rfl fun i other => others i (ne_of_mem_erase other)
  unfold cachedPages
  rw [← add_sum_erase _ _ mem, ← add_sum_erase _ t.residentAt mem]
  omega

theorem relAlike_of {p : MemoryObject cfg → MemoryObject cfg → Prop} (alike : ∀ e e', p e e' → Alike e e')
    (rel : Option.Rel p c c') : Option.Rel Alike c c' := by
  cases rel with
  | none => exact .none
  | some h => exact .some (alike _ _ h)

theorem relAlike_refl (c : Option (MemoryObject cfg)) : Option.Rel Alike c c :=
  Slots.rel_refl (fun _ => ⟨rfl,rfl,rfl⟩) c

theorem cachedPages_eases (eases : Eases t t') : t'.cachedPages = t.cachedPages := by
  refine cachedPages_congr fun i => residentAt_alike ?_ fun _ _ s _ => congrFun eases.slots s
  exact relAlike_of (fun _ _ eased => ⟨eased.base,eased.pages,eased.pager⟩) (eases.cells i)

section
variable (t : MemoryTable cfg)

theorem length_framesIn_update (x : Option PhysFrame) (above : base ≤ s) (below : s < base + pages) :
    (({ t with slots := Function.update t.slots s x } : MemoryTable cfg).framesIn base pages).length +
      (t.slots s).toList.length = (t.framesIn base pages).length + x.toList.length := by
  induction pages generalizing base with
  | zero => omega
  | succ pages ih =>
    have cons (u : MemoryTable cfg) :
        u.framesIn base (pages + 1) = (u.slots base).toList ++ u.framesIn (base + 1) pages := by
      unfold framesIn run
      rw [range'_succ, filterMap_cons]
      cases u.slots base <;> rfl
    rw [cons, cons, length_append, length_append]
    by_cases first : s = base
    · have rest : ({ t with slots := Function.update t.slots s x } : MemoryTable cfg).framesIn (base + 1) pages =
          t.framesIn (base + 1) pages :=
        framesIn_congr fun _ later _ => Function.update_of_ne (by omega) _ _
      dsimp only
      rw [rest, first, update_self]
      omega
    have here : Function.update t.slots s x base = t.slots base := Function.update_of_ne (Ne.symm first) _ _
    have later := @ih (base + 1) (by omega) (by omega)
    dsimp only
    rw [here]
    omega

theorem relAlike_update (o : ObjectId) (keeps : ∀ e, Alike e (f e)) (i : Nat) :
    Option.Rel Alike (t.objects.cell i) ((t.update o f).objects.cell i) := by
  rw [update, cell_modify]
  split
  · cases t.objects.cell i with
    | none => exact .none
    | some e => exact .some (keeps e)
  · exact relAlike_refl _

theorem cachedPages_update (o : ObjectId) (keeps : ∀ e, Alike e (f e)) : (t.update o f).cachedPages = t.cachedPages :=
  cachedPages_congr fun i => residentAt_alike (t.relAlike_update o keeps i) fun _ _ _ _ => rfl

theorem evict_cases (o : ObjectId) (off : Nat) :
    t.evict o off = (none, t) ∨ ∃ e frame, t.find o = some e ∧ off / frameSize < e.pages ∧
      t.slots (e.base + off / frameSize) = some frame ∧ t.evict o off = (some frame,
        { t with slots := Function.update t.slots (e.base + off / frameSize) none }.update o
          fun e => { e with cache := e.cache.forget off }) := by
  unfold MemoryTable.evict
  split
  · exact .inl rfl
  rename_i e found
  dsimp only
  split
  · exact .inl rfl
  split
  · exact .inl rfl
  · rename_i frame here
    exact .inr ⟨e,frame,found,by omega,here,rfl⟩

end

theorem cachedPages_place (sound : t.Sound) (found : t.find o = some e) (backed : e.pager.isSome = true)
    (inside : page < e.pages) (x : Option PhysFrame) (keeps : ∀ e, Alike e (f e)) :
    (({ t with slots := Function.update t.slots (e.base + page) x } : MemoryTable cfg).update o f).cachedPages +
      (t.slots (e.base + page)).toList.length = t.cachedPages + x.toList.length := by
  obtain ⟨_,j,_,here⟩ := cell_of_find found
  have mine : InRun e (e.base + page) := ⟨Nat.le_add_right _ _,by omega⟩
  let placed : MemoryTable cfg := { t with slots := Function.update t.slots (e.base + page) x }
  have same : (placed.update o f).cachedPages = placed.cachedPages := cachedPages_update placed o keeps
  have others (i : Nat) (other : i ≠ j) : placed.residentAt i = t.residentAt i := by
    refine residentAt_alike (relAlike_refl _) fun e' there _ within => Function.update_of_ne ?_ _ _
    rintro rfl
    exact sound.apart i j e' e there here other _ within mine
  have shift := cachedPages_shift (lt_of_cell here) others
  have count := t.length_framesIn_update x mine.1 mine.2
  have before : t.residentAt j = (t.framesIn e.base e.pages).length := by
    unfold residentAt
    rw [here]
    exact if_pos backed
  have after : placed.residentAt j = (placed.framesIn e.base e.pages).length := by
    unfold residentAt
    rw [show placed.objects.cell j = some e from here]
    exact if_pos backed
  change (placed.update o f).cachedPages + _ = _
  change (placed.framesIn e.base e.pages).length + _ = _ at count
  omega

theorem cachedPages_evict (sound : t.Sound) (backed : ∀ e, t.find o = some e → e.pager.isSome = true)
    (evicted : t.evict o off = (some frame, t')) : t'.cachedPages + 1 = t.cachedPages := by
  rcases t.evict_cases o off with kept | ⟨e,_,found,inside,here,gone⟩
  · rw [kept] at evicted
    cases evicted
  rw [gone] at evicted
  cases evicted
  have count := cachedPages_place sound found (backed e found) inside none
    (f := fun e => { e with cache := e.cache.forget off }) fun _ => ⟨rfl,rfl,rfl⟩
  rw [here] at count
  exact count

/-- The cache keeps at most one record for each page of the object and still answers. -/
structure Roomy (e : MemoryObject cfg) : Prop where
  distinct : e.cache.Distinct
  answers : e.cache.faulted = false
  listed : ∀ i a, e.cache.pages.cell i = some a → ∃ page, page < e.pages ∧ a.offset = page * frameSize
  small : e.pages ≤ cfg.maxObjectPages

def AllRoomy (t : MemoryTable cfg) : Prop := ∀ i e, t.objects.cell i = some e → Roomy e

theorem Roomy.of_cache {e' : MemoryObject cfg} (roomy : Roomy e) (pages : e'.pages = e.pages)
    (distinct : e'.cache.Distinct) (answers : e'.cache.faulted = e.cache.faulted)
    (listed : ∀ i a, e'.cache.pages.cell i = some a → ∃ page, page < e.pages ∧ a.offset = page * frameSize) :
    Roomy e' :=
  ⟨distinct,answers.trans roomy.answers,pages ▸ listed,pages ▸ roomy.small⟩

theorem roomy_new (fresh : e.cache = .new limit) (small : e.pages ≤ cfg.maxObjectPages) : Roomy e := by
  refine ⟨fresh ▸ ObjectCache.distinct_new limit,by rw [fresh]; rfl,?_,small⟩
  intro _ _ here
  simp [fresh, ObjectCache.new] at here

theorem Roomy.edit (roomy : Roomy e) (off : Nat) {f : PageEntry → PageEntry}
    (keeps : ∀ p, (f p).offset = p.offset) : Roomy { e with cache := e.cache.edit off f } := by
  refine roomy.of_cache rfl (roomy.distinct.edit off keeps) rfl fun i a here => ?_
  rcases cell_modify_cases here with same | ⟨b,old,_,rfl⟩
  · exact roomy.listed i a same
  · rw [keeps]
    exact roomy.listed i b old

theorem Roomy.forget (roomy : Roomy e) (off : Nat) : Roomy { e with cache := e.cache.forget off } := by
  have cells : (e.cache.forget off).faulted = e.cache.faulted ∧
      ∀ i a, (e.cache.forget off).pages.cell i = some a → e.cache.pages.cell i = some a := by
    unfold ObjectCache.forget
    split
    · exact ⟨rfl,fun _ _ here => (cell_clear_cases here).2⟩
    · exact ⟨rfl,fun _ _ => id⟩
  exact roomy.of_cache rfl (roomy.distinct.forget off).1 cells.1 fun i a here => roomy.listed i a (cells.2 i a here)

/-- A cache that is full holds a record for as many pages as it has cells, and the object
    has fewer besides the one asked for. -/
theorem Roomy.install (roomy : Roomy e) (fits : cfg.maxObjectPages ≤ cfg.maxCachedPages)
    (inside : page < e.pages) : (e.cache.install (page * frameSize)).1 = .ok () ∧
      Roomy { e with cache := (e.cache.install (page * frameSize)).2 } := by
  unfold ObjectCache.install
  rw [if_neg (by simp [roomy.answers])]
  split
  · exact ⟨rfl,roomy⟩
  rename_i missing
  have fresh (i : Nat) (a : PageEntry) (here : e.cache.pages.cell i = some a) : a.offset ≠ page * frameSize := by
    have unmatched := index?_eq_none.mp (not_isSome_iff_eq_none.mp missing) i a here
    exact of_decide_eq_false unmatched
  split
  · rename_i full
    let place (i : Nat) : Nat := ((e.cache.pages.cell i).map (·.offset / frameSize)).getD 0
    have listed {i : Nat} (inside : i < cfg.maxCachedPages) : ∃ a, e.cache.pages.cell i = some a ∧
        place i < e.pages ∧ a.offset = place i * frameSize := by
      obtain ⟨a,here⟩ := cell_of_full full inside
      obtain ⟨q,small,off⟩ := roomy.listed i a here
      have spot : place i = q := by
        have whole : a.offset / frameSize = q := by rw [off, Nat.mul_div_cancel _ (by decide)]
        simp [place, here, map_some, whole]
      rw [spot]
      exact ⟨a,here,small,off⟩
    have few : (Finset.range cfg.maxCachedPages).card ≤ ((Finset.range e.pages).erase page).card := by
      refine card_le_card_of_injOn place ?_ ?_
      · intro i mem
        obtain ⟨a,here,small,off⟩ := listed (Finset.mem_range.mp mem)
        refine mem_erase.mpr ⟨?_,Finset.mem_range.mpr small⟩
        intro same
        exact fresh i a here (by rw [off, same])
      · intro i first j second same
        obtain ⟨a,here,_,off⟩ := listed (Finset.mem_range.mp first)
        obtain ⟨b,there,_,other⟩ := listed (Finset.mem_range.mp second)
        exact roomy.distinct i j a b here there (by rw [off, other, same])
    rw [card_range, card_erase_of_mem (Finset.mem_range.mpr inside), card_range] at few
    have := roomy.small
    omega
  · rename_i slot _
    have cells {i : Nat} {a : PageEntry}
        (here : (e.cache.pages.put slot ⟨page * frameSize, false, .idle⟩).cell i = some a) :
        (slot = i ∧ a = ⟨page * frameSize, false, .idle⟩) ∨ e.cache.pages.cell i = some a := by
      rcases cell_put_cases here with new | ⟨_,old⟩
      · exact .inl new
      · exact .inr old
    refine ⟨rfl,roomy.of_cache rfl ?_ rfl ?_⟩
    · intro i j a b here there same
      rcases cells here with ⟨rfl,rfl⟩ | first <;> rcases cells there with ⟨rfl,rfl⟩ | second
      · rfl
      · exact absurd same.symm (fresh j b second)
      · exact absurd same (fresh i a first)
      · exact roomy.distinct i j a b first second same
    · intro i a here
      rcases cells here with ⟨_,rfl⟩ | old
      · exact ⟨page,inside,rfl⟩
      · exact roomy.listed i a old

section
variable (roomy : t.AllRoomy)
include roomy

theorem AllRoomy.find (found : t.find o = some e) : Roomy e := by
  obtain ⟨_,i,_,here⟩ := cell_of_find found
  exact roomy i e here

theorem AllRoomy.update (o : ObjectId) (keeps : ∀ e, t.find o = some e → Roomy (f e)) : (t.update o f).AllRoomy := by
  intro i e here
  rw [MemoryTable.update, cell_modify] at here
  split at here
  · rename_i index
    obtain ⟨old,there,rfl⟩ := map_eq_some_iff.mp here
    exact keeps old (by rw [MemoryTable.find, Slots.find?, index, bind_some, there])
  · exact roomy i e here

theorem AllRoomy.eases (eases : Eases t t') : t'.AllRoomy := by
  intro i _ here
  obtain ⟨_,cell,eased⟩ := eases.before here
  have old := roomy i _ cell
  refine old.of_cache eased.pages ?_ (by rw [eased.cache]) ?_ <;> rw [eased.cache]
  · exact old.distinct
  · exact old.listed

theorem supply_cases (fits : cfg.maxObjectPages ≤ cfg.maxCachedPages) (o : ObjectId)
    (page : Nat) (frame : PhysFrame) : (∃ err, t.supply o page frame = (.error err, t)) ∨
      ∃ e, t.find o = some e ∧ e.pager.isSome = true ∧ page < e.pages ∧ t.slots (e.base + page) = none ∧
        t.supply o page frame = (.ok (),
          { t with slots := Function.update t.slots (e.base + page) (some frame) }.update o
            fun e' => { e' with cache := (e.cache.install (page * frameSize)).2 }) := by
  unfold MemoryTable.supply
  split
  · exact .inl ⟨_,rfl⟩
  rename_i e found
  split
  · exact .inl ⟨_,rfl⟩
  rename_i backed
  split
  · exact .inl ⟨_,rfl⟩
  rename_i inside
  split
  · exact .inl ⟨_,rfl⟩
  rename_i empty
  have inside := Nat.not_le.mp inside
  refine .inr ⟨e,found,?_,inside,not_isSome_iff_eq_none.mp empty,?_⟩
  · cases pager : e.pager with
    | none => simp [pager] at backed
    | some => rfl
  · dsimp only
    rw [((roomy.find found).install fits inside).1]

end

/-- What the making of an object does to the table: nothing to a slot in use, and at most
    one new record, without a resident page if a service backs it. -/
structure Founds (t t' : MemoryTable cfg) : Prop where
  spared : ∀ s, t.taken s = true → t'.slots s = t.slots s
  objects : t'.objects = t.objects ∨ ∃ slot e, t.objects.free? = some slot ∧ t'.objects = t.objects.put slot e ∧
    e.cache = .new (dirtyLimit cfg) ∧ e.pages ≤ cfg.maxObjectPages ∧ (e.pager.isSome = true → t'.residentIn e = 0)

theorem Made.founds (made : Made t owner pages pager result t') : Founds t t' := by
  cases made with
  | refused => exact ⟨fun _ _ => rfl,.inl rfl⟩
  | @returned _ base _ clear spared =>
    refine ⟨fun s busy => ?_,.inl rfl⟩
    have outside : ¬ (base ≤ s ∧ s < base + pages) := fun within =>
      Bool.false_ne_true ((clear s within.1 within.2).symm.trans busy)
    exact (if_neg (by omega)).trans (spared s outside)
  | entered small free _ clear spared vacant objects _ _ _ _ _ size cache backed =>
    refine ⟨fun s busy => spared s fun within => ?_,.inr ⟨_,_,free,objects,cache,size ▸ small,fun paged => ?_⟩⟩
    · exact Bool.false_ne_true ((clear s within).symm.trans busy)
    · refine length_eq_zero_iff.mpr (filterMap_eq_nil_iff.mpr fun s mem => ?_)
      exact vacant (backed ▸ paged) s (mem_range'_1.mp mem)

section
variable [FrameSource σ]

variable {t : MemoryTable cfg}

theorem cachedPages_destroy (sound : t.Sound) (vacant : (t.pagerOf o).isSome = true → t.framesOf o = []) (src : σ) :
    (t.destroy o src).2.1.cachedPages = t.cachedPages := by
  rcases t.destroy_cases o src with ⟨e,found,free⟩ | ⟨kept,_⟩
  · obtain ⟨_,j,index,here⟩ := cell_of_find found
    unfold destroy
    rw [index, found]
    dsimp only
    rw [if_neg (by simp [free])]
    refine cachedPages_congr fun i => ?_
    by_cases same : i = j
    · subst same
      have before : t.residentAt i = 0 := by
        unfold residentAt
        rw [here]
        dsimp only
        split
        · rename_i backed
          have none := vacant (by rw [pagerOf, found]; exact backed)
          rw [framesOf, found] at none
          exact length_eq_zero_iff.mpr none
        · rfl
      rw [before]
      unfold residentAt
      rw [cell_clear, if_pos rfl]
    · refine residentAt_alike ?_ fun e' there s within => if_neg ?_
      · dsimp only
        rw [cell_clear, if_neg (Ne.symm same)]
        exact relAlike_refl _
      have := sound.apart i j e' e there here same s within
      have := sound.inside j e here
      unfold InRun at *
      omega
  · rw [kept]

theorem AllRoomy.destroy (roomy : t.AllRoomy) (o : ObjectId) (src : σ) : (t.destroy o src).2.1.AllRoomy := by
  unfold MemoryTable.destroy
  split
  · split
    · exact roomy
    · exact fun i e here => roomy i e (cell_clear_cases here).2
  · exact roomy

end

theorem AllRoomy.founds (roomy : t.AllRoomy) (founds : Founds t t') : t'.AllRoomy := by
  rcases founds.objects with same | ⟨_,_,_,objects,fresh,small,_⟩
  · unfold AllRoomy
    rw [same]
    exact roomy
  intro i f here
  rw [objects] at here
  rcases cell_put_cases here with ⟨_,rfl⟩ | ⟨_,old⟩
  · exact roomy_new fresh small
  · exact roomy i f old

theorem cachedPages_founds (sound : t.Sound) (founds : Founds t t') : t'.cachedPages = t.cachedPages := by
  refine cachedPages_congr fun i => ?_
  have slots : ∀ e, t.objects.cell i = some e → ∀ s, InRun e s → t'.slots s = t.slots s :=
    fun e here s within => founds.spared s (sound.claimed i e here s within)
  rcases founds.objects with same | ⟨slot,_,free,objects,_,_,empty⟩
  · exact residentAt_alike (same ▸ relAlike_refl _) slots
  obtain ⟨inside,vacant⟩ := free?_eq_some free
  by_cases same : i = slot
  · unfold residentAt
    rw [objects, same, vacant, cell_put_self _ inside]
    dsimp only
    split
    · exact empty ‹_›
    · rfl
  refine residentAt_alike ?_ slots
  rw [objects, Slots.put, cell_assign_ne _ (Ne.symm same)]
  exact relAlike_refl _

end Tessera.MemoryTable
