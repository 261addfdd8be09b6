import Mathlib.Algebra.Order.BigOperators.Group.Finset
import Tessera.Process.StaleHandles

/-!
Reference counts. The handle tables of any number of processes share one object table. A
reference is in a slot of one of them or on its way, made or taken out and not yet
installed. An object's count is the number of its references, and the object goes with the
close of the last.
-/
namespace Tessera
open Function Transition List Option Slots ObjectTable
variable {cap : Nat} {o : ObjectId} {cfg : Config} {e : HandleEntry}

theorem sum_update {α : Type} (weight : α → Nat) (f : Fin n → α) (i : Fin n) (a : α) :
    ∑ j, weight (update f i a j) + weight (f i) = ∑ j, weight (f j) + weight a := by
  have others : ∑ j ∈ Finset.univ.erase i, weight (update f i a j) = ∑ j ∈ Finset.univ.erase i, weight (f j) :=
    Finset.sum_congr rfl fun j other => by rw [update_of_ne (Finset.ne_of_mem_erase other)]
  rw [← Finset.add_sum_erase _ _ (Finset.mem_univ i), ← Finset.add_sum_erase _ (weight <| f ·) (Finset.mem_univ i),
    update_self]
  omega

/-- What the kernel reads of an object id. -/
def ObjectId.key (id : ObjectId) : Nat × Nat := (id.index, id.generation)

section
variable {key : Nat × Nat}

theorem count_first (l : List (Nat × Nat)) (k : Nat × Nat) : (key :: l).count k = [key].count k + l.count k := by
  rw [← count_append, singleton_append]

theorem count_one {f g : Nat × Nat → Nat} (changed : ∀ k, g k = if k = key then 1 + f key else f k) (k : Nat × Nat) :
    g k = [key].count k + f k := by
  rw [changed]
  by_cases same : k = key
  · rw [if_pos same, same, count_singleton_self]
  · rw [if_neg same, count_singleton, beq_false_of_ne (Ne.symm same)]
    exact (Nat.zero_add _).symm

end

namespace ObjectTable
variable {t t' : ObjectTable cap} {e : ObjectEntry}

def refcount (t : ObjectTable cap) (id : ObjectId) : Option Nat := (t.entry id).map (·.refcount)

def counted (t : ObjectTable cap) (k : Nat × Nat) : Nat :=
  if t.generations k.1 = k.2 then (t.slots.cell k.1).elim 0 (·.refcount) else 0

theorem entry_eq_some (found : t.entry o = some e) :
    o.index < cap ∧ (o.index, t.generations o.index) = o.key ∧ t.counted o.key = e.refcount := by
  obtain ⟨⟨inside,now⟩,here⟩ := ite_none_right_eq_some.mp found
  rw [counted, ObjectId.key, if_pos now, here, now]
  exact ⟨inside,rfl,rfl⟩

theorem entry_of_counted (live : 0 < t.counted o.key) : ∃ e, t.entry o = some e := by
  unfold counted at live
  split at live
  · rename_i now
    obtain ⟨e,here⟩ : ∃ e, t.slots.cell o.index = some e := by
      refine ne_none_iff_exists'.mp fun empty => ?_
      rw [ObjectId.key, empty] at live
      cases live
    exact ⟨e,ite_none_right_eq_some.mpr ⟨⟨lt_of_cell here,now⟩,here⟩⟩
  · cases live

theorem refcount_isSome : (t.refcount o).isSome = true ↔ 0 < t.counted o.key := by
  unfold refcount
  rw [isSome_map]
  constructor
  · intro present
    obtain ⟨e,found⟩ := isSome_iff_exists.mp present
    rw [(entry_eq_some found).2.2]
    exact e.counted
  · intro live
    obtain ⟨_,found⟩ := entry_of_counted live
    rw [found]
    rfl

section
variable (t) (i : Nat) (k : Nat × Nat)

theorem counted_put {i : Nat} (inside : i < cap) (e : ObjectEntry) (k : Nat × Nat) :
    ({ t with slots := t.slots.put i e } : ObjectTable cap).counted k =
      if k = (i, t.generations i) then e.refcount else t.counted k := by
  obtain ⟨j,g⟩ := k
  unfold counted
  by_cases spot : j = i
  · subst spot
    by_cases now : t.generations j = g
    · simp [now, cell_put_self _ inside]
    · simp [now, Ne.symm now]
  · simp [put, cell_assign_ne _ (Ne.symm spot), spot]

theorem counted_clear (g : Nat) : (⟨t.slots.clear i, update t.generations i g⟩ : ObjectTable cap).counted k =
    if k = (i, t.generations i) then 0 else t.counted k := by
  obtain ⟨j,h⟩ := k
  unfold counted
  by_cases spot : j = i
  · subst spot
    by_cases now : t.generations j = h
    · simp [now, cell_clear]
    · simp [now, cell_clear]
  · simp [cell_clear, Ne.symm spot, spot]

end

theorem counted_retain (live : 0 < t.counted o.key) : ∃ t', t.retain o = (.ok (), t') ∧
    t'.generations = t.generations ∧ ∀ k, t'.counted k = [o.key].count k + t.counted k := by
  obtain ⟨_,found⟩ := entry_of_counted live
  obtain ⟨inside,key,count⟩ := entry_eq_some found
  unfold retain
  rw [found]
  refine ⟨_,rfl,rfl,count_one fun k => ?_⟩
  rw [counted_put t inside, key, count, Nat.add_comm 1]

theorem counted_release (live : 0 < t.counted o.key) (bounded : ∀ i, t.generations i < 2 ^ 16) :
    (∀ i, (t.release o).2.generations i < 2 ^ 16) ∧
    ∀ k, t.counted k = [o.key].count k + (t.release o).2.counted k := by
  obtain ⟨e,found⟩ := entry_of_counted live
  obtain ⟨inside,key,_⟩ := entry_eq_some found
  have positive := e.counted
  unfold release
  rw [found]
  dsimp only
  split
  · refine ⟨fun i => ?_,count_one fun k => ?_⟩
    · dsimp only
      rw [update_apply]
      split
      · omega
      · exact bounded i
    rw [counted_clear, counted_clear, key, if_pos rfl]
    split
    · rename_i same
      rw [same]
      omega
    · rfl
  · refine ⟨bounded,count_one fun k => ?_⟩
    rw [counted_put t inside, counted_put t inside, key, if_pos rfl]
    split
    · rename_i same
      rw [same]
      dsimp only
      omega
    · rfl

theorem counted_create {objectType : ObjectType} (few : cap ≤ 2 ^ 16) (bounded : ∀ i, t.generations i < 2 ^ 16)
    (done : t.create objectType = (.ok o, t')) :
    t'.generations = t.generations ∧ ∀ k, t'.counted k = [o.key].count k + t.counted k := by
  unfold create at done
  split at done
  · cases done
  rename_i index free
  obtain ⟨inside,empty⟩ := free?_eq_some free
  have generation := bounded index
  cases done
  have key : (ObjectId.new index (t.generations index)).key = (index, t.generations index) := by
    simp only [ObjectId.key, ObjectId.new, ObjectId.index, ObjectId.generation, Prod.mk.injEq]
    omega
  refine ⟨rfl,count_one fun k => ?_⟩
  rw [counted_put t inside, key]
  simp [counted, empty]

end ObjectTable

namespace HandleTable
variable {t t' : HandleTable cfg} {h : Handle} {rights : Rights}

def references (t : HandleTable cfg) (k : Nat × Nat) : Nat := (t.slots.live.map (·.object.key)).count k

theorem references_insert (done : t.insert o rights = (.ok h, t')) (k : Nat × Nat) :
    t'.references k = [o.key].count k + t.references k := by
  unfold insert at done
  split at done
  · cases done
  rename_i free
  obtain ⟨inside,empty⟩ := free?_eq_some free
  cases done
  rw [references, ((live_put_perm inside empty).map _).count_eq, map_cons, count_first, references]

theorem references_vacate (here : t.slots.cell index = some e) (k : Nat × Nat) :
    t.references k = [e.object.key].count k + (t.vacate index).references k := by
  rw [references, ((live_clear_perm here).map _).count_eq, map_cons, count_first, references, vacate]

theorem references_replaceRights (k : Nat × Nat) : (t.replaceRights h rights).2.references k = t.references k := by
  unfold replaceRights
  split
  · rfl
  rename_i e found
  split
  · have here := cell_of_entry found
    have put := cell_put_self t.slots (lt_of_cell here) { e with rights := rights }
    have emptied : (t.slots.put h.index { e with rights := rights }).clear h.index = t.slots.clear h.index := by
      simp [Slots.put, Slots.clear, Slots.assign]
    rw [references, references, ((live_clear_perm put).map _).count_eq, emptied,
      ((live_clear_perm here).map _).count_eq, map_cons, map_cons]
  · rfl

theorem references_duplicate {objects : ObjectTable cap} (newRights : Rights)
    (held : ∀ e, t.entry h = .ok e → 0 < objects.counted e.object.key) (bounded : ∀ i, objects.generations i < 2 ^ 16) :
    (∀ i, (t.duplicate objects h newRights).2.2.generations i < 2 ^ 16) ∧ ∃ more : Nat × Nat → Nat,
      ∀ k, (t.duplicate objects h newRights).2.1.references k = more k + t.references k ∧
        (t.duplicate objects h newRights).2.2.counted k = more k + objects.counted k := by
  unfold duplicate lookup
  cases found : t.entry h with
  | error => exact ⟨bounded,fun _ => 0,fun _ => by simp⟩
  | ok e =>
    obtain ⟨retained,kept,generations,counts⟩ := counted_retain (held e found)
    rw [← generations] at bounded
    dsimp only
    rw [kept]
    split
    · exact ⟨generations ▸ bounded,fun _ => 0,fun _ => by simp⟩
    dsimp only
    split
    · rename_i inserted
      exact ⟨bounded,_,fun k => ⟨references_insert inserted k,counts k⟩⟩
    rename_i refused
    unfold insert at refused
    split at refused
    · cases refused
      have live : 0 < retained.counted e.object.key := by
        rw [counts, count_singleton_self]
        omega
      obtain ⟨after,undone⟩ := counted_release live bounded
      refine ⟨after,fun _ => 0,fun k => ⟨(Nat.zero_add _).symm,?_⟩⟩
      have := counts k
      have := undone k
      dsimp only
      omega
    · cases refused

theorem take_ok (done : t.take h = (.ok (o, rights), t')) :
    t.slots.cell h.index = some ⟨o, rights⟩ ∧ t' = t.vacate h.index := by
  unfold take at done
  split at done
  · cases done
  rename_i looked
  unfold takeNarrowed at done
  rw [looked] at done
  dsimp only at done
  split at done
  · cases done
    exact ⟨cell_of_lookup looked,rfl⟩
  · cases done

end HandleTable

structure SharedTables (cfg : Config) (cap n : Nat) where
  tables : Fin n → HandleTable cfg
  objects : ObjectTable cap
  moving : List (ObjectId × Rights)

inductive ReferenceAction (n : Nat) where
  | create (objectType : ObjectType) (rights : Rights)
  | install (i : Fin n) (position : Nat)
  | duplicate (i : Fin n) (h : Handle) (newRights : Rights)
  | replaceRights (i : Fin n) (h : Handle) (newRights : Rights)
  | close (i : Fin n) (h : Handle)
  | take (i : Fin n) (h : Handle)

namespace SharedTables
variable {cap n : Nat}

def boot : SharedTables cfg cap n := ⟨fun _ => .new, .new, []⟩

def act (w : SharedTables cfg cap n) : ReferenceAction n → SharedTables cfg cap n
  | .create objectType rights =>
    match w.objects.create objectType with
    | (.ok o, objects) => ⟨w.tables, objects, (o, rights) :: w.moving⟩
    | (.error _, _) => w
  | .install i position =>
    match w.moving[position]? with
    | none => w
    | some (o, rights) =>
      match (w.tables i).install o rights with
      | (.ok _, t) => ⟨update w.tables i t, w.objects, w.moving.eraseIdx position⟩
      -- the caller still has the reference
      | (.error _, _) => w
  | .duplicate i h newRights =>
    match (w.tables i).duplicate w.objects h newRights with
    | (_, t, objects) => ⟨update w.tables i t, objects, w.moving⟩
  | .replaceRights i h newRights =>
    ⟨update w.tables i ((w.tables i).replaceRights h newRights).2, w.objects, w.moving⟩
  | .close i h =>
    match (w.tables i).close w.objects h with
    | (_, t, objects) => ⟨update w.tables i t, objects, w.moving⟩
  | .take i h =>
    match (w.tables i).take h with
    | (.ok moved, t) => ⟨update w.tables i t, w.objects, moved :: w.moving⟩
    | (.error _, _) => w

def Step (w : SharedTables cfg cap n) (a : ReferenceAction n) (w' : SharedTables cfg cap n) : Prop := w.act a = w'

/-- The live handles to an object and its references on their way. -/
def references (w : SharedTables cfg cap n) (k : Nat × Nat) : Nat :=
  ∑ i, (w.tables i).references k + (w.moving.map (·.1.key)).count k

structure Exact (w : SharedTables cfg cap n) : Prop where
  bounded : ∀ i, w.objects.generations i < 2 ^ 16
  counts : ∀ k, w.references k = w.objects.counted k

/-- Both sides of the account gain the same. -/
def Gains (w w' : SharedTables cfg cap n) : Prop :=
  (∀ i, w'.objects.generations i < 2 ^ 16) ∧ ∃ more : Nat × Nat → Nat, ∀ k,
    w'.references k = more k + w.references k ∧ w'.objects.counted k = more k + w.objects.counted k

variable {w w' : SharedTables cfg cap n} {a : ReferenceAction n} {i : Fin n}

theorem references_update (i : Fin n) (t : HandleTable cfg) (objects : ObjectTable cap) (moving : List (ObjectId × Rights))
    (k : Nat × Nat) : (⟨update w.tables i t, objects, moving⟩ : SharedTables cfg cap n).references k +
      (w.tables i).references k + (w.moving.map (·.1.key)).count k =
      w.references k + t.references k + (moving.map (·.1.key)).count k := by
  have sums := sum_update (·.references k) w.tables i t
  unfold references
  dsimp only at *
  omega

section
variable (exact : w.Exact)
include exact

theorem Exact.live {index : Nat} (here : (w.tables i).slots.cell index = some e) : 0 < w.objects.counted e.object.key := by
  have one : 0 < (w.tables i).references e.object.key := count_pos_iff.mpr (List.mem_map_of_mem (mem_live.mpr ⟨_,here⟩))
  have part := Finset.single_le_sum (f := fun j => (w.tables j).references e.object.key) (fun _ _ => Nat.zero_le _)
    (Finset.mem_univ i)
  rw [← exact.counts, references]
  omega

theorem Exact.still : w.Gains w :=
  ⟨exact.bounded,fun _ => 0,fun _ => by simp⟩

theorem Exact.passes {moving : List (ObjectId × Rights)} (same : ∀ k,
    t.references k + (moving.map (·.1.key)).count k = (w.tables i).references k + (w.moving.map (·.1.key)).count k) :
    w.Gains ⟨update w.tables i t, w.objects, moving⟩ := by
  refine ⟨exact.bounded,fun _ => 0,fun k => ⟨?_,(Nat.zero_add _).symm⟩⟩
  have account := w.references_update i t w.objects moving k
  have := same k
  dsimp only
  omega

theorem Exact.step_cases (few : cap ≤ 2 ^ 16) (step : w.Step a w') :
    (w.Gains w' ∧ ∀ i h e, a = .close i h → (w.tables i).entry h ≠ .ok e) ∨
    ∃ i h e, a = .close i h ∧ (w.tables i).entry h = .ok e ∧ (∀ i, w'.objects.generations i < 2 ^ 16) ∧
      ∀ k, w.references k = [e.object.key].count k + w'.references k ∧
        w.objects.counted k = [e.object.key].count k + w'.objects.counted k := by
  subst step
  cases a with
  | create =>
    refine .inl ⟨?_,nofun⟩
    dsimp only [act]
    split
    · rename_i created
      obtain ⟨generations,counts⟩ := ObjectTable.counted_create few exact.bounded created
      refine ⟨generations ▸ exact.bounded,_,fun k => ⟨?_,counts k⟩⟩
      rw [references, map_cons, count_first, references]
      dsimp only
      omega
    · exact exact.still
  | install =>
    refine .inl ⟨?_,nofun⟩
    dsimp only [act]
    split
    · exact exact.still
    rename_i found
    split
    · rename_i put
      refine exact.passes fun k => ?_
      obtain ⟨inside,there⟩ := List.getElem?_eq_some_iff.mp found
      have taken := ((getElem_cons_eraseIdx_perm inside).map (·.1.key)).count_eq k
      rw [there, map_cons, count_first] at taken
      have inserted := HandleTable.references_insert put k
      dsimp only at taken
      omega
    · exact exact.still
  | duplicate i h newRights =>
    obtain ⟨bounded,more,effect⟩ := (w.tables i).references_duplicate (h := h) newRights
      (fun e found => exact.live (HandleTable.cell_of_entry found)) exact.bounded
    dsimp only [act]
    generalize (w.tables i).duplicate w.objects h newRights = done at *
    obtain ⟨_,t,objects⟩ := done
    refine .inl ⟨⟨bounded,more,fun k => ⟨?_,(effect k).2⟩⟩,nofun⟩
    have account := w.references_update i t objects w.moving k
    have := (effect k).1
    dsimp only at *
    omega
  | replaceRights =>
    refine .inl ⟨exact.passes fun k => ?_,nofun⟩
    rw [HandleTable.references_replaceRights]
  | close i h =>
    dsimp only [act, HandleTable.close]
    cases found : (w.tables i).entry h with
    | error =>
      refine .inl ⟨exact.passes fun _ => rfl,fun _ _ _ same => ?_⟩
      cases same
      rw [found]
      nofun
    | ok e =>
      have here := HandleTable.cell_of_entry found
      obtain ⟨bounded,counts⟩ := ObjectTable.counted_release (exact.live here) exact.bounded
      refine .inr ⟨i,h,e,rfl,found,bounded,fun k => ⟨?_,counts k⟩⟩
      have account := w.references_update i ((w.tables i).vacate h.index) (w.objects.release e.object).2 w.moving k
      rw [HandleTable.references_vacate here k] at account
      dsimp only
      omega
  | take =>
    refine .inl ⟨?_,nofun⟩
    dsimp only [act]
    split
    · rename_i taken
      obtain ⟨here,rfl⟩ := HandleTable.take_ok taken
      refine exact.passes fun k => ?_
      rw [HandleTable.references_vacate here k, map_cons, count_first]
      dsimp only
      omega
    · exact exact.still

theorem Exact.step (few : cap ≤ 2 ^ 16) (step : w.Step a w') : w'.Exact := by
  obtain ⟨⟨bounded,_,effect⟩,_⟩ | ⟨_,_,_,_,_,bounded,effect⟩ := exact.step_cases few step
  all_goals
    refine ⟨bounded,fun k => ?_⟩
    have := effect k
    have := exact.counts k
    omega

end

/-- In every run an object's count is the number of its references, and what takes an object
    away is the close of a handle to it when it has one reference. -/
theorem references_are_counted (few : cap ≤ 2 ^ 16) {history : List (ReferenceAction n)} (run : Run Step boot history w) :
    (∀ id count, w.objects.refcount id = some count → w.references id.key = count) ∧
    ∀ a w', w.Step a w' → ∀ id, (w.objects.refcount id).isSome = true →
      ((w'.objects.refcount id).isSome = false ↔ w.references id.key = 1 ∧
        ∃ i h e, a = .close i h ∧ (w.tables i).entry h = .ok e ∧ e.object.key = id.key) := by
  have exact : w.Exact := by
    refine run.invariant Exact (fun _ _ _ exact step => exact.step few step) ⟨fun _ => Nat.two_pow_pos 16,fun k => ?_⟩
    have none : (boot : SharedTables cfg cap n).objects.counted k = 0 := by
      simp [ObjectTable.counted, boot, ObjectTable.new]
    rw [none]
    simp [references, HandleTable.references, boot, HandleTable.new, Slots.live, Slots.empty]
  constructor
  · intro id _ found
    obtain ⟨e,there,rfl⟩ := map_eq_some_iff.mp found
    rw [exact.counts, (ObjectTable.entry_eq_some there).2.2]
  intro _ _ step id present
  rw [ObjectTable.refcount_isSome] at present
  rw [← Bool.not_eq_true, ObjectTable.refcount_isSome, exact.counts]
  obtain ⟨⟨_,_,effect⟩,other⟩ | ⟨i,h,e,rfl,found,_,effect⟩ := exact.step_cases few step
  · have := (effect id.key).2
    refine iff_of_false (by omega) ?_
    rintro ⟨_,i,h,e,closed,found,_⟩
    exact other i h e closed found
  have after := (effect id.key).2
  by_cases same : e.object.key = id.key
  · rw [same, count_singleton_self] at after
    refine ⟨fun _ => ⟨by omega,i,h,e,rfl,found,same⟩,fun _ => by omega⟩
  rw [count_singleton, beq_false_of_ne same] at after
  refine iff_of_false (fun gone => gone (after.trans (Nat.zero_add _) ▸ present)) ?_
  rintro ⟨_,_,_,_,closed,there,named⟩
  cases closed
  rw [found, Except.ok.injEq] at there
  exact same (there ▸ named)

/-- An object with two handles in two tables, one of them duplicated and moved: it has two
    references until the first is closed, and the close of the last takes it away. -/
theorem last_close_takes_object_away : ∃ w v u : SharedTables .minimal 1 2,
    Run Step boot [.create .test .transfer, .install 0 0, .duplicate 0 (.new 0 0) .transfer, .take 0 (.new 1 0),
      .install 1 0] w ∧ w.references (0, 0) = 2 ∧ w.Step (.close 0 (.new 0 0)) v ∧ v.references (0, 0) = 1 ∧
    v.Step (.close 1 (.new 0 0)) u ∧ (u.objects.refcount (.new 0 0)).isSome = false := by
  have run : Run Step (boot : SharedTables .minimal 1 2) [.create .test .transfer, .install 0 0,
      .duplicate 0 (.new 0 0) .transfer, .take 0 (.new 1 0), .install 1 0] _ :=
    (((((Run.start _).more rfl).more rfl).more rfl).more rfl).more rfl
  have closed : Run Step (boot : SharedTables .minimal 1 2) _ _ := run.more (a := .close 0 (.new 0 0)) rfl
  have two := (references_are_counted (by decide) run).1 (.new 0 0) 2 rfl
  obtain ⟨counted,gone⟩ := references_are_counted (by decide) closed
  have one := counted (.new 0 0) 1 rfl
  exact ⟨_,_,_,run,two,rfl,one,rfl,(gone (.close 1 (.new 0 0)) _ rfl (.new 0 0) rfl).mpr ⟨one,1,.new 0 0,_,rfl,rfl,rfl⟩⟩

end SharedTables
end Tessera
