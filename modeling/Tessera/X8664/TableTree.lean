import Tessera.Memory.CountedSource
import Tessera.X8664.PageTables

/-!
The tables of all spaces form one structure: every table that is in use has a place,
which is the space it belongs to and the indices that lead to it, and below the
entry of a table at a place lies the table at the place one index further on. What
lies below an upper-half entry of a top-level table belongs to the kernel, whichever
space the walk began in. Since a table has one place, walks that part never meet
again, and freeing a space frees each of its tables once.
-/
namespace Tessera.X8664
open Function List CountedSource Option Or
variable {σ : Type} {place : Nat → Option Place} {mem mem' : Tables} {src src' : σ}

structure Place where
  owner : Option Nat
  path : List Nat
  deriving DecidableEq

namespace Place

def child (q : Place) (idx : Nat) : Place :=
  ⟨if q.path = [] ∧ 256 ≤ idx then none else q.owner, q.path ++ [idx]⟩

def Under (top q : Place) : Prop := q.owner = top.owner ∧ ∃ rest, q.path = top.path ++ rest

theorem Under.refl (top : Place) : top.Under top := ⟨rfl,[],by simp⟩

theorem child_length (q : Place) (idx : Nat) : (q.child idx).path.length = q.path.length + 1 := by
  simp [child]

variable {top q : Place}

theorem Under.length (under : top.Under q) : top.path.length ≤ q.path.length := by
  obtain ⟨_,_,same⟩ := under
  rw [same, length_append]
  omega

theorem Under.distinct (first : (top.child i).Under q) (second : (top.child j).Under q) : i = j := by
  obtain ⟨_,_,one⟩ := first
  obtain ⟨_,_,two⟩ := second
  rw [one] at two
  simp only [child, append_assoc, singleton_append] at two
  exact (List.cons.inj (append_cancel_left two)).1

theorem Under.up (own : top.path ≠ [] ∨ idx < 256) (under : (top.child idx).Under q) : top.Under q := by
  obtain ⟨owner,rest,path⟩ := under
  refine ⟨?_,idx :: rest,by simpa [child] using path⟩
  rw [owner, child, if_neg]
  rintro ⟨empty,_⟩
  rcases own with deep | _
  · exact deep empty
  · omega

end Place

/-- The tables with a place, what leads from one to the next, and that the frame
    source counts them as handed out. -/
structure Sound {σ : Type} [FrameSource σ] [CountedSource σ] (place : Nat → Option Place) (mem : Tables)
    (source : σ) : Prop where
  aligned : ∀ t q, place t = some q → t % frameSize = 0
  below : ∀ t q idx e, place t = some q → q.path.length < 3 → mem t idx = some e → e.huge = false →
    place e.phys = some (q.child idx)
  counts : CountedSource.Counts (fun f => if (place f.base).isSome then 1 else 0) source

def Keeps (place place' : Nat → Option Place) : Prop := ∀ t q, place t = some q → place' t = some q

section
variable [FrameSource σ] [CountedSource σ]

variable {f : PhysFrame} {q : Place} {t table idx virt : Nat} {value : Option Entry} {shifts : List Nat}

theorem keeps_update (isNew : place t = none) : Keeps place (update place t (some q)) := by
  intro _ _ here
  rw [update_of_ne]
  · exact here
  · intro same
    rw [same, isNew] at here
    cases here

theorem update_eq_some {α β : Type} [DecidableEq α] {f : α → Option β} {i j : α} {v : Option β} {b : β}
    (there : update f i v j = some b) : j = i ∧ v = some b ∨ j ≠ i ∧ f j = some b := by
  by_cases same : j = i <;> simp_all

theorem Tables.writeEntry_cases (mem : Tables) (table idx : Nat) (value : Option Entry) (t i : Nat) :
    mem.writeEntry table idx value t i = mem t i ∨ t = table ∧ i = idx ∧ mem.writeEntry table idx value t i = value := by
  unfold Tables.writeEntry
  by_cases same : t = table <;> by_cases at_idx : i = idx <;> simp [same, at_idx]

theorem linked_entry (other : t ≠ base) :
    ((mem.clearFrame base).writeEntry table idx value) t i = mem t i ∨ t = table ∧ i = idx := by
  rcases (mem.clearFrame base).writeEntry_cases table idx value t i with same | ⟨at_table,at_idx,_⟩
  · rw [same, Tables.clearFrame, update_of_ne other]
    exact .inl rfl
  · exact .inr ⟨at_table,at_idx⟩

section
variable (sound : Sound place mem src)
include sound

theorem Sound.fresh (drawn : FrameSource.allocFrame src = (some f, src')) : place f.base = none := by
  have zero := (alloc_some sound.counts drawn).1
  cases here : place f.base with
  | none => rfl
  | some => simp [here] at zero

theorem Sound.extend (isNew : place f.base = none) (drawn : FrameSource.allocFrame src = (some f, src'))
    (others : ∀ t q' idx e, place t = some q' → q'.path.length < 3 → mem' t idx = some e → e.huge = false →
      update place f.base (some q) e.phys = some (q'.child idx))
    (own : ∀ idx e, mem' f.base idx = some e → e.huge = false → place e.phys = some (q.child idx)) :
    Sound (update place f.base (some q)) mem' src' := by
  refine ⟨fun t q' here => ?_,fun t q' idx e here short entry isTable => ?_,?_⟩
  · rcases update_eq_some here with ⟨rfl,_⟩ | ⟨_,old⟩
    · exact f.aligned
    · exact sound.aligned t q' old
  · rcases update_eq_some here with ⟨rfl,new⟩ | ⟨_,old⟩
    · cases new
      have child := own idx e entry isTable
      rw [update_of_ne]
      · exact child
      · intro loop
        rw [loop, isNew] at child
        cases child
    · exact others t q' idx e old short entry isTable
  · refine fewer (alloc_some sound.counts drawn).2 fun g => ?_
    by_cases same : g = f
    · subst same
      simp
    · have apart : g.base ≠ f.base := fun equal => same (PhysFrame.ext equal)
      rw [update_of_ne same, update_of_ne apart]

theorem Sound.write (here : place table = some q) (leaf : q.path.length < 3 → ∀ e, value = some e → e.huge = true) :
    Sound place (mem.writeEntry table idx value) src := by
  refine ⟨sound.aligned,fun t p i e there short entry isTable => ?_,sound.counts⟩
  rcases mem.writeEntry_cases table idx value t i with same | ⟨rfl,rfl,new⟩
  · exact sound.below t p i e there short (same ▸ entry) isTable
  · cases here.symm.trans there
    rw [leaf short e (new.symm.trans entry)] at isTable
    cases isTable

theorem Sound.link (idx : Nat) (here : place table = some q)
    (isNew : place f.base = none) (drawn : FrameSource.allocFrame src = (some f, src')) :
    Sound (update place f.base (some (q.child idx)))
      ((mem.clearFrame f.base).writeEntry table idx (some (.table f.base))) src' := by
  have apart : f.base ≠ table := by
    intro same
    rw [same, here] at isNew
    cases isNew
  refine sound.extend isNew drawn (fun t q' i e there short entry isTable => ?_) (fun i e entry _ => ?_)
  · have other : t ≠ f.base := by
      intro same
      rw [same, isNew] at there
      cases there
    rcases (mem.clearFrame f.base).writeEntry_cases table idx (some (.table f.base)) t i with same | ⟨rfl,rfl,new⟩
    · rw [same, Tables.clearFrame, update_of_ne other] at entry
      exact keeps_update isNew _ _ (sound.below t q' i e there short entry isTable)
    · cases new.symm.trans entry
      cases here.symm.trans there
      exact update_self ..
  · unfold Tables.writeEntry Tables.clearFrame at entry
    rw [update_of_ne apart, update_self] at entry
    cases entry

theorem findTable_place (here : place table = some q)
    (deep : q.path.length + shifts.length ≤ 3) (found : findTable mem table virt shifts = .ok t) :
    ∃ p, place t = some p ∧ p.path.length = q.path.length + shifts.length := by
  induction shifts generalizing table q with
  | nil =>
    cases found
    exact ⟨q,here,rfl⟩
  | cons shift rest ih =>
    rw [length_cons] at deep
    unfold findTable at found
    split at found
    · cases found
    rename_i entry there
    split at found
    · cases found
    rename_i isTable
    have child := sound.below table q _ entry here (by omega) there (by simpa using isTable)
    obtain ⟨p,placed,length⟩ := ih child (by rw [Place.child_length]; omega) found
    exact ⟨p,placed,by rw [length, Place.child_length, length_cons]; omega⟩

end

/-- What a descent leaves behind. The induction is on the levels still to go; tables
    no deeper than the one it starts in change at most in the entry it starts with,
    and only if that was missing. -/
theorem walkTo_sound (sound : Sound place mem src)
    (here : place table = some q) (deep : q.path.length + shifts.length ≤ 3)
    (done : walkTo mem src table virt shifts = (result, mem', src')) :
    ∃ place', Sound place' mem' src' ∧ Keeps place place' ∧
      (∀ t p idx, place t = some p → p.path.length ≤ q.path.length →
        mem' t idx = mem t idx ∨ t = table ∧ idx ∈ (shifts.head?).map (index virt) ∧ mem table idx = none) ∧
      ∀ t, result = .ok t → ∃ p, place' t = some p ∧ p.path.length = q.path.length + shifts.length := by
  induction shifts generalizing place mem src table q with
  | nil =>
    cases done
    refine ⟨place,sound,fun _ _ => id,fun _ _ _ _ _ => inl rfl,fun t found => ?_⟩
    cases found
    exact ⟨q,here,rfl⟩
  | cons shift rest ih =>
    rw [length_cons] at deep
    unfold walkTo at done
    split at done
    · rename_i entry there
      split at done
      · cases done
        exact ⟨place,sound,fun _ _ => id,fun _ _ _ _ _ => inl rfl,fun t found => by cases found⟩
      rename_i isTable
      have child := sound.below table q _ entry here (by omega) there (by simpa using isTable)
      obtain ⟨place',sound',keeps,same,found⟩ := ih sound child (by rw [Place.child_length]; omega) done
      refine ⟨place',sound',keeps,fun t p idx placed shallow => inl ?_,fun t ok => ?_⟩
      · rcases same t p idx placed (by rw [Place.child_length]; omega) with kept | ⟨equal,_⟩
        · exact kept
        rw [equal, child] at placed
        cases placed
        rw [Place.child_length] at shallow
        omega
      · obtain ⟨p,placed,length⟩ := found t ok
        exact ⟨p,placed,by rw [length, Place.child_length, length_cons]; omega⟩
    · rename_i missing
      split at done
      · rename_i drawn
        cases done
        refine ⟨place,⟨sound.aligned,sound.below,alloc_none sound.counts drawn⟩,fun _ _ => id,
          fun _ _ _ _ _ => inl rfl,fun t found => by cases found⟩
      rename_i frame _ drawn
      have isNew := sound.fresh drawn
      have linked := sound.link (index virt shift) here isNew drawn
      have grown := keeps_update (q := q.child (index virt shift)) isNew
      obtain ⟨place',sound',keeps,same,found⟩ :=
        ih linked (update_self ..) (by rw [Place.child_length]; omega) done
      have other : ∀ t p, place t = some p → t ≠ frame.base := by
        intro t p placed equal
        rw [equal, isNew] at placed
        cases placed
      refine ⟨place',sound',fun t p placed => keeps t p (grown t p placed),fun t p idx placed shallow => ?_,
        fun t ok => ?_⟩
      · rcases same t p idx (grown t p placed) (by rw [Place.child_length]; omega) with kept | ⟨equal,_⟩
        · rw [kept]
          rcases linked_entry (other t p placed) with unchanged | ⟨atTable,atIdx⟩
          · exact .inl unchanged
          · exact .inr ⟨atTable,by simp [atIdx],by rw [atIdx]; exact missing⟩
        · exact absurd equal (other t p placed)
      · obtain ⟨p,placed,length⟩ := found t ok
        exact ⟨p,placed,by rw [length, Place.child_length, length_cons]; omega⟩

end

theorem write_root (here : place table = some p) (deep : p.path ≠ []) (root : place t = some q)
    (top : q.path = []) : (mem.writeEntry table idx value) t i = mem t i := by
  unfold Tables.writeEntry
  rw [update_of_ne]
  intro same
  rw [same, here] at root
  cases root
  exact deep top

section
variable [FrameSource σ] [CountedSource σ] {root virt : Nat} {o : Option Nat}

/-- Top-level tables stay as they are, but for the one entry a mapping may fill in
    the table it starts in. -/
def RootsKept (place : Nat → Option Place) (mem mem' : Tables) (filled : Nat → Nat → Prop) : Prop :=
  ∀ t q idx, place t = some q → q.path = [] → mem' t idx = mem t idx ∨ filled t idx

theorem RootsKept.refl {filled : Nat → Nat → Prop} : RootsKept place mem mem filled := fun _ _ _ _ _ => inl rfl

def TopSlot (mem : Tables) (root virt t idx : Nat) : Prop := t = root ∧ idx = index virt 39 ∧ mem root idx = none

/-- What a mapping leaves behind. -/
abbrev Extends (place : Nat → Option Place) (mem mem' : Tables) (src' : σ) (root virt : Nat) : Prop :=
  ∃ place', Sound place' mem' src' ∧ Keeps place place' ∧ RootsKept place mem mem' (TopSlot mem root virt)

variable {phys table : Nat} {result : Except KError Unit} {bits flags : PageFlags}

theorem mapLeaf_sound {size shift : Nat} (sound : Sound place mem src)
    (here : place root = some ⟨o, []⟩) (first : shifts.head? = some 39) (deep : shifts.length ≤ 3)
    (leaf : shifts.length < 3 → entry.huge = true)
    (done : mapLeaf mem root virt phys size shifts shift entry src = (result, mem', src')) :
    Extends place mem mem' src' root virt := by
  have roots {mid : Tables} (same : ∀ t q idx, place t = some q → q.path.length ≤ 0 →
      mid t idx = mem t idx ∨ t = root ∧ idx ∈ (shifts.head?).map (index virt) ∧ mem root idx = none) :
      RootsKept place mem mid (TopSlot mem root virt) := by
    intro t q idx placed top
    refine (same t q idx placed (by simp [top])).imp_right fun filled => ⟨filled.1,?_,filled.2.2⟩
    simpa [first, eq_comm] using filled.2.1
  unfold mapLeaf at done
  split at done
  · cases done
    exact ⟨place,sound,fun _ _ => id,.refl⟩
  split at done
  · rename_i walked
    cases done
    obtain ⟨place',sound',keeps,same,_⟩ := walkTo_sound sound here (by simpa using deep) walked
    exact ⟨place',sound',keeps,roots same⟩
  rename_i table _ _ walked
  obtain ⟨place',sound',keeps,same,found⟩ := walkTo_sound sound here (by simpa using deep) walked
  split at done
  · cases done
    exact ⟨place',sound',keeps,roots same⟩
  cases done
  obtain ⟨p,placed,length⟩ := found table rfl
  rw [length_nil, Nat.zero_add] at length
  refine ⟨place',sound'.write placed fun short e same => ?_,keeps,fun t q idx there top => ?_⟩
  · cases same
    exact leaf (by omega)
  have nonempty : p.path ≠ [] := by
    intro empty
    rw [empty] at length
    simp [eq_nil_of_length_eq_zero length.symm] at first
  rw [write_root placed nonempty (keeps t q there) top]
  exact roots same t q idx there top

theorem find4k_write (sound : Sound place mem src) (here : place root = some ⟨o, []⟩)
    (found : find4k mem root virt = .ok (table, idx)) (value : Option Entry) :
    Sound place (mem.writeEntry table idx value) src ∧
      RootsKept place mem (mem.writeEntry table idx value) fun _ _ => False := by
  unfold find4k at found
  split at found
  · cases found
  rename_i reached
  cases found
  obtain ⟨_,placed,length⟩ := findTable_place sound here (by simp) reached
  refine ⟨sound.write placed (by simp [length]),fun t q i there top => inl (write_root placed ?_ there top)⟩
  intro empty
  simp [empty] at length

theorem unmap_sound {result : Except KError PhysFrame} (sound : Sound place mem src)
    (here : place root = some ⟨o, []⟩) (done : unmap mem root virt = (result, mem')) :
    Sound place mem' src ∧ RootsKept place mem mem' fun _ _ => False := by
  unfold unmap at done
  split at done
  · cases done
    exact ⟨sound,.refl⟩
  rename_i found
  split at done
  · cases done
    exact ⟨sound,.refl⟩
  · split at done <;> cases done <;> exact find4k_write sound here found none

section
variable (sound : Sound place mem src)
include sound

section
variable (here : place root = some ⟨o, []⟩)
include here

theorem map4k_sound (done : map4k mem root virt phys bits src = (result, mem', src')) :
    Extends place mem mem' src' root virt := by
  unfold map4k at done
  exact mapLeaf_sound sound here rfl (by simp) (by simp) done

theorem map2m_sound (done : map2m mem root virt phys bits src = (result, mem', src')) :
    Extends place mem mem' src' root virt := by
  unfold map2m at done
  exact mapLeaf_sound sound here rfl (by simp) (by simp) done

theorem protect_sound (done : protect mem root virt flags = (result, mem')) :
    Sound place mem' src ∧ RootsKept place mem mem' fun _ _ => False := by
  unfold protect at done
  split at done
  · cases done
    exact ⟨sound,.refl⟩
  split at done
  · cases done
    exact ⟨sound,.refl⟩
  rename_i found
  split at done
  · cases done
    exact ⟨sound,.refl⟩
  cases done
  exact find4k_write sound here found _

end

end

theorem map_sound (sound : Sound place mem src) (here : place root = some ⟨o, []⟩)
    (done : map mem root virt frame flags src = (result, mem', src')) :
    Extends place mem mem' src' root virt := by
  unfold map at done
  split at done
  · cases done
    exact ⟨place,sound,fun _ _ => id,.refl⟩
  · exact map4k_sound sound here done

/-- Takes a reference from frames of the given kind only, once for each. -/
def Releases (kind : PhysFrame → Prop) (act : σ → σ) : Prop :=
  ∀ refs less src, CountedSource.Counts refs src → (∀ f, less f ≤ refs f) → (∀ f, kind f → 0 < refs f) →
    (∀ f, kind f → less f = 0) → CountedSource.Counts less (act src)

variable {kind kind' : PhysFrame → Prop} {act act' : σ → σ}

theorem Releases.nothing : Releases kind fun src : σ => src :=
  fun _ _ _ counts less _ _ => fewer counts less

theorem Releases.mono (releases : Releases kind act) (wider : ∀ f, kind f → kind' f) : Releases kind' act :=
  fun refs less src counts fewer held gone =>
    releases refs less src counts fewer (fun f own => held f (wider f own)) fun f own => gone f (wider f own)

theorem Releases.andThen (first : Releases kind act) (second : Releases kind' act')
    (apart : ∀ f, kind f → ¬kind' f) : Releases (fun f => kind f ∨ kind' f) fun src => act' (act src) := by
  classical
  intro refs less src counts fewer held gone
  -- in between, what the first releases is gone and the rest is still held
  have between := first refs (fun f => if kind f then 0 else refs f) src counts (fun f => by split <;> omega)
    (fun f own => held f (.inl own)) fun f own => if_pos own
  refine second _ less _ between (fun f => ?_) (fun f own => ?_) fun f own => gone f (.inr own)
  · split
    · rename_i own
      rw [gone f (.inl own)]
    · exact fewer f
  · rw [if_neg fun other => apart f other own]
    exact held f (.inr own)

theorem releases_freeTable (aligned : table % frameSize = 0) :
    Releases (·.base = table) (freeTable table : σ → σ) := by
  intro _ _ _ counts fewer held gone
  unfold freeTable
  rw [show PhysFrame.fromBase table = some ⟨table, aligned⟩ from fromBase_eq_some.mpr rfl]
  refine CountedSource.fewer (CountedSource.free counts (held _ rfl)) fun g => ?_
  by_cases same : g = ⟨table, aligned⟩
  · rw [gone g (by rw [same])]
    omega
  · rw [update_of_ne same]
    exact fewer g

/-- Freeing everything below some entries of a table, given what freeing one table
    below it releases. No frame lies below two entries. -/
theorem releases_freeEntries {inside : Nat → PhysFrame → Prop} {below : Nat → σ → σ} {idxs : List Nat}
    (sole : ∀ i j f, inside i f → inside j f → i = j) (one : ∀ idx ∈ idxs, ∀ e, mem table idx = some e →
      e.huge = false → Releases (inside idx) (below e.phys)) (distinct : idxs.Nodup) :
    Releases (fun f => ∃ idx ∈ idxs, inside idx f) (idxs.foldl (freeEntry mem table below)) := by
  induction idxs with
  | nil => exact .nothing
  | cons idx rest ih =>
    obtain ⟨new,distinctRest⟩ := nodup_cons.mp distinct
    have first : Releases (inside idx) (freeEntry mem table below · idx) := by
      intro refs less src counts less_le held gone
      unfold freeEntry
      split
      · exact fewer counts less_le
      rename_i entry there
      split
      · exact fewer counts less_le
      rename_i isTable
      exact one idx mem_cons_self entry there (by simpa using isTable) refs less src counts less_le held gone
    refine (first.andThen (ih (fun i member => one i (mem_cons_of_mem _ member)) distinctRest) ?_).mono ?_
    · rintro f here ⟨i,member,there⟩
      exact new (sole _ _ f here there ▸ member)
    · rintro f (here | ⟨i,member,there⟩)
      · exact ⟨idx,mem_cons_self,here⟩
      · exact ⟨i,mem_cons_of_mem _ member,there⟩

/-- What lies below the entries of a table at a place, and then the table itself. -/
theorem releases_tables {top : Place} {below : Nat → σ → σ} {idxs : List Nat} (aligned : table % frameSize = 0)
    (here : place table = some top) (own : ∀ idx ∈ idxs, top.path ≠ [] ∨ idx < 256)
    (one : ∀ idx ∈ idxs, ∀ e, mem table idx = some e → e.huge = false →
      Releases (fun f => ∃ q, place f.base = some q ∧ (top.child idx).Under q) (below e.phys)) (distinct : idxs.Nodup) :
    Releases (fun f => ∃ q, place f.base = some q ∧ top.Under q)
      fun src : σ => freeTable table (idxs.foldl (freeEntry mem table below) src) := by
  have sole : ∀ i j (f : PhysFrame), (∃ q, place f.base = some q ∧ (top.child i).Under q) →
      (∃ q, place f.base = some q ∧ (top.child j).Under q) → i = j := by
    rintro _ _ f ⟨q,placed,under⟩ ⟨_,placed',under'⟩
    cases placed.symm.trans placed'
    exact under.distinct under'
  refine ((releases_freeEntries sole one distinct).andThen (releases_freeTable aligned) ?_).mono ?_
  · rintro f ⟨idx,_,q,placed,under⟩ rfl
    cases here.symm.trans placed
    have deeper := under.length
    rw [Place.child_length] at deeper
    omega
  · rintro f (⟨idx,member,q,placed,under⟩ | rfl)
    · exact ⟨q,placed,under.up (own idx member)⟩
    · exact ⟨top,here,.refl top⟩

theorem releases_freeSubtree (sound : Sound place mem src)
    (here : place table = some top) (deep : top.path.length + level = 4) (inner : top.path ≠ []) :
    Releases (fun f => ∃ q, place f.base = some q ∧ top.Under q) (freeSubtree mem level table : σ → σ) := by
  induction level using Nat.strongRecOn generalizing table top with
  | ind level ih =>
    match level, deep with
    | 0, _ => exact .nothing
    | 1, _ => exact (releases_freeTable (sound.aligned _ _ here)).mono fun f same => ⟨top,same ▸ here,.refl top⟩
    | level + 2, deep =>
      refine releases_tables (sound.aligned _ _ here) here (fun _ _ => inl inner) (fun idx _ e there isTable => ?_)
        nodup_range
      have child := sound.below table top idx e here (by omega) there isTable
      exact ih (level + 1) (by omega) child (by rw [Place.child_length]; omega) (by simp [Place.child])

theorem freeTables_sound {id : Nat} (sound : Sound place mem src) (here : place root = some ⟨some id, []⟩) :
    Sound (fun t => (place t).filter fun q => q.owner ≠ some id) mem (freeTables mem root src) := by
  have keep : ∀ t q, (place t).filter (fun q => q.owner ≠ some id) = some q ↔
      place t = some q ∧ q.owner ≠ some id := by
    intro t q
    rw [filter_eq_some_iff]
    simp
  refine ⟨fun t q there => sound.aligned t q ((keep t q).mp there).1,
    fun t q idx e there short entry isTable => ?_,?_⟩
  · obtain ⟨placed,other⟩ := (keep t q).mp there
    refine (keep _ _).mpr ⟨sound.below t q idx e placed short entry isTable,?_⟩
    simp only [Place.child]
    split
    · exact some_ne_none id |>.symm
    · exact other
  · have all : Releases (fun f => ∃ q, place f.base = some q ∧ (⟨some id, []⟩ : Place).Under q)
        (freeTables mem root : σ → σ) := by
      refine releases_tables (sound.aligned _ _ here) here (fun _ member => inr (mem_range.mp member))
        (fun idx _ e there isTable => ?_) nodup_range
      have child := sound.below root _ idx e here (by simp) there isTable
      exact releases_freeSubtree sound child (by simp [Place.child]) (by simp [Place.child])
    refine all _ _ src sound.counts (fun f => ?_) ?_ ?_
    · cases place f.base with
      | none => simp
      | some =>
        rw [isSome_some, if_pos rfl]
        split <;> omega
    · rintro _ ⟨_,placed,_⟩
      simp [placed]
    · rintro _ ⟨_,placed,own,_⟩
      simp [placed, own]

end
end Tessera.X8664
