import Tessera.Vm.CowPages

/-!
Copy-on-write keeps the two sides of a snapshot apart. A page under a copy-on-write
record is writable only while nobody else holds its frame, so a store through it is
seen nowhere else. Changing the rights of such a range to writable ones breaks this:
the pages become writable on the frames they share. So does adding references the
allocator cannot record.
-/
namespace Tessera
open FrameSource Option ArchSpace BumpFrameAllocator
open AddressSpace
open Function Tally

namespace CowSystem
variable {cfg : Config} {σ : Type} [FrameSource σ] [CountedSource σ] {port : ArchPort} {w w' : CowSystem cfg σ}
  {id : Nat} {sp sp' : AddressSpace cfg}
open Transition ArchSpace

def CowPage (w : CowSystem cfg σ) (id p : Nat) : Prop := ∃ sp, w.space id = some sp ∧ sp.IsCow p

/-- The frames a space is given are an object's, and the references it adds can be
    recorded. -/
def Shareable (w : CowSystem cfg σ) : VmAction → Prop
  | .mapShared _ _ _ _ frames =>
    (∀ f ∈ frames, ∃ i, w.object i = some f) ∧ CountedSource.Room w.memory frames.length
  | .installObjectPage _ frame => (∃ i, w.object i = some frame) ∧ CountedSource.Room w.memory 1
  | .snapshotCow _ _ len => CountedSource.Room w.memory (len / frameSize)
  | _ => True

def Careful (w : CowSystem cfg σ) : CowAction → Prop
  | .vm id a => w.Shareable a ∧ ∀ sp, w.space id = some sp → sp.SparesCow a
  | _ => True

def Canonical (port : ArchPort) : CowAction → Prop
  | .vm _ a => a.Canonical port
  | _ => True

instance (port : ArchPort) (a : CowAction) : Decidable (Canonical port a) := by
  cases a <;> unfold Canonical <;> infer_instance

structure Isolated (port : ArchPort) (w : CowSystem cfg σ) : Prop where
  orderly : ∀ id sp, w.space id = some sp → sp.Orderly port
  counted : w.Counted
  alone : ∀ id p f fl, w.CowPage id p → w.entry id p = some (f, fl) → fl.writable = true →
    ∀ k, w.holds k = some f → k = .page id p

variable {a : VmAction} {e : PhysFrame × PageFlags} {after memory : FrameMemory σ (Nat → UInt8)}
  {g : PhysFrame} {k : Holder} {j p va : Nat}

theorem fundable {e : Backdrop (Nat → UInt8)} (shareable : w.Shareable a) (spares : sp.SparesCow a)
    (others : ∀ f, AtMost (w.beside id e.pin) f (e.rest f)) (objects : ∀ i f, w.object i = some f → e.given f)
    (snapshot : ∀ src dst len, a = .snapshotCow src dst len → ∀ j, ∀ f,
      sp.arch.frameAt (pageAt src j / frameSize) = some f →
      (∀ g fl, sp'.arch.pages (pageAt src j / frameSize) = some (g, fl) → fl.writable = false) →
      e.given f) : AddressSpace.Fundable e w.memory sp sp' a := by
  have held : ∀ i f, w.object i = some f → 0 < e.rest f :=
    fun i f there => (others f).pos (k := .object i) (by simpa [beside, Holder.inside, holds] using there)
  cases a with
  | mapShared =>
    refine ⟨fun f mem => ?_,shareable.2⟩
    obtain ⟨i,there⟩ := shareable.1 f mem
    exact ⟨objects i f there,held i f there⟩
  | installObjectPage va frame =>
    obtain ⟨i,there⟩ := shareable.1
    exact ⟨⟨objects i frame there,held i frame there⟩,CountedSource.room_tracks frame shareable.2⟩
  | snapshotCow src dst len => exact ⟨shareable,fun j _ => snapshot src dst len rfl j⟩
  | _ => trivial

theorem no_pins (p : Nat) (f : PhysFrame) (pinned : (fun _ => none : Nat → Option PhysFrame) p = some f) :
    sp.arch.frameAt p = some f := by
  cases pinned

theorem operated {given : PhysFrame → Prop} (counted : w.Counted) (here : w.space id = some sp)
    (shareable : w.Shareable a) (spares : sp.SparesCow a) (objects : ∀ i f, w.object i = some f → given f)
    (snapshot : ∀ src dst len, a = .snapshotCow src dst len → ∀ j, ∀ f,
      sp.arch.frameAt (pageAt src j / frameSize) = some f →
      (∀ g fl, sp'.arch.pages (pageAt src j / frameSize) = some (g, fl) → fl.writable = false) →
      given f) (done : sp.perform port w.memory a = (some sp', after))
    (space : w'.space = update w.space id (some sp')) (obj : w'.object = w.object) :
    ∃ refs, CountedSource.Counts refs after ∧ (∀ f, AtMost w'.holds f (refs f)) ∧
      ∀ f k, (∀ j, w.holds j = some f → j = k) → refs f ≤ 1 ∨ given f := by
  obtain ⟨rest,before,funded,others,one⟩ := counted.opened here no_pins given
  have needs : AddressSpace.Fundable ⟨fun _ => none, rest, before, given, w.memory.held⟩ w.memory sp sp' a :=
    fundable shareable spares others objects snapshot
  have funded' := perform_funded funded (fun _ => rfl) needs done
  obtain ⟨refs,counts,most,grown⟩ := closed funded' (fun _ => rfl) others space obj
  refine ⟨refs,counts,most,fun f k only => (grown f).imp_left fun bounded => ?_⟩
  exact Nat.le_trans bounded (Nat.max_le.mpr ⟨one f k only,Nat.le_refl _⟩)

theorem Counted.undrawn (counted : w.Counted)
    (drawn : allocFrame w.memory = (some g, after)) (held : w.holds k = some f) : f ≠ g := by
  rintro rfl
  obtain ⟨_,counts,most⟩ := counted
  have none := (CountedSource.alloc_some counts drawn).1
  have some := (most f).pos held
  omega

theorem counted_of_source (counts : CountedSource.Counts refs memory)
    (same : w.memory.source = memory.source) (most : ∀ f, AtMost w.holds f (refs f)) : w.Counted := by
  refine ⟨refs,?_,most⟩
  show CountedSource.Counts refs w.memory.source
  rw [same]
  exact counts

section
variable (isolated : Isolated port w)
include isolated

theorem Isolated.fewer (counted : w'.Counted) (spaces : ∀ id sp, w'.space id = some sp → w.space id = some sp)
    (holds : ∀ k f, w'.holds k = some f → w.holds k = some f) : Isolated port w' := by
  refine ⟨fun id sp there => isolated.orderly id sp (spaces id sp there),counted,?_⟩
  intro id p f fl cow entry writable k held
  obtain ⟨sp,there,cow⟩ := cow
  rw [entry_of_space there] at entry
  have before := spaces id sp there
  exact isolated.alone id p f fl ⟨sp,before,cow⟩ (by rw [entry_of_space before, entry]) writable k (holds k f held)

section
variable (here : w.space id = some sp)
include here

theorem Isolated.teardown (space : w'.space = update w.space id none) (memory : w'.memory = sp.teardown port w.memory)
    (obj : w'.object = w.object) : Isolated port w' := by
  obtain ⟨rest,before,funded,others,_⟩ := isolated.counted.opened here no_pins (fun _ => True)
  obtain ⟨refs,counts,enough⟩ := teardown_counts funded (fun _ => rfl)
  have most := closed_gone (w := w) (e := ⟨fun _ => none, rest, before, fun _ => True, w.memory.held⟩) enough others
    space obj
  have spaces : ∀ j sp1, w'.space j = some sp1 → w.space j = some sp1 := by
    intro j sp1 there
    rw [space, update_apply] at there
    split at there
    · cases there
    · exact there
  refine isolated.fewer ⟨refs,memory ▸ counts,most⟩ spaces fun k _ held => ?_
  cases k with
  | page j =>
    obtain ⟨sp1,there,page⟩ := bind_eq_some_iff.mp held
    exact bind_eq_some_iff.mpr ⟨sp1,spaces j sp1 there,page⟩
  | table j =>
    obtain ⟨sp1,there,table⟩ := bind_eq_some_iff.mp held
    exact bind_eq_some_iff.mpr ⟨sp1,spaces j sp1 there,table⟩
  | object i => exact (congrFun obj i).symm.trans held

theorem Isolated.replace (shareable : w.Shareable a) (spares : sp.SparesCow a)
    (done : sp.perform port w.memory a = (some sp', after)) (space : w'.space = update w.space id (some sp'))
    (memory : w'.memory.source = after.source) (obj : w'.object = w.object) : Isolated port w' := by
  have orderly := isolated.orderly id sp here
  have spaces : ∀ j sp1, w'.space j = some sp1 → (j = id ∧ sp1 = sp') ∨ (j ≠ id ∧ w.space j = some sp1) := by
    intro j sp1 there
    rw [space, update_apply] at there
    split at there
    · rename_i same
      cases there
      exact .inl ⟨same,rfl⟩
    · rename_i other
      exact .inr ⟨other,there⟩
  refine ⟨fun j sp1 there => ?_,?_,fun j p f fl cow entry writable k held => ?_⟩
  · rcases spaces j sp1 there with ⟨rfl,rfl⟩ | ⟨_,old⟩
    · exact orderly.perform done
    · exact isolated.orderly j sp1 old
  · obtain ⟨_,counts,most,_⟩ := operated isolated.counted here shareable spares (fun _ _ _ => trivial)
      (fun _ _ _ _ _ _ _ _ => trivial) done space obj
    exact counted_of_source counts memory most
  obtain ⟨sp1,there,cow⟩ := cow
  have page := entry
  rw [entry_of_space there] at page
  -- before the operation nobody but this page held the frame
  have only : ∀ k, w.holds k = some f → k = .page j p := by
    rcases spaces j sp1 there with ⟨rfl,rfl⟩ | ⟨_,old⟩
    · rcases cow_writable_before orderly spares done cow page writable with ⟨was,same⟩ | ⟨_,drawn⟩
      · exact isolated.alone j p f fl ⟨sp,here,was⟩ (by rw [entry_of_space here, same]) writable
      · exact fun _ other => absurd rfl (isolated.counted.undrawn drawn other)
    · exact isolated.alone j p f fl ⟨sp1,old,cow⟩ (by rw [entry_of_space old, page]) writable
  have objects : ∀ i g, w.object i = some g → g ≠ f := by
    rintro i g there rfl
    cases only (.object i) there
  have snapshot : ∀ src dst len, a = .snapshotCow src dst len → ∀ x, ∀ g,
      sp.arch.frameAt (pageAt src x / frameSize) = some g →
      (∀ h fl, sp'.arch.pages (pageAt src x / frameSize) = some (h, fl) → fl.writable = false) →
      g ≠ f := by
    rintro _ _ _ - _ _ shared readOnly rfl
    have mine := only (.page id _) (by rw [holds, here, bind_some, shared])
    cases mine
    rcases spaces _ _ there with ⟨_,rfl⟩ | ⟨other,_⟩
    · rw [readOnly _ _ page] at writable
      cases writable
    · exact other rfl
  obtain ⟨_,_,most,small⟩ :=
    operated isolated.counted here shareable spares objects snapshot done space obj
  have one := (small f _ only).resolve_right (absurd rfl)
  exact ((most f).mono one).unique held (holds_page_eq_some.mpr ⟨fl,entry⟩)

theorem Isolated.vm (shareable : w.Shareable a) (spares : sp.SparesCow a) :
    Isolated port { w with space := update w.space id (sp.operate port w.memory a).1,
                           memory := (sp.operate port w.memory a).2 } := by
  obtain ⟨_,done,src⟩ := operate_eq sp w.memory a
  cases next : (sp.operate port w.memory a).1 with
  | some =>
    rw [next] at done
    exact isolated.replace here shareable spares done rfl src rfl
  | none =>
    rw [next] at done
    cases a with
    | teardown => exact isolated.teardown here rfl rfl rfl
    | _ => cases done

end

theorem Isolated.drawn (got : allocFrame w.memory = (some g, after)) (src : w'.memory.source = after.source)
    (holder : ∀ j f, w'.holds j = some f → (j = k ∧ f = g) ∨ w.holds j = some f)
    (spaces : ∀ id sp, w'.space id = some sp → w.space id = some sp ∨ sp = fromArch ⟨g, [], fun _ => none⟩) :
    Isolated port w' := by
  obtain ⟨_,counts,most⟩ := isolated.counted
  obtain ⟨unheld,counted⟩ := CountedSource.alloc_some counts got
  refine ⟨fun id sp there => ?_,counted_of_source counted src fun f => ?_,?_⟩
  · rcases spaces id sp there with old | rfl
    · exact isolated.orderly id sp old
    · refine orderly_fromArch fun p present => ?_
      exact absurd rfl present
  · by_cases same : f = g
    · subst same
      rw [update_self]
      have none := most f
      rw [unheld] at none
      exact none.gain k fun j other held => ((holder j f held).resolve_left fun new => other new.1)
    · rw [update_of_ne same]
      exact (most f).fewer fun j held => (holder j f held).resolve_left fun new => same new.2
  · intro id p f fl cow entry writable j held
    obtain ⟨sp,there,cow⟩ := cow
    rw [entry_of_space there] at entry
    rcases spaces id sp there with old | rfl
    · have before : w.entry id p = some (f, fl) := by rw [entry_of_space old, entry]
      have alone := isolated.alone id p f fl ⟨sp,old,cow⟩ before writable
      rcases holder j f held with ⟨_,rfl⟩ | was
      · exact absurd rfl (isolated.counted.undrawn got (holds_page_eq_some.mpr ⟨fl,before⟩))
      · exact alone j was
    · cases entry

theorem Isolated.make (made : AddressSpace.new w.memory = (.ok sp, memory)) :
    Isolated port { w with space := update w.space id (some sp), memory } := by
  unfold AddressSpace.new ArchSpace.new at made
  split at made
  · cases made
  rename_i new
  split at new
  · cases new
  rename_i got
  cases new
  cases made
  refine isolated.drawn (k := .table id 0) got rfl (fun j _ held => ?_) fun j sp there => ?_
  · cases j with
    | page =>
      obtain ⟨sp,there,page⟩ := bind_eq_some_iff.mp held
      dsimp only at there
      rw [update_apply] at there
      split at there
      · cases there
        cases page
      · exact .inr (bind_eq_some_iff.mpr ⟨sp,there,page⟩)
    | table j i =>
      obtain ⟨sp,there,table⟩ := bind_eq_some_iff.mp held
      dsimp only at there
      rw [update_apply] at there
      split at there
      · rename_i same
        cases there
        cases i with
        | zero =>
          cases table
          exact .inl ⟨by rw [same],rfl⟩
        | succ => cases table
      · exact .inr (bind_eq_some_iff.mpr ⟨sp,there,table⟩)
    | object => exact .inr held
  · dsimp only at there
    rw [update_apply] at there
    split at there
    · cases there
      exact .inr rfl
    · exact .inl there

theorem Isolated.same_holders
    (counts : ∀ refs, CountedSource.Counts refs w.memory → CountedSource.Counts refs memory) :
    Isolated port { w with memory } := by
  obtain ⟨refs,before,most⟩ := isolated.counted
  exact isolated.fewer ⟨refs,counts refs before,most⟩ (fun _ _ => id) fun _ _ => id

theorem Isolated.dropObject (there : w.object i = some g) :
    Isolated port { w with memory := freeFrame w.memory g, object := update w.object i none } := by
  obtain ⟨_,counts,most⟩ := isolated.counted
  have held : w.holds (.object i) = some g := there
  have fewer : ∀ k f, CowSystem.holds { w with memory := freeFrame w.memory g, object := update w.object i none } k =
      some f → w.holds k = some f := by
    intro k f is
    cases k with
    | page | table => exact is
    | object =>
      simp only [holds, update_apply] at is
      split at is
      · cases is
      · exact is
  refine isolated.fewer ⟨_,CountedSource.free counts ((most g).pos held),fun f => ?_⟩ (fun _ _ => id) fewer
  by_cases same : f = g
  · subst same
    rw [update_self]
    exact (most f).lose held (by simp [holds]) fun k => fewer k f
  · rw [update_of_ne same]
    exact (most f).fewer fun k => fewer k f

theorem Isolated.step {a : CowAction} (careful : w.Careful a) (step : w.Step port a w') : Isolated port w' := by
  cases a with
  | make =>
    simp only [Step, perform] at step
    split at step
    · cases step
    split at step
    · rename_i made
      cases step
      refine isolated.same_holders fun _ counts => ?_
      unfold AddressSpace.new ArchSpace.new at made
      split at made
      · rename_i new
        cases made
        split at new
        · rename_i empty
          cases new
          exact CountedSource.alloc_none counts empty
        · cases new
      · cases made
    · rename_i made
      cases step
      exact isolated.make made
  | vm =>
    obtain ⟨sp,here,done⟩ := map_eq_some_iff.mp step
    cases done
    exact isolated.vm here careful.1 (careful.2 sp here)
  | store =>
    cases step
    unfold store
    split
    · split
      · exact isolated.same_holders fun _ counts => counts
      · exact isolated
    · exact isolated
  | drawObject i =>
    simp only [Step, perform] at step
    split at step
    · cases step
    split at step
    · rename_i empty
      cases step
      exact isolated.same_holders fun _ counts => CountedSource.alloc_none counts empty
    rename_i got
    cases step
    refine isolated.drawn (k := .object i) got rfl (fun j _ held => ?_) fun _ _ => Or.inl
    cases j with
    | page | table => exact .inr held
    | object =>
      simp only [holds, update_apply] at held
      split at held
      · rename_i same
        cases held
        exact .inl ⟨by rw [same],rfl⟩
      · exact .inr held
  | dropObject =>
    obtain ⟨_,there,done⟩ := map_eq_some_iff.mp step
    cases done
    exact isolated.dropObject there

end

theorem isolated_boot (fresh : CountedSource.Counts (fun _ => 0) memory) :
    Isolated port (boot memory : CowSystem cfg σ) := by
  refine ⟨nofun,⟨_,fresh,fun _ keys _ all => ?_⟩,?_⟩
  · cases keys with
    | nil => exact Nat.le_refl _
    | cons k =>
      have held := all k (List.mem_cons_self ..)
      cases k <;> cases held
  · intro _ _ _ _ cow
    obtain ⟨_,there,_⟩ := cow
    cases there

def SameBytes (w w' : CowSystem cfg σ) : Prop :=
  ∀ id p e e', w.entry id p = some e → w'.entry id p = some e' → w'.memory.held e'.1 = w.memory.held e.1

section
omit [FrameSource σ] [CountedSource σ]

theorem entry_update {next : Option (AddressSpace cfg)}
    (space : w'.space = update w.space id next) (there : w'.entry j p = some e) :
    (j = id ∧ ∃ sp', next = some sp' ∧ sp'.arch.pages p = some e) ∨ (j ≠ id ∧ w.entry j p = some e) := by
  obtain ⟨sp1,here,page⟩ := bind_eq_some_iff.mp there
  rw [space, update_apply] at here
  split at here
  · rename_i same
    exact .inl ⟨same,sp1,here,page⟩
  · rename_i other
    exact .inr ⟨other,bind_eq_some_iff.mpr ⟨sp1,here,page⟩⟩

theorem rest_pos {rest : PhysFrame → Nat}
    (others : ∀ f, AtMost (w.beside id pin) f (rest f)) (other : j ≠ id) (there : w.entry j p = some e) :
    0 < rest e.1 := by
  refine (others e.1).pos (k := .page j p) ?_
  rw [beside, if_neg (by simp [Holder.inside, other])]
  exact holds_page_eq_some.mpr ⟨e.2,there⟩

end

theorem sameBytes_builds (counted : w.Counted) (here : w.space id = some sp) (shareable : w.Shareable a)
    (spares : sp.SparesCow a) (builds : AddressSpace.Builds a = true)
    (done : sp.perform port w.memory a = (some sp', w'.memory))
    (space : w'.space = update w.space id (some sp')) : SameBytes w w' := by
  have pins : ∀ p f, sp.arch.frameAt p = some f → sp.arch.frameAt p = some f := fun _ _ there => there
  obtain ⟨rest,before,funded,others,_⟩ := counted.opened here pins (fun _ => True)
  have needs : AddressSpace.Fundable ⟨sp.arch.frameAt, rest, before, fun _ => True, w.memory.held⟩ w.memory sp sp' a :=
    fundable shareable spares others (fun _ _ _ => trivial) (fun _ _ _ _ _ _ _ _ => trivial)
  have after := builds_funded funded builds needs done
  intro _ p e _ was is
  rcases entry_update space is with ⟨rfl,_,new,page⟩ | ⟨other,same⟩
  · cases new
    rw [entry_of_space here] at was
    obtain ⟨stays,some⟩ := after.pinned p e.1 (by simp [frameAt, was])
    simp only [frameAt, page] at stays
    rw [Option.some.inj stays]
    exact after.unwritten e.1 some
  · obtain rfl := Option.some.inj (was.symm.trans same)
    exact after.unwritten e.1 (rest_pos others other was)

theorem sameBytes_fault (counted : w.Counted) (here : w.space id = some sp)
    (space : w'.space = update w.space id (some (sp.fault port va write w.memory).1))
    (memory : w'.memory = (sp.fault port va write w.memory).2) : SameBytes w w' := by
  let pin := fun p => if p = va / frameSize then none else sp.arch.frameAt p
  have pins : ∀ p f, pin p = some f → sp.arch.frameAt p = some f := by
    intro p _ pinned
    dsimp only [pin] at pinned
    split at pinned
    · cases pinned
    · exact pinned
  obtain ⟨_,_,funded,others,_⟩ := counted.opened here pins (fun _ => True)
  obtain ⟨out,⟨sp',after⟩,call⟩ : ∃ out next, sp.resolveFault port va write w.memory = (out, next) :=
    ⟨_,_,rfl⟩
  have funded' := resolveFault_funded funded (by simp [pin]) call
  -- the memory the fault leaves, with the copy or without
  have fate : (sp.fault port va write w.memory).1 = sp' ∧
      (sp.fault port va write w.memory).2 = if out = .copied then sp.copyPage sp' va w.memory after else after := by
    unfold AddressSpace.fault
    rw [call]
    cases out <;> exact ⟨rfl,rfl⟩
  rw [fate.1] at space
  rw [fate.2] at memory
  intro j p e e' was is
  -- pages other than the one at fault keep their frames and what is in them
  have untouched : (j ≠ id ∨ p ≠ va / frameSize) → e'.1 = e.1 ∧ after.held e.1 = w.memory.held e.1 := by
    intro elsewhere
    rcases entry_update space is with ⟨rfl,_,new,page⟩ | ⟨other,same⟩
    · cases new
      have here' : p ≠ va / frameSize := elsewhere.resolve_left (absurd rfl)
      rw [entry_of_space here] at was
      obtain ⟨stays,some⟩ := funded'.pinned p e.1 (by simp [pin, here', ArchSpace.frameAt, was])
      simp only [ArchSpace.frameAt, page, map_some] at stays
      exact ⟨Option.some.inj stays,funded'.unwritten e.1 some⟩
    · obtain rfl := Option.some.inj (was.symm.trans same)
      exact ⟨rfl,funded'.unwritten e.1 (rest_pos others other was)⟩
  have held : w.holds (.page j p) = some e.1 := holds_page_eq_some.mpr ⟨e.2,was⟩
  by_cases mine : j = id ∧ p = va / frameSize
  · obtain ⟨rfl,rfl⟩ := mine
    rcases entry_update space is with ⟨_,_,new,page⟩ | ⟨other,_⟩
    · cases new
      have old := was
      rw [entry_of_space here] at old
      rcases resolveFault_page call old page with ⟨uncopied,rfl,kept⟩ | ⟨rfl,_,_⟩
      · rw [memory, if_neg uncopied]
        rcases kept with rfl | empty
        · rfl
        · rw [(FrameMemory.allocFrame_none empty).2]
      · rw [memory]
        simp [copyPage, ArchSpace.translate, old, page]
    · exact absurd rfl other
  · obtain ⟨same,kept⟩ := untouched (by tauto)
    rw [same, memory]
    split
    · rename_i copied
      unfold copyPage
      split
      · rename_i priv _ old new
        rcases resolveFault_page call old new with ⟨uncopied,_⟩ | ⟨_,_,got⟩
        · exact absurd copied uncopied
        show update after.held priv _ e.1 = _
        rw [update_of_ne (counted.undrawn got held)]
        exact kept
      · exact kept
    · exact kept

theorem sameBytes_vm (counted : w.Counted) (here : w.space id = some sp) (shareable : w.Shareable a)
    (spares : sp.SparesCow a) :
    SameBytes w { w with space := update w.space id (sp.operate port w.memory a).1,
                         memory := (sp.operate port w.memory a).2 } := by
  by_cases builds : AddressSpace.Builds a = true
  · obtain ⟨_,next,done⟩ := operate_plain port sp w.memory (Or.inl builds)
    exact sameBytes_builds counted here shareable spares builds done (by rw [next])
  by_cases clears : AddressSpace.Clears a = true
  · obtain ⟨_,next,done⟩ := operate_plain port sp w.memory (Or.inr clears)
    have held := clears_held clears done
    intro _ _ _ _ was is
    rcases entry_update rfl is with ⟨rfl,_,new,page⟩ | ⟨_,same⟩
    · obtain rfl := Option.some.inj (next.symm.trans new)
      have stays := clears_pages clears done page
      rw [entry_of_space here, stays] at was
      cases was
      exact congrFun held _
    · obtain rfl := Option.some.inj (was.symm.trans same)
      exact congrFun held _
  cases a with
  | resolveFault => exact sameBytes_fault counted here rfl rfl
  | teardown =>
    intro _ _ _ _ was is
    rcases entry_update rfl is with ⟨_,_,new,_⟩ | ⟨_,same⟩
    · cases new
    · obtain rfl := Option.some.inj (was.symm.trans same)
      exact congrFun (teardown_held sp w.memory) _
  | mapDeviceRange => exact spares.elim
  | unmapDevicePages | unmapDevicePage | evictPage | unmapRange | reclaimRange => exact absurd rfl clears
  | _ => exact absurd rfl builds

theorem sameBytes_drawn (counted : w.Counted) (got : allocFrame w.memory = (some g, after))
    (entries : ∀ j p e, w'.entry j p = some e → w.entry j p = some e)
    (held : ∀ f, f ≠ g → w'.memory.held f = w.memory.held f) : SameBytes w w' := by
  intro j p e e' was is
  obtain rfl := Option.some.inj (was.symm.trans (entries j p e' is))
  exact held e.1 (counted.undrawn got (holds_page_eq_some.mpr ⟨e.2,was⟩))

omit [FrameSource σ] [CountedSource σ] in
theorem sameBytes_same (entries : ∀ j p e, w'.entry j p = some e → w.entry j p = some e)
    (held : w'.memory.held = w.memory.held) : SameBytes w w' := by
  intro j p _ e' was is
  obtain rfl := Option.some.inj (was.symm.trans (entries j p e' is))
  rw [held]

theorem sameBytes_step (counted : w.Counted) {a : CowAction} (careful : w.Careful a)
    (step : w.Step port a w') (noStore : ∀ id va b, a ≠ .store id va b) : SameBytes w w' := by
  cases a with
  | store id va b => exact absurd rfl (noStore id va b)
  | vm =>
    obtain ⟨sp,here,done⟩ := map_eq_some_iff.mp step
    cases done
    exact sameBytes_vm counted here careful.1 (careful.2 sp here)
  | make =>
    simp only [Step, perform, AddressSpace.new, ArchSpace.new] at step
    split at step
    · cases step
    cases got : allocFrame w.memory with
    | mk drawn =>
      rw [got] at step
      cases drawn with
      | none =>
        cases step
        exact sameBytes_same (fun _ _ _ there => there) (FrameMemory.allocFrame_none got).2
      | some =>
        cases step
        refine sameBytes_drawn counted got (fun _ _ _ there => ?_) fun f other => ?_
        · rcases entry_update rfl there with ⟨_,_,new,page⟩ | ⟨_,same⟩
          · cases new
            cases page
          · exact same
        · rw [(FrameMemory.allocFrame_some got).2, update_of_ne other]
  | drawObject =>
    simp only [Step, perform] at step
    split at step
    · cases step
    split at step
    · rename_i empty
      cases step
      exact sameBytes_same (fun _ _ _ there => there) (FrameMemory.allocFrame_none empty).2
    rename_i got
    cases step
    refine sameBytes_drawn counted got (fun _ _ _ there => there) fun f other => ?_
    show update _ _ _ f = _
    rw [update_of_ne other, (FrameMemory.allocFrame_some got).2, update_of_ne other]
  | dropObject =>
    obtain ⟨_,there,done⟩ := map_eq_some_iff.mp step
    cases done
    exact sameBytes_same (fun _ _ _ there => there) rfl

omit [FrameSource σ] [CountedSource σ] in
theorem store_read (alone : ∀ f fl, w.entry id (va / frameSize) = some (f, fl) → fl.writable = true →
      ∀ fl', w.entry id' (va' / frameSize) ≠ some (f, fl')) : (w.store id va b).read id' va' = w.read id' va' := by
  unfold store
  split
  · rename_i f fl here
    split
    · rename_i writable
      show (w.entry id' (va' / frameSize)).map (fun e =>
        update w.memory.held f (update (w.memory.held f) (va % frameSize) b) e.1 (va' % frameSize)) = w.read id' va'
      unfold read
      cases there : w.entry id' (va' / frameSize) with
      | none => rfl
      | some e =>
        have other : e.1 ≠ f := by
          rintro rfl
          exact alone e.1 fl here writable e.2 there
        simp [update_of_ne other]
    · rfl
  · rfl

/-- A write fault that the record permits, the port can express and memory allows. -/
def Permitted (port : ArchPort) (w : CowSystem cfg σ) (id va : Nat) : Prop :=
  ∃ sp m f fl, w.space id = some sp ∧ sp.mappingCovering va = some m ∧ m.backing = .cow ∧
    m.rights.writable = true ∧ port.accepts m.rights = true ∧ sp.arch.pages (va / frameSize) = some (f, fl) ∧
    fl.writable = false ∧ (allocFrame w.memory).1.isSome = true

theorem Isolated.permitted (isolated : Isolated port w) (permitted : w.Permitted port id va) :
    ∃ w' f fl, w.Step port (.vm id (.resolveFault va true)) w' ∧ w'.entry id (va / frameSize) = some (f, fl) ∧
      fl.writable = true ∧ ∀ k, w'.holds k = some f → k = .page id (va / frameSize) := by
  obtain ⟨sp,m,_,_,here,found,cow,writable,accepted,_,readOnly,available⟩ := permitted
  have orderly := isolated.orderly id sp here
  obtain ⟨covers,i,cell⟩ := mappingCovering_some found
  have aligned : alignDown va % frameSize = 0 := by
    simp only [alignDown, frameSize]
    omega
  have out := cowCopy_succeeds orderly aligned (orderly.plain i m cell) accepted
    (by rwa [alignDown_div]) readOnly available
  cases call : sp.cowCopy port (alignDown va) m.rights w.memory with
  | mk result next =>
    obtain ⟨sp',after⟩ := next
    rw [call] at out
    subst out
    have resolved : sp.resolveFault port va true w.memory = (.copied, sp', after) := by
      simp [AddressSpace.resolveFault, found, cow, call]
    obtain ⟨priv,_,_,filled⟩ : ∃ priv drawn, allocFrame w.memory = (some priv, drawn) ∧
        sp'.arch.pages (va / frameSize) = some (priv, m.rights) := by
      rcases cowCopy_cases call with ⟨contra,_⟩ | ⟨contra,_⟩ | ⟨_,copied⟩
      · cases contra
      · cases contra
      · rwa [alignDown_div] at copied
    have space : (sp.fault port va true w.memory).1 = sp' := by
      unfold AddressSpace.fault
      rw [resolved]
    let w' : CowSystem cfg σ := { w with space := update w.space id (some (sp.fault port va true w.memory).1),
                                         memory := (sp.fault port va true w.memory).2 }
    have step : w.Step port (.vm id (.resolveFault va true)) w' := by
      simp [Step, perform, here, operate, w']
    have entry : w'.entry id (va / frameSize) = some (priv, m.rights) := by
      simp only [CowSystem.entry, w', update_self, space]
      exact filled
    refine ⟨w',priv,m.rights,step,entry,writable,?_⟩
    have after := isolated.step (a := .vm id (.resolveFault va true)) ⟨trivial,fun _ _ => trivial⟩ step
    -- the record is the one the fault found
    have stays : w'.CowPage id (va / frameSize) := by
      refine ⟨sp',by simp only [w', update_self, space],i,m,?_,?_,cow⟩
      · rw [(cowCopy_records call).1, cell]
      obtain ⟨_,_⟩ := orderly.aligned i m cell
      rw [AddressSpace.Mapping.covers_iff] at covers ⊢
      simp only [frameSize] at *
      omega
    exact after.alone id _ priv m.rights stays entry writable

/-- In every run over canonical addresses that gives no writable rights to a copy-on-write
    range and adds only references the allocator can record: a store through a copy-on-write page is seen
    at no other page of any space; a frame that two copy-on-write pages share is
    writable at neither; a permitted write fault ends with the page writable on a frame
    nobody else holds; and nothing but a store changes what a page shows. -/
theorem snapshot_sides_stay_apart {memory : FrameMemory σ (Nat → UInt8)} {history : List CowAction}
    (fresh : CountedSource.Counts (fun _ => 0) memory)
    (run : Disciplined (fun _ w a => w.Careful a ∧ Canonical port a) (Step port) (boot memory) history w) :
    (∀ id va b id' va', w.CowPage id (va / frameSize) → (id', va' / frameSize) ≠ (id, va / frameSize) →
      (w.store id va b).read id' va' = w.read id' va') ∧
    (∀ id p id' p' f fl fl', w.CowPage id p → w.CowPage id' p' → (id, p) ≠ (id', p') →
      w.entry id p = some (f, fl) → w.entry id' p' = some (f, fl') → fl.writable = false ∧ fl'.writable = false) ∧
    (∀ id va, w.Permitted port id va → ∃ w' f fl, w.Step port (.vm id (.resolveFault va true)) w' ∧
      w'.entry id (va / frameSize) = some (f, fl) ∧ fl.writable = true ∧
      ∀ k, w'.holds k = some f → k = .page id (va / frameSize)) ∧
    ∀ a w', w.Careful a ∧ Canonical port a → w.Step port a w' → (∀ id va b, a ≠ .store id va b) →
      ∀ id va x, w.read id va = some x → (w'.read id va).isSome = true → w'.read id va = some x := by
  have isolated : Isolated port w := by
    refine run.invariant (fun _ w => Isolated port w) ?_ (isolated_boot fresh)
    intro _ _ a w' kept careful step
    exact kept.step careful.1 step
  refine ⟨fun id va b id' va' cow other => ?_,fun id p id' p' f fl fl' cow cow' other here there => ?_,
    fun id va permitted => isolated.permitted permitted,fun a w' careful step noStore id va x before after => ?_⟩
  · refine store_read fun f fl here writable fl' there => other ?_
    have same := isolated.alone id _ f fl cow here writable _ (holds_page_eq_some.mpr ⟨fl',there⟩)
    rw [Holder.page.injEq] at same
    exact Prod.ext same.1 same.2
  · refine ⟨Bool.eq_false_of_not_eq_true fun writable => ?_,Bool.eq_false_of_not_eq_true fun writable => ?_⟩
    · cases isolated.alone id p f fl cow here writable _ (holds_page_eq_some.mpr ⟨fl',there⟩)
      exact other rfl
    · cases isolated.alone id' p' f fl' cow' there writable _ (holds_page_eq_some.mpr ⟨fl,here⟩)
      exact other rfl
  · obtain ⟨e,was,rfl⟩ := map_eq_some_iff.mp before
    obtain ⟨_,shown⟩ := isSome_iff_exists.mp after
    obtain ⟨e',is,_⟩ := map_eq_some_iff.mp shown
    rw [read, is, map_some, sameBytes_step isolated.counted careful.1 step noStore id _ e e' was is]

def plainlyCareful (w : CowSystem cfg (BumpFrameAllocator cfg)) : CowAction → Bool
  | .vm _ (.snapshotCow _ _ len) =>
    decide (w.memory.source.shared.items.length + len / frameSize ≤ cfg.maxSharedFrames)
  | .vm _ (.mapAnonymous _ _ _) | .vm _ (.resolveFault _ _) | .make _ | .store _ _ _ => true
  | _ => false

theorem careful_of_plainly {w : CowSystem cfg (BumpFrameAllocator cfg)} {a : CowAction}
    (plainly : w.plainlyCareful a = true) : w.Careful a := by
  cases a with
  | vm id a =>
    cases a with
    | snapshotCow src dst len =>
      have room : w.memory.source.shared.items.length + len / frameSize ≤ cfg.maxSharedFrames :=
        of_decide_eq_true plainly
      exact ⟨room,fun _ _ => trivial⟩
    | mapAnonymous | resolveFault => exact ⟨trivial,fun _ _ => trivial⟩
    | _ => cases plainly
  | make | store | drawObject | dropObject => trivial

def showsCow (w : CowSystem cfg σ) (id va : Nat) : Bool :=
  (w.space id).any fun sp => (sp.mappingCovering va).any (·.backing == .cow)

omit [FrameSource σ] [CountedSource σ] in
theorem cowPage_of_shows (seen : w.showsCow id va = true) (aligned : va % frameSize = 0) :
    w.CowPage id (va / frameSize) := by
  obtain ⟨sp,here,seen⟩ := (any_eq_true _ _).mp seen
  obtain ⟨m,found,cow⟩ := (any_eq_true _ _).mp seen
  obtain ⟨_,i,cell⟩ := mappingCovering_some found
  refine ⟨sp,here,i,m,cell,?_,by simpa using cow⟩
  rwa [Nat.div_mul_cancel (Nat.dvd_of_mod_eq_zero aligned)]

def machine : CowSystem Config.default (BumpFrameAllocator Config.default) :=
  boot ⟨new [⟨0x100000, 0x100000, .usable⟩], fun _ _ => 0⟩

def forked : List CowAction :=
  [.make 0, .vm 0 (.mapAnonymous 0x40000000 4096 PageFlags.rw.user), .store 0 0x40000000 5,
    .vm 0 (.snapshotCow 0x40000000 0x50000000 4096), .vm 0 (.resolveFault 0x40000000 true), .store 0 0x40000000 7]

theorem forked_sides_stay_apart : ∃ w,
      Disciplined (fun _ w a => w.Careful a ∧ Canonical .x8664 a) (Step ArchPort.x8664) machine forked w ∧
      w.CowPage 0 (0x40000000 / frameSize) ∧ w.read 0 0x40000000 = some 7 ∧ w.read 0 0x50000000 = some 5 ∧
      (w.store 0 0x40000000 9).read 0 0x50000000 = some 5 := by
  have done : ((performAll (fun _ w a => w.plainlyCareful a = true ∧ Canonical .x8664 a) (perform ArchPort.x8664) []
      machine forked).any fun w => w.showsCow 0 0x40000000 && w.read 0 0x40000000 == some 7 &&
        w.read 0 0x50000000 == some 5) = true := by
    decide +kernel
  obtain ⟨w,performed,checked⟩ := (any_eq_true _ _).mp done
  rw [Bool.and_eq_true, Bool.and_eq_true, beq_iff_eq, beq_iff_eq] at checked
  have run := Disciplined.start.performAll_of (fun _ _ _ => And.imp_left careful_of_plainly) performed
  have cow := cowPage_of_shows checked.1.1 (by decide)
  have counts : CountedSource.Counts (fun _ => 0) machine.memory :=
    counts_new (single_region_apart _)
  have apart := (snapshot_sides_stay_apart counts run).1 0 0x40000000 9 0 0x50000000 cow (by decide)
  exact ⟨w,run,cow,checked.1.2,checked.2,apart.trans checked.2⟩

/-- The source range of a snapshot is made writable again. Both ranges are still
    copy-on-write, and a store through one shows in the other. -/
theorem store_is_seen_through_the_snapshot : ∃ w, Run (Step ArchPort.x8664) machine
        [.make 0, .vm 0 (.mapAnonymous 0x40000000 4096 PageFlags.rw.user),
          .vm 0 (.snapshotCow 0x40000000 0x50000000 4096),
          .vm 0 (.protectRange 0x40000000 4096 PageFlags.rw.user)] w ∧
      w.CowPage 0 (0x40000000 / frameSize) ∧ w.CowPage 0 (0x50000000 / frameSize) ∧
      w.read 0 0x50000000 = some 0 ∧ (w.store 0 0x40000000 1).read 0 0x50000000 = some 1 := by
  refine Disciplined.reaches_then (fun w => w.showsCow 0 0x40000000 ∧ w.showsCow 0 0x50000000 ∧
    w.read 0 0x50000000 = some 0 ∧ (w.store 0 0x40000000 1).read 0 0x50000000 = some 1) (by decide +kernel) ?_
  rintro _ _ ⟨first,second,reads⟩
  exact ⟨cowPage_of_shows first (by decide),cowPage_of_shows second (by decide),reads⟩

end CowSystem
end Tessera
