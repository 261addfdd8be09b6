import Tessera.Kernel.Kernel

/-!
What a process loses when devices are taken from it. Losing a device means losing every
handle and every register window of it, with the pages the windows had, and nothing
besides. The removal of a device takes one handle from each process, and that amounts to
losing the device for a process with a single handle to it.
-/
namespace Tessera
open HandleTable List
variable {cfg : Config}

namespace Process

def HasWindow (p : Process cfg) (device : ObjectId) : Prop := ∃ j w, p.deviceWindows.cell j = some w ∧ w.object = device

def WindowPage (p : Process cfg) (gone : ObjectId → Prop) (page : Nat) : Prop :=
  ∃ j w, p.deviceWindows.cell j = some w ∧ gone w.object ∧ w.Spans page

structure Lost (gone : ObjectId → Prop) (p p' : Process cfg) : Prop where
  handles : ∀ j e, p'.handles.slots.cell j = some e ↔ p.handles.slots.cell j = some e ∧ ¬ gone e.object
  generations : ∀ j, (∀ e, p.handles.slots.cell j = some e → ¬ gone e.object) →
    p'.handles.generations j = p.handles.generations j
  windows : ∀ j w, p'.deviceWindows.cell j = some w ↔ p.deviceWindows.cell j = some w ∧ ¬ gone w.object
  unmapped : ∀ page, p.WindowPage gone page → p'.space.arch.pages page = none
  pages : ∀ page, ¬ p.WindowPage gone page → p'.space.arch.pages page = p.space.arch.pages page
  records : p'.space.mappings = p.space.mappings ∧ p'.space.mappingCount = p.space.mappingCount ∧
    p'.space.mappedBytes = p.space.mappedBytes
  rest : p'.id = p.id ∧ p'.memoryMappings = p.memoryMappings

variable {gone : ObjectId → Prop} {p p' : Process cfg} {dev : ObjectId}

theorem Lost.not_holds (lost : Lost gone p p') (out : gone dev) : p'.handles.holds dev = false := by
  rw [← Bool.not_eq_true, holds_iff]
  rintro ⟨j,e,here,rfl⟩
  exact ((lost.handles j e).mp here).2 out

theorem Lost.no_window (lost : Lost gone p p') (out : gone dev) : ¬ p'.HasWindow dev := by
  rintro ⟨j,w,here,rfl⟩
  exact ((lost.windows j w).mp here).2 out

theorem Lost.refl (none : ∀ dev, gone dev → p.handles.holds dev = false)
    (bare : ∀ dev, gone dev → ¬ p.HasWindow dev) : Lost gone p p := by
  have apart (j : Nat) (e : HandleEntry) (here : p.handles.slots.cell j = some e) : ¬ gone e.object := by
    intro out
    have held := holds_iff.mpr ⟨j,e,here,rfl⟩
    rw [none _ out] at held
    cases held
  refine ⟨fun j e => ⟨fun here => ⟨here,apart j e here⟩,And.left⟩,fun _ _ => rfl,
    fun j w => ⟨fun here => ⟨here,fun out => bare _ out ⟨j,w,here,rfl⟩⟩,And.left⟩,?_,fun _ _ => rfl,
    ⟨rfl,rfl,rfl⟩,⟨rfl,rfl⟩⟩
  rintro _ ⟨j,w,here,out,_⟩
  exact absurd ⟨j,w,here,rfl⟩ (bare _ out)

theorem Lost.trans {first second both : ObjectId → Prop} (early : Lost first p q)
    (late : Lost second q r) (either : ∀ dev, both dev ↔ first dev ∨ second dev) : Lost both p r := by
  have spans (page : Nat) : p.WindowPage both page ↔ p.WindowPage first page ∨ q.WindowPage second page := by
    constructor
    · rintro ⟨j,w,here,out,inside⟩
      by_cases before : first w.object
      · exact .inl ⟨j,w,here,before,inside⟩
      · exact .inr ⟨j,w,(early.windows j w).mpr ⟨here,before⟩,((either _).mp out).resolve_left before,inside⟩
    · rintro (⟨j,w,here,out,inside⟩ | ⟨j,w,here,out,inside⟩)
      · exact ⟨j,w,here,(either _).mpr (.inl out),inside⟩
      · exact ⟨j,w,((early.windows j w).mp here).1,(either _).mpr (.inr out),inside⟩
  refine ⟨fun j e => ?_,fun j kept => ?_,fun j _ => ?_,fun page inside => ?_,fun page outside => ?_,?_,?_⟩
  · rw [late.handles, early.handles, either, not_or, and_assoc]
  · rw [late.generations, early.generations]
    · intro e here out
      exact kept e here ((either _).mpr (.inl out))
    · intro e here out
      exact kept e ((early.handles j e).mp here).1 ((either _).mpr (.inr out))
  · rw [late.windows, early.windows, either, not_or, and_assoc]
  · by_cases again : q.WindowPage second page
    · exact late.unmapped page again
    · rw [late.pages page again]
      exact early.unmapped page (((spans page).mp inside).resolve_right again)
  · rw [spans, not_or] at outside
    rw [late.pages page outside.2, early.pages page outside.1]
  · obtain ⟨a,b,c⟩ := early.records
    obtain ⟨a',b',c'⟩ := late.records
    exact ⟨a'.trans a,b'.trans b,c'.trans c⟩
  · exact ⟨late.rest.1.trans early.rest.1,late.rest.2.trans early.rest.2⟩

theorem revokeDeviceWindows_held (held : p.handles.holds dev = true) :
    (p.revokeDeviceWindowsUnlessHeld dev).2 = p := by
  rw [revokeDeviceWindowsUnlessHeld, if_pos held]

theorem revokeDeviceWindows_lost (last : p.handles.holds dev = false) :
    Lost (· = dev) p (p.revokeDeviceWindowsUnlessHeld dev).2 := by
  have free : ¬ p.handles.holds dev = true := by simp [last]
  rw [revokeDeviceWindowsUnlessHeld, if_neg free]
  have spans (page : Nat) : (∃ w ∈ p.deviceWindows.live.filter (·.object = dev), w.Spans page) ↔
      p.WindowPage (· = dev) page := by
    simp only [mem_filter, Slots.mem_live, decide_eq_true_eq]
    constructor
    · rintro ⟨w,⟨⟨j,here⟩,same⟩,inside⟩
      exact ⟨j,w,here,same,inside⟩
    · rintro ⟨j,w,here,same,inside⟩
      exact ⟨w,⟨⟨j,here⟩,same⟩,inside⟩
  have pages (page : Nat) := AddressSpace.closeDeviceWindows_pages p.space
    (p.deviceWindows.live.filter (·.object = dev)) page
  refine ⟨fun j e => ⟨fun here => ⟨here,?_⟩,And.left⟩,fun _ _ => rfl,fun j _ => ?_,fun page inside => ?_,
    fun page outside => ?_,AddressSpace.closeDeviceWindows_rest _ _,⟨rfl,rfl⟩⟩
  · rintro rfl
    exact free (holds_iff.mpr ⟨j,e,here,rfl⟩)
  · dsimp only [takeDeviceWindows]
    rw [Slots.cell_discard]
    simp
  · exact (pages page).trans (if_pos ((spans page).mpr inside))
  · exact (pages page).trans (if_neg (fun inside => outside ((spans page).mp inside)))

end Process

namespace Kernel

theorem surrender_cases (dev : ObjectId) (p : Process cfg) :
    (p.handles.slotsNaming [dev] = [] ∧ surrender dev p = p) ∨ ∃ i rest, p.handles.slotsNaming [dev] = i :: rest ∧
        surrender dev p = ({ p with handles := p.handles.vacate i }.revokeDeviceWindowsUnlessHeld dev).2 := by
  unfold surrender
  rw [reclaim_eq]
  cases slots : p.handles.slotsNaming [dev] with
  | nil => exact .inl ⟨rfl,rfl⟩
  | cons i =>
    have named : i ∈ p.handles.slotsNaming [dev] := slots ▸ mem_cons_self
    obtain ⟨_,here,_⟩ := mem_slotsNaming.mp named
    simp [here]

variable {dev other : ObjectId} {i : Nat} {p : Process cfg} {devices : List ObjectId}

theorem holds_vacate_first {t : HandleTable cfg}
    (slots : t.slotsNaming [dev] = i :: rest) : (t.vacate i).holds dev = true ↔ rest ≠ [] := by
  have once := t.slotsNaming_nodup [dev]
  rw [slots, nodup_cons] at once
  have named (j : Nat) : j ∈ i :: rest ↔ ∃ e, t.slots.cell j = some e ∧ e.object = dev := by
    rw [← slots, mem_slotsNaming]
    simp only [mem_singleton]
  rw [holds_iff, ← length_pos_iff_ne_nil, length_pos_iff_exists_mem]
  constructor
  · rintro ⟨j,e,there,same⟩
    rw [cell_vacate] at there
    split at there
    · cases there
    · rename_i other
      exact ⟨j,(mem_cons.mp ((named j).mpr ⟨e,there,same⟩)).resolve_left other⟩
  · rintro ⟨j,later⟩
    obtain ⟨e,there,same⟩ := (named j).mp (mem_cons_of_mem i later)
    refine ⟨j,e,?_,same⟩
    rw [cell_vacate, if_neg (ne_of_mem_of_not_mem later once.1)]
    exact there

/-- The process gives the device up by losing one handle: it has no second one, and no
    window without a handle. -/
def GivesUp (p : Process cfg) (device : ObjectId) : Prop :=
  (p.handles.slotsNaming [device]).length ≤ 1 ∧ (p.HasWindow device → p.handles.holds device = true)

theorem vacate_lost (only : p.handles.slotsNaming [dev] = [i]) :
    Process.Lost (· = dev) p ({ p with handles := p.handles.vacate i }.revokeDeviceWindowsUnlessHeld dev).2 := by
  have named (j : Nat) : j = i ↔ ∃ e, p.handles.slots.cell j = some e ∧ e.object = dev := by
    have mem := @mem_slotsNaming cfg p.handles [dev] j
    rw [only] at mem
    simpa only [mem_singleton] using mem
  have last : (p.handles.vacate i).holds dev = false := by
    rw [← Bool.not_eq_true, holds_vacate_first only]
    simp
  have revoked := Process.revokeDeviceWindows_lost (p := { p with handles := p.handles.vacate i }) last
  refine ⟨fun j e => ?_,fun j kept => ?_,revoked.windows,revoked.unmapped,revoked.pages,revoked.records,revoked.rest⟩
  · rw [revoked.handles, cell_vacate]
    constructor
    · rintro ⟨here,other⟩
      split at here
      · cases here
      · exact ⟨here,other⟩
    · rintro ⟨here,other⟩
      refine ⟨?_,other⟩
      rw [if_neg, here]
      intro same
      obtain ⟨_,there,also⟩ := (named j).mp same
      rw [here] at there
      cases there
      exact other also
  · have apart : j ≠ i := by
      intro same
      obtain ⟨e,here,also⟩ := (named j).mp same
      exact kept e here also
    rw [revoked.generations j, generations_vacate _ apart]
    intro e there
    rw [cell_vacate, if_neg apart] at there
    exact kept e there

theorem surrender_lost (gives : GivesUp p dev) : Process.Lost (· = dev) p (surrender dev p) := by
  rcases surrender_cases dev p with ⟨none,same⟩ | ⟨_,rest,slots,done⟩
  · have free : p.handles.holds dev = false := by
      rw [← Bool.not_eq_true, holds_iff_slotsNaming, none]
      simp
    rw [same]
    refine .refl ?_ ?_
    · rintro _ rfl
      exact free
    · rintro _ rfl window
      rw [gives.2 window] at free
      cases free
  · have short := gives.1
    rw [slots, length_cons] at short
    obtain rfl : rest = [] := eq_nil_of_length_eq_zero (by omega)
    rw [done]
    exact vacate_lost slots

theorem surrender_others (dev : ObjectId) (p : Process cfg) (apart : other ≠ dev) :
    (surrender dev p).handles.slotsNaming [other] = p.handles.slotsNaming [other] ∧
      ((surrender dev p).HasWindow other ↔ p.HasWindow other) := by
  have slotsNaming (t t' : HandleTable cfg)
      (same : ∀ j e, e.object = other → (t'.slots.cell j = some e ↔ t.slots.cell j = some e)) :
      t'.slotsNaming [other] = t.slotsNaming [other] := by
    refine filter_congr fun j _ => ?_
    rw [Bool.eq_iff_iff, names, names, Option.any_eq_true, Option.any_eq_true]
    simp only [contains_eq_mem, mem_singleton, decide_eq_true_eq]
    constructor
    · rintro ⟨e,here,obj⟩
      exact ⟨e,(same j e obj).mp here,obj⟩
    · rintro ⟨e,here,obj⟩
      exact ⟨e,(same j e obj).mpr here,obj⟩
  rcases surrender_cases dev p with ⟨_,same⟩ | ⟨i,_,slots,done⟩
  · rw [same]
    exact ⟨rfl,Iff.rfl⟩
  have first : i ∈ p.handles.slotsNaming [dev] := slots ▸ mem_cons_self
  obtain ⟨_,there,owned⟩ := mem_slotsNaming.mp first
  rw [mem_singleton] at owned
  have vacated (j : Nat) (e : HandleEntry) (obj : e.object = other) :
      (p.handles.vacate i).slots.cell j = some e ↔ p.handles.slots.cell j = some e := by
    rw [cell_vacate]
    split
    · rename_i same
      rw [same, there]
      simp only [reduceCtorEq, Option.some.injEq, false_iff]
      rintro rfl
      exact apart (obj.symm.trans owned)
    · rfl
  rw [done]
  cases held : (p.handles.vacate i).holds dev with
  | true =>
    rw [Process.revokeDeviceWindows_held held]
    exact ⟨slotsNaming _ _ vacated,Iff.rfl⟩
  | false =>
    have lost := Process.revokeDeviceWindows_lost (p := { p with handles := p.handles.vacate i }) held
    constructor
    · refine slotsNaming _ _ fun j e obj => ?_
      rw [lost.handles, vacated j e obj]
      exact ⟨And.left,fun here => ⟨here,fun same => apart (obj.symm.trans same)⟩⟩
    constructor
    · rintro ⟨j,w,here,obj⟩
      exact ⟨j,w,((lost.windows j w).mp here).1,obj⟩
    · rintro ⟨j,w,here,obj⟩
      exact ⟨j,w,(lost.windows j w).mpr ⟨here,fun same => apart (obj.symm.trans same)⟩,obj⟩

theorem surrender_keeps (keeps : ¬ GivesUp p dev) :
    (surrender dev p).handles.holds dev = true ∨ (surrender dev p).HasWindow dev := by
  rcases surrender_cases dev p with ⟨none,same⟩ | ⟨i,rest,slots,done⟩
  · have short : (p.handles.slotsNaming [dev]).length ≤ 1 := by simp [none]
    rw [GivesUp, not_and] at keeps
    rw [same]
    exact .inr (Classical.not_imp.mp (keeps short)).1
  by_cases more : rest = []
  · refine absurd ⟨by simp [slots, more],fun _ => ?_⟩ keeps
    rw [holds_iff_slotsNaming, slots]
    exact cons_ne_nil i rest
  have held := (holds_vacate_first slots).mpr more
  rw [done, Process.revokeDeviceWindows_held held]
  exact .inl held

def surrenderAll (devices : List ObjectId) (p : Process cfg) : Process cfg :=
  devices.foldl (fun p device => surrender device p) p

theorem surrenderAll_others (devices : List ObjectId) (p : Process cfg) (apart : other ∉ devices) :
    (surrenderAll devices p).handles.slotsNaming [other] = p.handles.slotsNaming [other] ∧
      ((surrenderAll devices p).HasWindow other ↔ p.HasWindow other) := by
  induction devices generalizing p with
  | nil => exact ⟨rfl,Iff.rfl⟩
  | cons dev rest ih =>
    rw [mem_cons, not_or] at apart
    obtain ⟨slots,windows⟩ := surrender_others dev p apart.1
    obtain ⟨slots',windows'⟩ := ih (surrender dev p) apart.2
    exact ⟨slots'.trans slots,windows'.trans windows⟩

theorem holds_of_slots {q : Process cfg} (same : q.handles.slotsNaming [dev] = p.handles.slotsNaming [dev]) :
    q.handles.holds dev = p.handles.holds dev := by
  rw [Bool.eq_iff_iff, holds_iff_slotsNaming, holds_iff_slotsNaming, same]

theorem surrenderAll_lost (once : devices.Nodup) (p : Process cfg)
    (gives : ∀ dev ∈ devices, GivesUp p dev) : Process.Lost (· ∈ devices) p (surrenderAll devices p) := by
  induction devices generalizing p with
  | nil => exact .refl nofun nofun
  | cons dev rest ih =>
    rw [nodup_cons] at once
    have first := surrender_lost (gives dev mem_cons_self)
    have later := ih once.2 (surrender dev p) fun other mem => by
      obtain ⟨slots,windows⟩ := surrender_others dev p (ne_of_mem_of_not_mem mem once.1)
      rw [GivesUp, slots, windows, holds_of_slots slots]
      exact gives other (mem_cons_of_mem dev mem)
    exact first.trans later fun _ => mem_cons

theorem surrenderAll_lost_iff (once : devices.Nodup) (p : Process cfg) :
    Process.Lost (· ∈ devices) p (surrenderAll devices p) ↔ ∀ dev ∈ devices, GivesUp p dev := by
  refine ⟨fun lost dev mem => ?_,surrenderAll_lost once p⟩
  by_contra keeps
  obtain ⟨before,after,rfl⟩ := append_of_mem mem
  rw [nodup_append, nodup_cons] at once
  have early : dev ∉ before := fun there => once.2.2 dev there dev mem_cons_self rfl
  obtain ⟨slots,windows⟩ := surrenderAll_others before p early
  have stuck : ¬ GivesUp (surrenderAll before p) dev := by
    rwa [GivesUp, slots, windows, holds_of_slots slots]
  obtain ⟨slots',windows'⟩ := surrenderAll_others after (surrender dev (surrenderAll before p)) once.2.1.1
  have whole : surrenderAll (before ++ dev :: after) p =
      surrenderAll after (surrender dev (surrenderAll before p)) := by
    rw [surrenderAll, foldl_append]
    rfl
  rw [whole] at lost
  rcases surrender_keeps stuck with held | window
  · have still := lost.not_holds mem
    rw [holds_of_slots slots', held] at still
    cases still
  · exact lost.no_window mem (windows'.mpr window)

end Kernel
end Tessera
