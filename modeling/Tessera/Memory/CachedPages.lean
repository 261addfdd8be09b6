import Tessera.Memory.MemoryRecords

/-!
The page cache of the memory table, page by page: the record the cache keeps of
a page, and the frame the page is resident in. Every call that touches the
cache is described by what it does to these two. A page that the cache records
is resident, and no frame holds two pages.
-/
namespace Tessera
open Slots
variable {cfg : Config} {t : MemoryTable cfg}

namespace ObjectCache

def Distinct (c : ObjectCache cfg) : Prop :=
  ∀ i j a b, c.pages.cell i = some a → c.pages.cell j = some b → a.offset = b.offset → i = j

def entry (c : ObjectCache cfg) (offset : Nat) : Option PageEntry := c.pages.find? (atOffset offset)

def edit (c : ObjectCache cfg) (offset : Nat) (f : PageEntry → PageEntry) : ObjectCache cfg :=
  { c with pages := c.pages.modify (atOffset offset) f }

variable {c c' : ObjectCache cfg} {off : Nat} {a : PageEntry} {f : PageEntry → PageEntry}

theorem Distinct.entry_iff (distinct : c.Distinct) :
    c.entry off = some a ↔ a.offset = off ∧ ∃ i, c.pages.cell i = some a := by
  unfold entry
  rw [find?_eq_some_iff]
  · simp [atOffset]
  · intro i j x y here there first second
    simp only [atOffset, decide_eq_true_eq] at first second
    exact distinct i j x y here there (first.trans second.symm)

theorem Distinct.edit (distinct : c.Distinct) (off : Nat) (keeps : ∀ p, (f p).offset = p.offset) :
    (c.edit off f).Distinct := by
  have before {i : Nat} {a : PageEntry} (here : (c.edit off f).pages.cell i = some a) :
      ∃ b, c.pages.cell i = some b ∧ b.offset = a.offset := by
    rcases cell_modify_cases here with same | ⟨b,old,_,rfl⟩
    · exact ⟨a,same,rfl⟩
    · exact ⟨b,old,(keeps b).symm⟩
  intro i j a b here there same
  obtain ⟨x,first,one⟩ := before here
  obtain ⟨y,second,two⟩ := before there
  exact distinct i j x y first second (by rw [one, two, same])

theorem distinct_new (limit : Nat) : (new limit : ObjectCache cfg).Distinct := by
  intro i j a b here
  simp [new] at here

theorem Distinct.forget (distinct : c.Distinct) (off : Nat) : (c.forget off).Distinct ∧
      ∀ o, (c.forget off).entry o = if o = off then none else c.entry o := by
  unfold ObjectCache.forget
  split
  · rename_i slot index
    obtain ⟨b,there,matching⟩ := index?_eq_some index
    simp only [atOffset, decide_eq_true_eq] at matching
    have distinct' : ({ c with pages := c.pages.clear slot } : ObjectCache cfg).Distinct := by
      intro i j x y here there same
      exact distinct i j x y (cell_clear_cases here).2 (cell_clear_cases there).2 same
    refine ⟨distinct',fun o => ?_⟩
    apply Option.ext
    intro a
    rw [distinct'.entry_iff]
    split
    · rename_i same
      constructor
      · rintro ⟨named,i,here⟩
        obtain ⟨apart,old⟩ := cell_clear_cases here
        exact absurd (distinct slot i b a there old (matching.trans (same.symm.trans named.symm))) apart
      · nofun
    rename_i other
    rw [distinct.entry_iff]
    constructor
    · rintro ⟨named,i,here⟩
      exact ⟨named,i,(cell_clear_cases here).2⟩
    rintro ⟨named,i,old⟩
    refine ⟨named,i,?_⟩
    rw [Slots.clear, cell_assign_ne]
    · exact old
    rintro rfl
    rw [there] at old
    cases old
    exact other (named.symm.trans matching)
  · rename_i none
    refine ⟨distinct,fun o => ?_⟩
    split
    · rename_i same
      subst same
      rw [entry, find?_eq_none]
      exact index?_eq_none.mp none
    · rfl

def cleaned (p : PageEntry) : PageEntry := { p with dirty := false }

def armed (p : PageEntry) : PageEntry := if p.writeBack = .idle then { p with writeBack := .inFlight } else p

def disarmed (p : PageEntry) : PageEntry := { p with writeBack := .idle }

def dirtied (p : PageEntry) : PageEntry :=
  { p with
    dirty := true
    writeBack := if p.writeBack = .inFlight then .redirtied else p.writeBack }

end ObjectCache

namespace MemoryTable

def editCache (t : MemoryTable cfg) (o : ObjectId) (f : ObjectCache cfg → ObjectCache cfg) : MemoryTable cfg :=
  t.update o fun e => { e with cache := f e.cache }

section Edits
variable {o : ObjectId} {f : ObjectCache cfg → ObjectCache cfg}

theorem find_editCache (t : MemoryTable cfg) (o : ObjectId) (f : ObjectCache cfg → ObjectCache cfg) (o' : ObjectId) :
    (t.editCache o f).find o' =
      if o' = o then (t.find o').map fun e => { e with cache := f e.cache } else t.find o' := by
  apply find_update
  intro e
  rfl

end Edits

end MemoryTable
end Tessera
