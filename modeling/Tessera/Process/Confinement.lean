import Tessera.Process.Authority

/-!
Confinement of authority. Every handle that was not minted narrows an earlier
one to the same object, and it crosses into another process only from a handle
with the transfer right. A process whose handles to an object all lack that right
cannot put the object into another table or into a message.
-/
namespace Tessera.HandleWorld
open List HandleWorld Option Rights
variable {cfg : Config}
open Transition

def Accounts (a b : Birth) : Prop :=
  Narrows a.entry b.entry ∧ (a.process ≠ b.process → MayTransfer a.entry)

structure Traced (s : HandleWorld cfg) : Prop where
  written : ∀ p e, s.Holds p e → ∃ b ∈ s.births, b.process = p ∧ b.entry = e
  flying : ∀ e, s.InFlight e → ∃ b ∈ s.births, Narrows b.entry e ∧ MayTransfer b.entry
  derived : ∀ earlier b later, s.births = earlier ++ b :: later → b.minted = true ∨ ∃ a ∈ earlier, Accounts a b

theorem traced_initial : Traced (initial : HandleWorld cfg) where
  written p e h := by
    obtain ⟨_,there,_⟩ := h
    simp [initial] at there
  flying e h := by
    obtain ⟨_,mem,_⟩ := h
    simp [initial] at mem
  derived earlier b later same := by
    have empty := congrArg List.length same
    simp [initial] at empty

variable {a : HandleAction} {b e : HandleEntry} {s t : HandleWorld cfg} {p : Nat}
  {history : List HandleAction} {object : ObjectId}

theorem Narrows.mayTransfer {a : HandleEntry} (narrows : Narrows a b) (may : MayTransfer b) : MayTransfer a :=
  contains_of_subset narrows.2 may

theorem Traced.delegable (traced : Traced s) (h : s.Delegable p e) :
    ∃ b ∈ s.births, Narrows b.entry e ∧ MayTransfer b.entry := by
  obtain ⟨old,holds,narrows,may⟩ := h
  obtain ⟨b,mem,_,same⟩ := traced.written p old holds
  exact ⟨b,mem,same ▸ narrows,same ▸ may⟩

theorem Traced.source (traced : Traced s) {b : Birth} (src : Source s a b) :
    b.minted = true ∨ ∃ a ∈ s.births, Accounts a b := by
  cases src with
  | minted is => exact .inl is
  | narrowed old _ holds narrows =>
    obtain ⟨a,mem,process,entry⟩ := traced.written _ old holds
    exact .inr ⟨a,mem,entry ▸ narrows,fun apart => absurd process apart⟩
  | received _ flying =>
    obtain ⟨a,mem,narrows,may⟩ := traced.flying _ flying
    exact .inr ⟨a,mem,narrows,fun _ => may⟩
  | delegated _ _ delegable =>
    obtain ⟨a,mem,narrows,may⟩ := traced.delegable delegable
    exact .inr ⟨a,mem,narrows,fun _ => may⟩

theorem Traced.acts (traced : Traced s) (acts : Acts a s t new) : Traced t where
  written p e h := by
    rw [acts.births]
    rcases acts.held p e h with old | fresh
    · obtain ⟨b,mem,rest⟩ := traced.written p e old
      exact ⟨b,mem_append_left _ mem,rest⟩
    · obtain ⟨b,mem,rest⟩ := fresh
      exact ⟨b,mem_append_right _ mem,rest⟩
  flying e h := by
    rw [acts.births]
    have src : ∃ b ∈ s.births, Narrows b.entry e ∧ MayTransfer b.entry := by
      rcases acts.flying e h with old | sent
      · exact traced.flying e old
      · obtain ⟨_,_,delegable⟩ := sent
        exact traced.delegable delegable
    obtain ⟨b,mem,rest⟩ := src
    exact ⟨b,mem_append_left _ mem,rest⟩
  derived earlier b later same := by
    rw [acts.births] at same
    rcases append_eq_append_iff.mp same with inNew | inOld
    · obtain ⟨between,front,rear⟩ := inNew
      rcases traced.source (acts.source b (rear ▸ by simp)) with is | acc
      · exact .inl is
      · obtain ⟨a,mem,accounts⟩ := acc
        exact .inr ⟨a,front ▸ mem_append_left _ mem,accounts⟩
    obtain ⟨between,front,rear⟩ := inOld
    cases between with
    | nil =>
      simp only [append_nil] at front
      simp only [nil_append] at rear
      rw [← front]
      exact traced.source (acts.source b (rear ▸ by simp))
    | cons x rest =>
      simp only [cons_append, List.cons.injEq] at rear
      exact traced.derived earlier b rest (rear.1 ▸ front)

theorem traced_run (run : Run Step initial history s) : Traced s := by
  refine Run.invariant Traced ?_ traced_initial run
  intro s a t traced step
  obtain ⟨_,acts⟩ := perform_acts s a
  rw [← show t = s.perform a from step] at acts
  exact traced.acts acts

theorem births_were_live (run : Run Step initial history s) : ∀ b ∈ s.births, ∃ before after, ∃ t : HandleWorld cfg,
      history = before ++ after ∧ Run Step initial before t ∧ t.Holds b.process b.entry := by
  induction run with
  | start =>
    intro b mem
    simp [initial] at mem
  | @more as a s t before ok step ih =>
    intro b mem
    obtain ⟨_,acts⟩ := perform_acts s a
    rw [← show t = s.perform a from step] at acts
    rw [acts.births] at mem
    rcases mem_append.mp mem with old | fresh
    · obtain ⟨front,rest,u,same,run,holds⟩ := ih b old
      exact ⟨front,rest ++ [a],u,by rw [same, append_assoc],run,holds⟩
    · exact ⟨as ++ [a],[],t,by simp,Run.more before step,acts.live b fresh⟩

/-- No handle of the process to the object may be handed on. -/
def Confined (s : HandleWorld cfg) (p : Nat) (object : ObjectId) : Prop :=
  ∀ e, s.Holds p e → e.object = object → ¬MayTransfer e

theorem not_delegable (confined : s.Confined p e.object) : ¬s.Delegable p e := by
  intro delegable
  obtain ⟨old,holds,narrows,may⟩ := delegable
  exact confined old holds narrows.1 may

theorem confined_perform (actor : a.actor = some p) (confined : s.Confined p e.object) :
    (∀ q, q ≠ p → (s.perform a).Holds q e → s.Holds q e) ∧ ((s.perform a).InFlight e → s.InFlight e) := by
  obtain ⟨_,acts⟩ := perform_acts s a
  constructor
  · intro q other h
    rcases acts.held q e h with old | fresh
    · exact old
    obtain ⟨b,mem,process,entry⟩ := fresh
    subst process
    subst entry
    cases acts.source b mem with
    | minted _ is =>
      subst is
      exact absurd (some.inj actor) other
    | narrowed _ mine | received mine => exact absurd (some.inj (mine.symm.trans actor)) other
    | delegated p' mine delegable =>
      rw [some.inj (mine.symm.trans actor)] at delegable
      exact absurd delegable (not_delegable confined)
  · intro h
    rcases acts.flying e h with old | sent
    · exact old
    obtain ⟨_,mine,delegable⟩ := sent
    rw [some.inj (mine.symm.trans actor)] at delegable
    exact absurd delegable (not_delegable confined)

/-- Every handle to the object is in one process and stays there. -/
structure Sealed (p : Nat) (object : ObjectId) (s : HandleWorld cfg) : Prop where
  only : ∀ q e, s.Holds q e → e.object = object → q = p ∧ ¬MayTransfer e
  grounded : ∀ e, s.InFlight e → e.object ≠ object

def DoesNotMint (object : ObjectId) (a : HandleAction) : Prop :=
  ∀ q e, a = .mint q e → e.object ≠ object

theorem Sealed.not_delegable (closed : Sealed p e.object s) : ¬s.Delegable q e := by
  apply HandleWorld.not_delegable
  intro old holds same
  exact (closed.only q old holds same).2

theorem Sealed.perform (closed : Sealed p object s) (allowed : DoesNotMint object a) :
    Sealed p object (s.perform a) := by
  obtain ⟨_,acts⟩ := perform_acts s a
  constructor
  · intro q e h same
    subst same
    rcases acts.held q e h with old | fresh
    · exact closed.only q e old rfl
    obtain ⟨b,mem,process,entry⟩ := fresh
    subst process
    subst entry
    cases acts.source b mem with
    | minted _ is => exact absurd rfl (allowed _ _ is)
    | narrowed old _ holds narrows =>
      obtain ⟨here,confined⟩ := closed.only _ old holds narrows.1
      exact ⟨here,fun may => confined (narrows.mayTransfer may)⟩
    | received _ flying => exact absurd rfl (closed.grounded _ flying)
    | delegated _ _ delegable => exact absurd delegable closed.not_delegable
  · intro e flying same
    subst same
    rcases acts.flying e flying with old | sent
    · exact closed.grounded e old rfl
    · obtain ⟨_,_,delegable⟩ := sent
      exact closed.not_delegable delegable

theorem Sealed.run (closed : Sealed p object s)
    (run : Disciplined (fun _ _ a => DoesNotMint object a) Step s onward t) : Sealed p object t := by
  refine Disciplined.invariant (fun _ => Sealed p object) ?_ closed run
  intro _ s a t closed allowed step
  rw [show t = s.perform a from step]
  exact closed.perform allowed

/-- Confinement of authority in every run. A live handle that was not minted has
    an earlier handle that accounts for it, and those earlier handles were really
    held; an action of a process whose handles to an object lack the transfer right
    gives the object to nobody; an object held only there stays there until it is
    minted again. -/
theorem authority_is_confined {history : List HandleAction} {s : HandleWorld cfg} (run : Run Step initial history s) :
    (∀ p e, s.Holds p e → ∃ earlier b later, s.births = earlier ++ b :: later ∧
      b.process = p ∧ b.entry = e ∧ (b.minted = true ∨ ∃ a ∈ earlier, Accounts a b)) ∧
    (∀ b ∈ s.births, ∃ before after, ∃ t : HandleWorld cfg, history = before ++ after ∧
      Run Step initial before t ∧ t.Holds b.process b.entry) ∧ (∀ p e a, s.Confined p e.object → a.actor = some p →
      (∀ q, q ≠ p → (s.perform a).Holds q e → s.Holds q e) ∧ ((s.perform a).InFlight e → s.InFlight e)) ∧
    (∀ p object onward t, Sealed p object s → Disciplined (fun _ _ a => DoesNotMint object a) Step s onward t →
      ∀ q e, t.Holds q e → e.object = object → q = p) := by
  have traced := traced_run run
  refine ⟨?_,births_were_live run,fun p e a confined actor => confined_perform actor confined,?_⟩
  · intro p e holds
    obtain ⟨b,mem,process,entry⟩ := traced.written p e holds
    obtain ⟨earlier,later,same⟩ := append_of_mem mem
    exact ⟨earlier,b,later,same,process,entry,traced.derived earlier b later same⟩
  · intro _ _ _ _ closed after q e holds same
    exact ((closed.run after).only q e holds same).1

/-- One process shares a memory object with another, keeping the right to read. -/
theorem shared_handle_is_confined : let args : ChannelMsgRequest := ⟨1, 1, 0, .ok [], 1, .ok [.ok ⟨0, read, true⟩]⟩
    let full : HandleEntry := ⟨⟨7⟩, read.union transfer⟩
    let history : List HandleAction :=
      [.spawn ⟨1⟩, .spawn ⟨2⟩, .mint 0 full, .send 0 0 args true, .receive 1 0]
    ∃ s : HandleWorld Config.default, Run Step initial history s ∧ s.Holds 1 ⟨⟨7⟩, read⟩ ∧
      ∃ earlier b later, s.births = earlier ++ b :: later ∧ b.process = 1 ∧
        b.entry = ⟨⟨7⟩, read⟩ ∧ (b.minted = true ∨ ∃ a ∈ earlier, Accounts a b) := by
  intro _ _ history
  have run : Run Step (initial : HandleWorld Config.default) history
      (history.foldl perform initial) :=
    ((((Run.start _).more rfl).more rfl).more rfl |>.more rfl).more rfl
  have holds : (history.foldl perform (initial : HandleWorld Config.default)).Holds 1
      ⟨⟨7⟩, read⟩ := by
    have there : ((history.foldl perform (initial : HandleWorld Config.default)).processes[1]?.bind
        fun r => r.handles.slots.cell 0) = some ⟨⟨7⟩, read⟩ := by decide +kernel
    obtain ⟨r,process,cell⟩ := bind_eq_some_iff.mp there
    exact ⟨r,process,0,cell⟩
  exact ⟨_,run,holds,(authority_is_confined run).1 1 _ holds⟩

end Tessera.HandleWorld
