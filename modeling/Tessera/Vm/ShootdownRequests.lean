import Tessera.Lib.GenerationBarrier
import Tessera.Lib.Transition

/-!
A call that has processors drop their translations, among others, which only raise the
generation. Services interrupt one another anywhere; one that interrupts another ends
before it. What a processor has done for the call is read off the steps that were taken
since the call raised the generation.
-/
namespace Tessera
open Function GenerationBarrier List Transition
variable {ι : Type} [DecidableEq ι]

structure Shootdown (ι : Type) where
  barrier : State ι
  generation : Nat
  targets : List ι
  polling : Option (List ι × Nat)

inductive ShootdownAction (ι : Type) where
  | requestElsewhere
  | load (cpu : ι)
  | flush (cpu : ι)
  | acknowledge (cpu : ι)
  | sendAndWait (targets : List ι) (spins : Nat) (addressed : Bool)
  | poll

namespace ShootdownAction

/-- How many services of the processor lie on top of one that had so many; it is gone if there were none
    and one has ended. -/
def above (c : ι) (n : Nat) : ShootdownAction ι → Option Nat
  | .load d => some (if d = c then n + 1 else n)
  | .acknowledge d => if d = c then (if n = 0 then none else some (n - 1)) else some n
  | _ => some n

/-- A service of the processor began in these steps and now has so many on top of it. -/
def Begun (c : ι) (n : Nat) (as : List (ShootdownAction ι)) : Prop :=
  ∃ front rest, as = front ++ .load c :: rest ∧ rest.foldlM (above c) 0 = some n

/-- A service of the processor began in these steps and then ended its flush. -/
def Flushed (as : List (ShootdownAction ι)) (c : ι) : Prop :=
  ∃ front rest, as = front ++ .flush c :: rest ∧ Begun c 0 front

variable {as : List (ShootdownAction ι)} {a : ShootdownAction ι} {c : ι} {n m : Nat}

theorem Begun.more (begun : Begun c n as) (next : above c n a = some m) : Begun c m (as ++ [a]) := by
  obtain ⟨front,rest,rfl,count⟩ := begun
  exact ⟨front,rest ++ [a],by simp,by simp [count, next]⟩

theorem Flushed.more (flushed : Flushed as c) : Flushed (as ++ [a]) c := by
  obtain ⟨front,rest,rfl,begun⟩ := flushed
  exact ⟨front,rest ++ [a],by simp,begun⟩

end ShootdownAction

namespace Shootdown
open ShootdownAction

def new : Shootdown ι := ⟨⟨0, fun _ => ⟨0, []⟩⟩, 1, [], none⟩

section
variable (w : Shootdown ι)

/-- The targets and the turns left: the call returns true at no target, false at `none`. -/
def poll : Option (List ι × Nat) :=
  match w.polling with
  | some (c :: rest, left) =>
    if w.generation ≤ (w.barrier.party c).acked then some (rest, left)
    else if left = 0 then none
    else some (w.targets, left - 1)
  | polling => polling

def perform : ShootdownAction ι → Option (Shootdown ι)
  | .requestElsewhere => some { w with barrier := w.barrier.request }
  | .load c => some { w with barrier := w.barrier.load c }
  | .flush c => (w.barrier.act c).map fun barrier => { w with barrier }
  | .acknowledge c => (w.barrier.publish c).map fun barrier => { w with barrier }
  | .sendAndWait [] _ _ => some { w with targets := [], polling := some ([], 0) }
  | .sendAndWait targets spins addressed => some ⟨w.barrier.request, w.barrier.requested + 1, targets,
      if addressed then some (targets, spins) else none⟩
  | .poll => some { w with polling := w.poll }

def Step (a : ShootdownAction ι) (v : Shootdown ι) : Prop := w.perform a = some v

/-- What holds in the steps since the call raised the generation. -/
structure Sound (targets : List ι) (as : List (ShootdownAction ι)) : Prop where
  called : w.targets = targets
  bounded : w.barrier.Bounded
  answered : State.Answered (Flushed as) w.generation w.barrier
  begun : ∀ c n x, (w.barrier.party c).services[n]? = some x → w.generation ≤ x.generation → Begun c n as
  polled : ∀ p ∈ w.polling, ∀ c ∈ w.targets, c ∈ p.1 ∨ Flushed as c

end

variable {w v : Shootdown ι} {as : List (ShootdownAction ι)} {a : ShootdownAction ι} {targets : List ι}

theorem bounded_step (bounded : w.barrier.Bounded) (step : w.Step a v) : v.barrier.Bounded := by
  unfold Step perform at step
  split at step
  case h_3 =>
    obtain ⟨_,acted,rfl⟩ := Option.map_eq_some_iff.mp step
    exact bounded.act acted
  case h_4 =>
    obtain ⟨_,published,rfl⟩ := Option.map_eq_some_iff.mp step
    exact bounded.publish published
  all_goals cases step
  · exact bounded.request
  · exact bounded.load _
  · exact bounded
  · exact bounded.request
  · exact bounded

omit [DecidableEq ι] in
theorem polled_poll {done : ι → Prop} (answered : State.Answered done w.generation w.barrier)
    (polled : ∀ p ∈ w.polling, ∀ c ∈ w.targets, c ∈ p.1 ∨ done c) :
    ∀ p ∈ w.poll, ∀ c ∈ w.targets, c ∈ p.1 ∨ done c := by
  intro p next c mem
  revert next
  fun_cases Shootdown.poll with
  | case1 _ rest _ here seen =>
    rintro ⟨⟩
    rcases polled _ here c mem with waiting | flushed
    · rcases mem_cons.mp waiting with rfl | later
      · exact .inr ((answered c).1 seen)
      · exact .inl later
    · exact .inr flushed
  | case2 => exact nofun
  | case3 =>
    rintro ⟨⟩
    exact .inl mem
  | case4 => exact fun here => polled p here c mem

theorem Sound.step (sound : w.Sound targets as)
    (other : ∀ targets spins addressed, a ≠ .sendAndWait targets spins addressed)
    (step : w.Step a v) : v.Sound targets (as ++ [a]) := by
  have kept : State.Answered (Flushed (as ++ [a])) w.generation w.barrier := sound.answered.mono fun _ => .more
  have polled : ∀ p ∈ w.polling, ∀ c ∈ w.targets, c ∈ p.1 ∨ Flushed (as ++ [a]) c :=
    fun p here c mem => (sound.polled p here c mem).imp_right .more
  have bounded := bounded_step sound.bounded step
  unfold Step at step
  cases a with simp only [perform] at step
  | requestElsewhere =>
    cases step
    exact ⟨sound.called,bounded,kept,fun c n x there late => (sound.begun c n x there late).more rfl,polled⟩
  | poll =>
    cases step
    exact ⟨sound.called,bounded,kept,fun c n x there late => (sound.begun c n x there late).more rfl,
      polled_poll kept polled⟩
  | sendAndWait targets spins addressed => exact absurd rfl (other targets spins addressed)
  | load d =>
    cases step
    refine ⟨sound.called,bounded,kept.load d,fun c n x there late => ?_,polled⟩
    by_cases same : c = d
    · subst same
      simp only [State.load, State.setParty, update_self] at there
      cases n with
      | zero => exact ⟨as,[],rfl,rfl⟩
      | succ n => exact (sound.begun c n x there late).more (congrArg some (if_pos rfl))
    · simp only [State.load, State.setParty, update_of_ne same] at there
      exact (sound.begun c n x there late).more (congrArg some (if_neg (Ne.symm same)))
  | flush d =>
    obtain ⟨_,acted,rfl⟩ := Option.map_eq_some_iff.mp step
    refine ⟨sound.called,bounded,kept.act acted fun x top late => ?_,fun c n x there late => ?_,polled⟩
    · exact ⟨as,[],rfl,sound.begun d 0 x (head?_eq_getElem? ▸ top) late⟩
    obtain ⟨g,rest,services,rfl⟩ := State.act_eq_some acted
    by_cases same : c = d
    · subst same
      simp only [State.setParty, update_self] at there
      cases n with
      | zero =>
        cases there
        exact (sound.begun c 0 ⟨g, false⟩ (by rw [services]; rfl) late).more rfl
      | succ n => exact (sound.begun c (n + 1) x (services ▸ there) late).more rfl
    · simp only [State.setParty, update_of_ne same] at there
      exact (sound.begun c n x there late).more rfl
  | acknowledge d =>
    obtain ⟨_,published,rfl⟩ := Option.map_eq_some_iff.mp step
    refine ⟨sound.called,bounded,kept.publish published,fun c n x there late => ?_,polled⟩
    obtain ⟨g,rest,services,rfl⟩ := State.publish_eq_some published
    by_cases same : c = d
    · subst same
      simp only [State.setParty, update_self] at there
      exact (sound.begun c (n + 1) x (services ▸ there) late).more (if_pos rfl)
    · simp only [State.setParty, update_of_ne same] at there
      exact (sound.begun c n x there late).more (if_neg (Ne.symm same))

theorem sound_start (some : targets ≠ []) (bounded : w.barrier.Bounded)
    (step : w.Step (.sendAndWait targets spins addressed) v) : v.Sound targets [] := by
  cases targets with
  | nil => exact absurd rfl some
  | cons first rest =>
    cases step
    refine ⟨rfl,bounded.request,bounded.answered _,fun c n x there late => ?_,fun p here c mem => ?_⟩
    · exact absurd ((bounded c).2 x (mem_of_getElem? there)) (Nat.not_le_of_gt late)
    · obtain ⟨_,same⟩ := Option.ite_none_right_eq_some.mp here
      cases same
      exact .inl mem

/-- When a call returns true, each of its targets has begun a service and ended its flush since the call
    raised the generation. -/
theorem completed_call_flushed_every_target {before after : List (ShootdownAction ι)} {spins left : Nat}
    {addressed : Bool} (run : Run Step new (before ++ .sendAndWait targets spins addressed :: after) w)
    (one : ∀ targets spins addressed, .sendAndWait targets spins addressed ∉ after)
    (completed : w.polling = some ([], left)) : ∀ c ∈ targets, Flushed after c := by
  intro c mem
  obtain ⟨u,early,late⟩ := run.split
  obtain ⟨v,call,rest⟩ := Disciplined.split
    (show Disciplined _ Step u ([.sendAndWait targets spins addressed] ++ after) w from late)
  have bounded : u.barrier.Bounded := early.invariant (fun _ u => u.barrier.Bounded)
    (fun _ _ _ _ kept _ step => bounded_step kept step) fun _ => ⟨Nat.le_refl _,by simp [new]⟩
  have sound : w.Sound targets after := by
    refine rest.invariant (fun as w => as <+: after → w.Sound targets as) ?_ ?_ prefix_rfl
    · intro as w a v kept _ step inside
      refine (kept ((prefix_append as [a]).trans inside)).step ?_ step
      rintro targets spins addressed rfl
      exact one targets spins addressed (inside.subset (by simp))
    · exact fun _ => sound_start (ne_nil_of_mem mem) bounded call.single
  exact (sound.polled _ completed c (sound.called.symm ▸ mem)).resolve_left not_mem_nil

theorem served_call_flushed_its_target : ∃ w : Shootdown Bool, Run Step new ([.load true] ++ .sendAndWait [true] 0 true ::
      [.flush true, .load true, .flush true, .acknowledge true, .poll]) w ∧ w.polling = some ([], 0) ∧
      ∀ c ∈ [true], Flushed [.flush true, .load true, .flush true, .acknowledge true, .poll] c :=
  Disciplined.reaches_also (by decide +kernel) fun _ run => completed_call_flushed_every_target run (by simp)

end Shootdown
end Tessera
