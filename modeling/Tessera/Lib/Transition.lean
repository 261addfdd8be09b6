import Mathlib.Data.List.Induction

/-!
Runs of a labelled transition relation. A run carries the list of its actions,
oldest first, so that a property may speak of what has happened as well as of
the state reached. A disciplined run takes only actions that a condition on the
history and on the state before them allows. Nothing here knows what the
states are.
-/
namespace Transition
variable {S A : Type}

inductive Disciplined (allowed : List A → S → A → Prop) (step : S → A → S → Prop) (s : S) :
    List A → S → Prop where
  | start : Disciplined allowed step s [] s
  | more {as : List A} {a : A} {t u : S} : Disciplined allowed step s as t →
      allowed as t a → step t a u → Disciplined allowed step s (as ++ [a]) u

def Run (step : S → A → S → Prop) : S → List A → S → Prop :=
  Disciplined (fun _ _ _ => True) step

variable {allowed strict : List A → S → A → Prop} {step : S → A → S → Prop} {s t u : S} {as before : List A}
  {a : A} {perform : S → A → Option S}

theorem Disciplined.invariant (keep : List A → S → Prop)
    (kept : ∀ as s a t, keep as s → allowed as s a → step s a t → keep (as ++ [a]) t) (start : keep [] s)
    (run : Disciplined allowed step s as t) : keep as t := by
  induction run with
  | start => exact start
  | more _ ok h ih => exact kept _ _ _ _ ih ok h

theorem Disciplined.mono (weaker : ∀ as s a, strict as s a → allowed as s a)
    (run : Disciplined strict step s as t) : Disciplined allowed step s as t := by
  induction run with
  | start => exact .start
  | more _ ok h ih => exact ih.more (weaker _ _ _ ok) h

theorem Disciplined.split {first second : List A} (run : Disciplined allowed step s (first ++ second) t) :
    ∃ u, Disciplined allowed step s first u ∧
      Disciplined (fun before => allowed (first ++ before)) step u second t := by
  induction second using List.reverseRecOn generalizing t with
  | nil => exact ⟨t,by simpa using run,.start⟩
  | append_singleton second a ih =>
    rw [← List.append_assoc] at run
    generalize whole : first ++ second ++ [a] = history at run
    cases run with
    | start => simp at whole
    | more before ok h =>
      obtain ⟨same,last⟩ := List.append_inj' whole rfl
      cases last
      subst same
      obtain ⟨u,front,rest⟩ := ih before
      exact ⟨u,front,rest.more ok h⟩

theorem Disciplined.single (run : Disciplined allowed step s [a] t) : step s a t := by
  generalize whole : [a] = history at run
  cases run with
  | start => cases whole
  | @more as b u _ before ok h =>
    obtain ⟨none,last⟩ := List.append_inj' (show [] ++ [a] = as ++ [b] from whole) rfl
    cases last
    subst none
    generalize empty : ([] : List A) = history at before
    cases before with
    | start => exact h
    | more => simp at empty

theorem eq_of_guard {p : Prop} [Decidable p] (h : (if p then some s else none) = some t) : s = t :=
  Option.some.inj (Option.ite_none_right_eq_some.mp h).2

theorem Run.start (s : S) : Run step s [] s :=
  Disciplined.start

theorem Run.more (run : Run step s as t) (h : step t a u) : Run step s (as ++ [a]) u :=
  Disciplined.more run trivial h

theorem Run.invariant (keep : S → Prop) (kept : ∀ s a t, keep s → step s a t → keep t) (start : keep s)
    (run : Run step s as t) : keep t :=
  Disciplined.invariant (fun _ => keep) (fun _ s a t h _ => kept s a t h) start run

/-- Performing a list of actions with a partial function, each one only if the
    discipline allows it there. It computes, so a given run can be checked. -/
def performAll (allowed : List A → S → A → Prop) [∀ h s a, Decidable (allowed h s a)]
    (perform : S → A → Option S) (before : List A) (s : S) : List A → Option S
  | [] => some s
  | a :: as =>
    if allowed before s a then
      (perform s a).bind fun t => performAll allowed perform (before ++ [a]) t as
    else none

theorem Disciplined.performAll_of [∀ h s a, Decidable (strict h s a)]
    (run : Disciplined allowed (fun s a t => perform s a = some t) s before t)
    (weaker : ∀ h s a, strict h s a → allowed h s a)
    (done : Transition.performAll strict perform before t as = some u) :
    Disciplined allowed (fun s a t => perform s a = some t) s (before ++ as) u := by
  induction as generalizing before t with
  | nil =>
    cases done
    simpa using run
  | cons a as ih =>
    unfold Transition.performAll at done
    split at done
    · rename_i ok
      obtain ⟨v,step,rest⟩ := Option.bind_eq_some_iff.mp done
      have onward := ih (run.more (weaker _ _ _ ok) step) rest
      simpa using onward
    · cases done

theorem Disciplined.performAll [∀ h s a, Decidable (allowed h s a)]
    (run : Disciplined allowed (fun s a t => perform s a = some t) s before t)
    (done : Transition.performAll allowed perform before t as = some u) :
    Disciplined allowed (fun s a t => perform s a = some t) s (before ++ as) u :=
  run.performAll_of (fun _ _ _ => id) done

section
variable [∀ h s a, Decidable (allowed h s a)] {holds also : S → Prop} [DecidablePred holds]
  (done : (Transition.performAll allowed perform [] s as).any (holds ·) = true)
include done

/-- A run that has been computed and checked at its end exists, and ends as checked. -/
theorem Disciplined.reaches : ∃ t, Disciplined allowed (fun s a t => perform s a = some t) s as t ∧ holds t := by
  obtain ⟨t,performed,checked⟩ := (Option.any_eq_true _ _).mp done
  exact ⟨t,Disciplined.start.performAll performed,of_decide_eq_true checked⟩

theorem Disciplined.reaches_also
    (derived : ∀ t, Disciplined allowed (fun s a t => perform s a = some t) s as t → holds t → also t) :
    ∃ t, Disciplined allowed (fun s a t => perform s a = some t) s as t ∧ holds t ∧ also t := by
  obtain ⟨t,run,checked⟩ := Disciplined.reaches done
  exact ⟨t,run,checked,derived t run checked⟩

end

theorem Disciplined.reaches_then [∀ h s a, Decidable (allowed h s a)] {also : S → Prop} (holds : S → Prop)
    [DecidablePred holds] (done : (Transition.performAll allowed perform [] s as).any (holds ·) = true)
    (derived : ∀ t, Disciplined allowed (fun s a t => perform s a = some t) s as t → holds t → also t) :
    ∃ t, Disciplined allowed (fun s a t => perform s a = some t) s as t ∧ also t := by
  obtain ⟨t,run,checked⟩ := Disciplined.reaches done
  exact ⟨t,run,derived t run checked⟩

instance decidableSome {α : Type} (o : Option α) (p : α → Prop) [DecidablePred p] : Decidable (∃ a, o = some a ∧ p a) :=
  decidable_of_iff (o.any (p ·) = true) (by simp [Option.any_eq_true])

end Transition
