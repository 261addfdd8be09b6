import Mathlib.Logic.Function.Basic

/-!
A barrier made of one shared counter. A requester raises the counter and waits; a
party that serves a request reads the counter, acts, and publishes the number it
had read, in this order. One service may answer many requests and services may
interrupt one another. A party that has published a number at least as high as a
requester's own has acted since that requester raised the counter.
-/
namespace GenerationBarrier
open Function List
variable {ι : Type} [DecidableEq ι]

structure Service where
  generation : Nat
  acted : Bool
  deriving DecidableEq

structure Party where
  acked : Nat
  services : List Service

structure State (ι : Type) where
  requested : Nat
  party : ι → Party

namespace State

section
variable (s : State ι) (i : ι)

def request : State ι := { s with requested := s.requested + 1 }

def setParty (p : Party) : State ι := { s with party := update s.party i p }

def load : State ι :=
  s.setParty i ⟨(s.party i).acked, ⟨s.requested, false⟩ :: (s.party i).services⟩

def act : Option (State ι) :=
  match (s.party i).services with
  | ⟨g, false⟩ :: rest => some (s.setParty i ⟨(s.party i).acked, ⟨g, true⟩ :: rest⟩)
  | _ => none

def publish : Option (State ι) :=
  match (s.party i).services with
  | ⟨g, true⟩ :: rest => some (s.setParty i ⟨g, rest⟩)
  | _ => none

def Bounded : Prop :=
  ∀ i, (s.party i).acked ≤ s.requested ∧ ∀ x ∈ (s.party i).services, x.generation ≤ s.requested

def Answered (P : ι → Prop) (generation : Nat) (s : State ι) : Prop :=
  ∀ i, (generation ≤ (s.party i).acked → P i) ∧
    ∀ x ∈ (s.party i).services, x.acted = true → generation ≤ x.generation → P i

end

variable {s t : State ι} {P : ι → Prop} {generation : Nat} {i : ι}

section
omit [DecidableEq ι]

theorem Bounded.request (bounded : s.Bounded) : s.request.Bounded := by
  intro i
  refine ⟨Nat.le_succ_of_le (bounded i).1,fun x mem => Nat.le_succ_of_le ((bounded i).2 x mem)⟩

theorem Bounded.answered (bounded : s.Bounded) (P : ι → Prop) : Answered P (s.requested + 1) s.request := by
  intro i
  obtain ⟨acked,services⟩ := bounded i
  constructor
  · intro early
    have : s.requested + 1 ≤ s.requested := Nat.le_trans early acked
    omega
  · intro x mem _ _
    have := services x mem
    omega

theorem Answered.mono {Q : ι → Prop} (answered : Answered P generation s) (weaker : ∀ i, P i → Q i) :
    Answered Q generation s := by
  intro i
  refine ⟨fun h => weaker i ((answered i).1 h),fun x mem acted h => weaker i ((answered i).2 x mem acted h)⟩

end

theorem Bounded.setParty {p : Party} (bounded : s.Bounded) (acked : p.acked ≤ s.requested)
    (services : ∀ x ∈ p.services, x.generation ≤ s.requested) : (s.setParty i p).Bounded := by
  intro j
  by_cases same : j = i
  · subst same
    simp only [State.setParty, update_self]
    exact ⟨acked,services⟩
  · simp only [State.setParty, update_of_ne same]
    exact bounded j

theorem Answered.setParty {p : Party} (answered : Answered P generation s) (acked : generation ≤ p.acked → P i)
    (services : ∀ x ∈ p.services, x.acted = true → generation ≤ x.generation → P i) :
    Answered P generation (s.setParty i p) := by
  intro j
  by_cases same : j = i
  · subst same
    simp only [State.setParty, update_self]
    exact ⟨acked,services⟩
  · simp only [State.setParty, update_of_ne same]
    exact answered j

theorem Bounded.load (bounded : s.Bounded) (i : ι) : (s.load i).Bounded :=
  bounded.setParty (bounded i).1 (forall_mem_cons.mpr ⟨Nat.le_refl _,(bounded i).2⟩)

theorem act_eq_some (h : s.act i = some t) : ∃ g rest, (s.party i).services = ⟨g, false⟩ :: rest ∧
      t = s.setParty i ⟨(s.party i).acked, ⟨g, true⟩ :: rest⟩ := by
  unfold act at h
  split at h
  · rename_i g rest services
    cases h
    exact ⟨g,rest,services,rfl⟩
  · cases h

theorem publish_eq_some (h : s.publish i = some t) :
    ∃ g rest, (s.party i).services = ⟨g, true⟩ :: rest ∧ t = s.setParty i ⟨g, rest⟩ := by
  unfold publish at h
  split at h
  · rename_i g rest services
    cases h
    exact ⟨g,rest,services,rfl⟩
  · cases h

theorem Bounded.act (bounded : s.Bounded) (h : s.act i = some t) : t.Bounded := by
  obtain ⟨_,_,services,rfl⟩ := act_eq_some h
  obtain ⟨first,others⟩ := forall_mem_cons.mp (services ▸ (bounded i).2)
  exact bounded.setParty (bounded i).1 (forall_mem_cons.mpr ⟨first,others⟩)

theorem Bounded.publish (bounded : s.Bounded) (h : s.publish i = some t) : t.Bounded := by
  obtain ⟨_,_,services,rfl⟩ := publish_eq_some h
  obtain ⟨first,others⟩ := forall_mem_cons.mp (services ▸ (bounded i).2)
  exact bounded.setParty first others

section
variable (answered : Answered P generation s)
include answered

theorem Answered.load (i : ι) : Answered P generation (s.load i) :=
  answered.setParty (answered i).1 (forall_mem_cons.mpr ⟨nofun,(answered i).2⟩)

theorem Answered.act (h : s.act i = some t)
    (now : ∀ x ∈ (s.party i).services.head?, generation ≤ x.generation → P i) : Answered P generation t := by
  obtain ⟨g,_,services,rfl⟩ := act_eq_some h
  rw [services] at now
  have others := (forall_mem_cons.mp (services ▸ (answered i).2)).2
  exact answered.setParty (answered i).1 (forall_mem_cons.mpr ⟨fun _ => now ⟨g, false⟩ rfl,others⟩)

theorem Answered.publish (h : s.publish i = some t) : Answered P generation t := by
  obtain ⟨_,_,services,rfl⟩ := publish_eq_some h
  obtain ⟨first,others⟩ := forall_mem_cons.mp (services ▸ (answered i).2)
  exact answered.setParty (first rfl) others

end

end State
end GenerationBarrier
