import Tessera.Exec.Executive

/-!
How many bindings a port has for a source and signal. Binding adds one where there
was none, unbinding takes one away, and everything else the executive does to a port
only moves counters and sleepers.
-/
namespace Tessera
open Slots List
variable {cfg : Config} {M : Type}

namespace Port

def bindingsFor (p : Port cfg) (source signal : Nat) : Nat :=
  (p.bindings.live.map fun b => (b.source, b.signal)).count (source, signal)

variable {p p' : Port cfg} {source signal : Nat}

theorem bindingsFor_eq_zero : p.bindingsFor source signal = 0 ↔
      p.bindings.find? (fun b => b.source = source ∧ b.signal = signal) = none := by
  rw [bindingsFor, count_eq_zero, mem_map, Slots.find?_eq_none]
  simp only [mem_live, Prod.mk.injEq, decide_eq_false_iff_not]
  constructor
  · rintro none i b here matching
    exact none ⟨b,⟨i,here⟩,matching⟩
  · rintro none ⟨b,⟨i,here⟩,matching⟩
    exact none i b here matching

theorem bind_ok (done : p.bind source signal = (.ok (), p')) : p.bindingsFor source signal = 0 ∧ ∀ s g,
      p'.bindingsFor s g = p.bindingsFor s g + if (source, signal) = (s, g) then 1 else 0 := by
  unfold bind at done
  split at done
  · cases done
  rename_i unbound
  split at done
  · cases done
  rename_i free
  cases done
  obtain ⟨inside,empty⟩ := free?_eq_some free
  refine ⟨bindingsFor_eq_zero.mpr unbound,fun s g => ?_⟩
  have perm := (live_put_perm (a := (⟨source, signal, 0, false⟩ : Binding)) inside empty).map
    fun b => (b.source, b.signal)
  rw [bindingsFor, perm.count_eq, map_cons, count_cons, bindingsFor]
  simp

theorem bind_error (refused : p.bind source signal = (.error e, p')) : p' = p := by
  unfold bind at refused
  split at refused
  · cases refused
    rfl
  · split at refused <;> cases refused
    rfl

theorem bind_eq_ok (unbound : p.bindingsFor source signal = 0) (room : p.bindings.free?.isSome = true) :
    ∃ p', p.bind source signal = (.ok (), p') := by
  obtain ⟨_,free⟩ := Option.isSome_iff_exists.mp room
  unfold bind
  rw [bindingsFor_eq_zero.mp unbound, free]
  exact ⟨_,rfl⟩

theorem unbind_bindingsFor (p : Port cfg) (source signal s g : Nat) : (p.unbind source signal).2.bindingsFor s g =
      p.bindingsFor s g - if (source, signal) = (s, g) then 1 else 0 := by
  unfold unbind
  split
  · rename_i slot found
    obtain ⟨b,here,matching⟩ := index?_eq_some found
    have perm := (live_clear_perm here).map fun b => (b.source, b.signal)
    have named : (b.source, b.signal) = (source, signal) := by simpa using matching
    have count : p.bindingsFor s g =
        ({ p with bindings := p.bindings.clear slot } : Port cfg).bindingsFor s g +
          if (source, signal) = (s, g) then 1 else 0 := by
      rw [bindingsFor, perm.count_eq, map_cons, count_cons, bindingsFor]
      simp [named]
    rw [count, Nat.add_sub_cancel]
  · rename_i missing
    split
    · rename_i same
      cases same
      have none := bindingsFor_eq_zero.mpr (Slots.find?_eq_none.mpr (index?_eq_none.mp missing))
      simp [none]
    · rfl

theorem deliver_bindingsFor (p : Port cfg) (source signal edges s g : Nat) :
    (p.deliver source signal edges).2.bindingsFor s g = p.bindingsFor s g := by
  unfold deliver
  split
  · rfl
  unfold bindingsFor
  rw [live_modify_map]
  intro _
  rfl

end Port

namespace Executive

def bindingsAt (x : Executive M cfg) (port : PortId) (source signal : Nat) : Nat :=
  ((x.ports.ports.cell port.index).map (·.bindingsFor source signal)).getD 0

def SameBindings (x y : Executive M cfg) : Prop :=
  ∀ port source signal, y.bindingsAt port source signal = x.bindingsAt port source signal

variable {x y : Executive M cfg}

theorem SameBindings.trans (first : x.SameBindings y) (second : y.SameBindings z) : x.SameBindings z :=
  fun port source signal => (second port source signal).trans (first port source signal)

theorem sameBindings_of_ports (same : y.ports = x.ports) : x.SameBindings y := by
  intro _ _ _
  rw [bindingsAt, same, bindingsAt]

theorem bindingsAt_setPort (here : x.ports.ports.cell port.index = some p) (p' : Port cfg) (q : PortId) (s g : Nat) :
    (x.setPort port p').bindingsAt q s g = if q = port then p'.bindingsFor s g else x.bindingsAt q s g := by
  unfold bindingsAt setPort
  by_cases same : q = port
  · rw [if_pos same, same, cell_put_self _ (lt_of_cell here)]
    rfl
  have other : port.index ≠ q.index := by
    intro equal
    exact same (congrArg PortId.mk equal.symm)
  rw [if_neg same, Slots.put, cell_assign_ne _ other]

theorem wakeIfAny_ports (x : Executive M cfg) (cpu : Fin cfg.maxCpus) (id : Option ThreadId) :
    (x.wakeIfAny cpu id).ports = x.ports := by
  cases id with
  | none => rfl
  | some id =>
    have posted (other : Fin cfg.maxCpus) (slot : Nat) : (x.post other slot id).ports = x.ports := by
      unfold post
      split <;> rfl
    rw [wakeIfAny, wakeThread]
    split
    · rfl
    · exact posted _ _
    · rfl

theorem sameBindings_signalPort (x : Executive M cfg) (cpu : Fin cfg.maxCpus) (source signal edges index : Nat) :
    x.SameBindings (x.signalPort cpu source signal edges index).2 := by
  unfold signalPort
  split
  · exact sameBindings_of_ports rfl
  rename_i p here
  split
  · exact sameBindings_of_ports rfl
  rename_i delivered done
  intro port s g
  have woken : (((x.setPort ⟨index⟩ delivered.takeBlockedDrainer.2).wakeIfAny cpu
      delivered.takeBlockedDrainer.1).bindingsAt port s g) =
      (x.setPort ⟨index⟩ delivered.takeBlockedDrainer.2).bindingsAt port s g := by
    unfold bindingsAt
    rw [wakeIfAny_ports]
  refine woken.trans ?_
  rw [bindingsAt_setPort here]
  split
  · rename_i same
    have kept := p.deliver_bindingsFor source signal edges s g
    rw [done] at kept
    rw [same, bindingsAt, here]
    exact kept
  · rfl

theorem sameBindings_portSignal (x : Executive M cfg) (cpu : Fin cfg.maxCpus) (source signal edges : Nat) :
    x.SameBindings (x.portSignal cpu source signal edges).2 := by
  unfold portSignal
  generalize 0 = delivered
  induction List.range cfg.maxPorts generalizing x delivered with
  | nil => exact sameBindings_of_ports rfl
  | cons index rest ih => exact (x.sameBindings_signalPort cpu source signal edges index).trans (ih _ _)

theorem sameBindings_send [Stamped M] (x : Executive M cfg) (cpu : Fin cfg.maxCpus) (origin : EndpointId)
    (message : M) : x.SameBindings (x.send cpu origin message).2 := by
  unfold send
  split
  · exact sameBindings_of_ports rfl
  split
  · exact sameBindings_of_ports rfl
  rename_i destination _ _ filled _
  generalize x.channels.endpointObject origin.peer = obj
  have woken : x.SameBindings ((x.setEndpoint origin.peer (filled.setBlockedReceiver none)).wakeIfAny cpu
      destination.blockedReceiver) :=
    sameBindings_of_ports (wakeIfAny_ports _ cpu _)
  cases obj with
  | none => exact woken
  | some => exact woken.trans (sameBindings_portSignal _ cpu _ _ _)

end Executive
end Tessera
