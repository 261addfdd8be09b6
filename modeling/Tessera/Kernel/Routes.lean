import Tessera.Device.DeviceNodes
import Tessera.Ipc.PortBindings
import Tessera.Kernel.Kernel

/-!
What ending the interrupt routes of a device does. The routes of the device go, each
together with one binding of the port it names; no other node, no channel, no process
and no lease is touched.
-/
namespace Tessera
open DeviceGraph
variable {cfg : Config} {σ : Type}

namespace DeviceGraph

variable {g g' : DeviceGraph cfg} {id : ObjectId}

theorem routesOf_setState (present : g.contains id = true) (s : NodeState cfg) :
    (g.setState id s).routesOf id = s.irqRoutes.live := by
  have still : (g.setState id s).contains id = true := present
  rw [routesOf, if_pos still, setState]
  simp

theorem endIrqRoute_some {route : IrqRoute} (ended : g.endIrqRoute id = (some route, g')) :
    (g.routesOf id).Perm (route :: g'.routesOf id) ∧ g'.table = g.table ∧
      (∀ other, other ≠ id → g'.state other = g.state other) ∧
      ∃ irqRoutes, g'.state id = { g.state id with irqRoutes } := by
  unfold endIrqRoute at ended
  split at ended
  · cases ended
  rename_i present
  have there : g.contains id = true := by simpa using present
  split at ended
  · cases ended
  rw [Prod.mk.injEq] at ended
  obtain ⟨here,rfl⟩ := ended
  refine ⟨?_,rfl,fun _ apart => Function.update_of_ne apart _ _,_,Function.update_self ..⟩
  rw [routesOf_setState there, routesOf, if_pos there]
  exact Slots.live_clear_perm here

theorem endIrqRoute_none (ended : g.endIrqRoute id = (none, g')) : g.routesOf id = [] := by
  unfold endIrqRoute at ended
  split at ended
  · rename_i absent
    rw [routesOf, if_neg (by simpa using absent)]
  rename_i present
  split at ended
  · rename_i nothing
    rw [routesOf, if_pos (by simpa using present), List.eq_nil_iff_forall_not_mem]
    intro r mem
    obtain ⟨i,here⟩ := Slots.mem_live.mp mem
    exact absurd (Slots.index?_eq_none.mp nothing i r here) (by decide)
  rename_i found
  obtain ⟨_,here,_⟩ := Slots.index?_eq_some found
  rw [here] at ended
  cases ended

theorem routesOf_length (g : DeviceGraph cfg) (id : ObjectId) : (g.routesOf id).length ≤ 1 + cfg.maxExtraIrqs := by
  unfold routesOf
  split
  · exact (List.length_filterMap_le _ _).trans (g.state id).irqRoutes.size.le
  · exact Nat.zero_le _

end DeviceGraph

def IrqRoute.names (port : PortId) (intid : Nat) (r : IrqRoute) : Bool := r.port = port ∧ r.intid = intid

namespace Kernel

theorem bindingsAt_unbindPort (k : Kernel cfg σ) (port : PortId) (src signal : Nat) (q : PortId) (s g : Nat) :
    (k.unbindPort port src signal).exec.bindingsAt q s g =
      k.exec.bindingsAt q s g - if q = port ∧ (src, signal) = (s, g) then 1 else 0 := by
  unfold unbindPort
  split
  · rename_i missing
    by_cases same : q = port
    · have none : k.exec.bindingsAt q s g = 0 := by
        rw [Executive.bindingsAt, same, missing]
        rfl
      rw [none, Nat.zero_sub]
    · rw [if_neg (fun both => same both.1)]
      rfl
  · rename_i p here
    rw [Executive.bindingsAt_setPort here]
    by_cases same : q = port
    · subst same
      rw [Port.unbind_bindingsFor]
      have now : k.exec.bindingsAt q s g = p.bindingsFor s g := by
        rw [Executive.bindingsAt, here]
        rfl
      simp [now]
    · rw [if_neg same, if_neg (fun both => same both.1)]
      rfl

theorem unbindPort_rest (k : Kernel cfg σ) (port : PortId) (src signal : Nat) :
    ∃ ports, k.unbindPort port src signal = { k with exec := { k.exec with ports } } := by
  unfold unbindPort
  split <;> exact ⟨_,rfl⟩

structure RoutesEnded (device : ObjectId) (k k' : Kernel cfg σ) : Prop where
  rest : ∃ ports state, k' = { k with exec := { k.exec with ports }, devices := { k.devices with state } }
  others : ∀ other, other ≠ device → k'.devices.state other = k.devices.state other
  own : ∃ irqRoutes, k'.devices.state device = { k.devices.state device with irqRoutes }
  ended : k'.devices.routesOf device = []
  bindings : ∀ port source signal, k'.exec.bindingsAt port source signal =
    k.exec.bindingsAt port source signal -
      if signal = irqPortSignal then (k.devices.routesOf device).countP (IrqRoute.names port source) else 0

theorem endRoutes_ended (dev : ObjectId) (turns : Nat) (k : Kernel cfg σ)
    (enough : (k.devices.routesOf dev).length ≤ turns) : RoutesEnded dev k (endRoutes dev turns k).2 := by
  have still {k : Kernel cfg σ} (none : k.devices.routesOf dev = []) : RoutesEnded dev k k :=
    ⟨⟨_,_,rfl⟩,fun _ _ => rfl,⟨_,rfl⟩,none,fun _ _ _ => by simp [none]⟩
  induction turns generalizing k with
  | zero => exact still (List.eq_nil_of_length_eq_zero (Nat.le_zero.mp enough))
  | succ turns ih =>
    unfold endRoutes
    split
    · rename_i nothing
      exact still (endIrqRoute_none nothing)
    rename_i route devices taken
    obtain ⟨perm,table,others,_,own⟩ := endIrqRoute_some taken
    obtain ⟨_,unbound⟩ := unbindPort_rest { k with devices } route.port route.intid irqPortSignal
    have kept : ({ k with devices }.unbindPort route.port route.intid irqPortSignal).devices = devices := by
      rw [unbound]
    have fewer : (devices.routesOf dev).length ≤ turns := by
      have whole := perm.length_eq
      rw [List.length_cons] at whole
      omega
    have after := ih _ (kept.symm ▸ fewer)
    refine ⟨?_,?_,?_,after.ended,?_⟩
    · obtain ⟨ports',state,last⟩ := after.rest
      refine ⟨ports',state,?_⟩
      rw [last, unbound]
      simp [table]
    · intro other apart
      rw [after.others other apart, kept, others other apart]
    · obtain ⟨last,same⟩ := after.own
      rw [kept, own] at same
      exact ⟨last,same⟩
    · intro port src signal
      rw [after.bindings, kept, bindingsAt_unbindPort, perm.countP_eq, List.countP_cons]
      by_cases line : signal = irqPortSignal
      · subst line
        simp only [if_true, Prod.mk.injEq, and_true, IrqRoute.names, decide_eq_true_eq]
        have turned : (port = route.port ∧ route.intid = src) ↔ (route.port = port ∧ route.intid = src) := by
          rw [eq_comm]
        simp only [turned]
        omega
      rw [if_neg line, if_neg line, if_neg, Nat.sub_zero]
      intro both
      exact line (Prod.mk.inj both.2).2.symm

theorem endOneIrqRoute_ended (k : Kernel cfg σ) (dev : ObjectId) : RoutesEnded dev k (k.endOneIrqRoute dev).2 :=
  endRoutes_ended dev _ k (k.devices.routesOf_length dev)

variable {dev : ObjectId} {k k' : Kernel cfg σ}

theorem RoutesEnded.table (e : RoutesEnded dev k k') : k'.devices.table = k.devices.table := by
  obtain ⟨_,_,same⟩ := e.rest
  rw [same]

theorem RoutesEnded.objects (e : RoutesEnded dev k k') : k'.devices.objects = k.devices.objects := by
  rw [DeviceGraph.objects, e.table, DeviceGraph.objects]

theorem RoutesEnded.routesOf {other : ObjectId} (e : RoutesEnded dev k k') (apart : other ≠ dev) :
    k'.devices.routesOf other = k.devices.routesOf other :=
  routesOf_of_objects e.objects (e.others other apart)

end Kernel
end Tessera
