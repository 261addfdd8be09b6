import Tessera.Kernel.Routes

/-!
What the removal of one device does to each table: its lease and its routes end, one
handle and perhaps the windows go from every process, and the node leaves the graph.
Every other node stays, except that a child of the removed one loses its parent.
-/
namespace Tessera
open DeviceGraph Executive
variable {cfg : Config} {σ : Type}

structure DeviceGraph.NodesKept (id : ObjectId) (g g' : DeviceGraph cfg) : Prop where
  objects : g'.objects = g.objects
  nodes : ∀ other, other ≠ id → g'.table.find other = g.table.find other
  declared : g'.table.nextDeclared = g.table.nextDeclared
  state : ∀ other, other ≠ id → g'.state other = g.state other

namespace DeviceGraph.NodesKept

theorem refl (id : ObjectId) (g : DeviceGraph cfg) : NodesKept id g g :=
  ⟨rfl,fun _ _ => rfl,rfl,fun _ _ => rfl⟩

theorem trans {id : ObjectId} {g h i : DeviceGraph cfg} (first : NodesKept id g h) (second : NodesKept id h i) :
    NodesKept id g i :=
  ⟨second.objects.trans first.objects,fun other apart => (second.nodes other apart).trans (first.nodes other apart),
    second.declared.trans first.declared,fun other apart => (second.state other apart).trans (first.state other apart)⟩

end DeviceGraph.NodesKept

namespace Kernel

theorem endOneLease_rest (k : Kernel cfg σ) (dev : ObjectId) : ∃ memory, (k.endOneLease dev).2 =
      { (k.endTranslations dev).setTable (k.devices.table.endLease dev).2 with memory } := by
  unfold endOneLease
  split
  · rename_i ended
    rw [ended]
    exact ⟨_,rfl⟩
  rename_i ended
  rw [ended]
  exact ⟨_,rfl⟩

theorem find_endLease (t : DeviceTable cfg) (id y : ObjectId) : (t.endLease id).2.find y =
      if y = id then (t.find y).map fun n => { n with leaseHolder := none, leaseExpiresAt := none, aperture := none }
      else t.find y :=
  t.find_update id y (f := fun n => { n with leaseHolder := none, leaseExpiresAt := none, aperture := none })
    fun _ => rfl

theorem objects_endLease (t : DeviceTable cfg) (id : ObjectId) :
    (t.endLease id).2.nodes.live.map (·.object) = t.nodes.live.map (·.object) :=
  t.objects_update id (f := fun n => { n with leaseHolder := none, leaseExpiresAt := none, aperture := none })
    fun _ => rfl

theorem endOneLease_nodes (k : Kernel cfg σ) (dev : ObjectId) :
    DeviceGraph.NodesKept dev k.devices (k.endOneLease dev).2.devices ∧
      (k.endOneLease dev).2.devices.state = k.devices.state := by
  obtain ⟨_,same⟩ := k.endOneLease_rest dev
  rw [same]
  refine ⟨⟨objects_endLease _ _,fun _ apart => ?_,rfl,fun _ _ => rfl⟩,rfl⟩
  exact (find_endLease _ _ _).trans (if_neg apart)

structure LeaseRemoved (device : ObjectId) (k k' : Kernel cfg σ) : Prop where
  rest : k'.exec = k.exec ∧ k'.processes = k.processes ∧ k'.alloc = k.alloc ∧ k'.devices.state = k.devices.state
  nodes : DeviceGraph.NodesKept device k.devices k'.devices
  unit : k'.iommu = if (k.devices.table.leaseHolderOfObject device).isSome then (k.endTranslations device).iommu else k.iommu

section
variable (k : Kernel cfg σ)

theorem removeLease_removed (dev : ObjectId) : LeaseRemoved dev k (k.removeLease dev) := by
  unfold removeLease
  split
  · rename_i none
    exact ⟨⟨rfl,rfl,rfl,rfl⟩,.refl _ _,by simp [none]⟩
  rename_i held
  obtain ⟨nodes,state⟩ := k.endOneLease_nodes dev
  obtain ⟨_,same⟩ := k.endOneLease_rest dev
  refine ⟨⟨?_,?_,?_,state⟩,nodes,?_⟩
  · rw [same]
    rfl
  · rw [same]
    rfl
  · rw [same]
    rfl
  · rw [same, held]
    rfl

theorem bindPort_rest (port : PortId) (src signal : Nat) :
    ∃ ports, (k.bindPort port src signal).2 = { k with exec := { k.exec with ports } } := by
  unfold bindPort
  split <;> exact ⟨_,rfl⟩

theorem bindingsAt_bindPort_other (port : PortId) (src : Nat) {signal g : Nat}
    (other : signal ≠ g) (q : PortId) (s : Nat) :
    (k.bindPort port src signal).2.exec.bindingsAt q s g = k.exec.bindingsAt q s g := by
  unfold bindPort
  split
  · rfl
  rename_i p here
  rw [bindingsAt_setPort here]
  split
  · rename_i same
    rw [same, bindingsAt, here]
    cases bound : p.bind src signal with
    | mk result =>
      cases result with
      | error =>
        rw [Port.bind_error bound]
        rfl
      | ok =>
        rw [(Port.bind_ok bound).2, if_neg (fun both => other (Prod.mk.inj both).2)]
        rfl
  · rfl

theorem wakeRemoved_rest (cpu : Fin cfg.maxCpus) (route : IrqRoute) :
    (∃ exec, k.wakeRemoved cpu route = { k with exec }) ∧
      ∀ port src, (k.wakeRemoved cpu route).exec.bindingsAt port src irqPortSignal =
        k.exec.bindingsAt port src irqPortSignal := by
  have signals : irqPortSignalRemoved ≠ irqPortSignal := by decide
  have bound := k.bindingsAt_bindPort_other route.port route.intid signals
  obtain ⟨_,rest⟩ := k.bindPort_rest route.port route.intid irqPortSignalRemoved
  unfold wakeRemoved
  split
  · exact ⟨⟨_,rfl⟩,fun _ _ => rfl⟩
  rename_i k' done
  rw [done] at bound rest
  refine ⟨⟨_,by rw [show k' = _ from rest]⟩,fun port src => ?_⟩
  exact (sameBindings_portSignal _ _ _ _ _ _ _ _).trans (bound port src)

end

structure RoutesRemoved (device : ObjectId) (k k' : Kernel cfg σ) : Prop where
  rest : k'.processes = k.processes ∧ k'.alloc = k.alloc ∧ k'.iommu = k.iommu ∧ k'.devices.table = k.devices.table
  others : ∀ other, other ≠ device → k'.devices.state other = k.devices.state other
  ended : k'.devices.routesOf device = []
  bindings : ∀ port source, k'.exec.bindingsAt port source irqPortSignal =
    k.exec.bindingsAt port source irqPortSignal - (k.devices.routesOf device).countP (IrqRoute.names port source)

theorem removeRoutes_removed (k : Kernel cfg σ) (cpu : Fin cfg.maxCpus) (dev : ObjectId) :
    RoutesRemoved dev k (k.removeRoutes cpu dev) := by
  unfold removeRoutes
  split
  · rename_i none
    have empty : k.devices.routesOf dev = [] := by
      simpa [irqRouteOfObject] using none
    exact ⟨⟨rfl,rfl,rfl,rfl⟩,fun _ _ => rfl,empty,fun _ _ => by simp [empty]⟩
  rename_i route first
  have ends : (k.endDeviceIrqRoute route.holder dev).2 = (k.endOneIrqRoute dev).2 := by
    rw [endDeviceIrqRoute, first, Option.map_some, if_pos rfl]
  rw [ends]
  have ended := k.endOneIrqRoute_ended dev
  obtain ⟨⟨_,woken⟩,bindings⟩ := (k.endOneIrqRoute dev).2.wakeRemoved_rest cpu route
  obtain ⟨_,_,rest⟩ := ended.rest
  refine ⟨?_,fun other apart => ?_,?_,fun _ _ => ?_⟩
  · rw [woken, rest]
    exact ⟨rfl,rfl,rfl,rfl⟩
  · rw [woken]
    exact ended.others other apart
  · rw [woken]
    exact ended.ended
  · rw [bindings, ended.bindings, if_pos rfl]

theorem notifyDependents_rest (k : Kernel cfg σ) (cpu : Fin cfg.maxCpus) (notice : ObjectId → Message cfg)
    (dev : ObjectId) : (∃ exec, k.notifyDependents cpu notice dev = { k with exec }) ∧
      k.exec.SameBindings (k.notifyDependents cpu notice dev).exec := by
  refine ⟨⟨_,rfl⟩,?_⟩
  unfold notifyDependents
  generalize k.exec = exec
  induction k.devices.dependentsOf dev generalizing exec with
  | nil => exact sameBindings_of_ports rfl
  | cons endpoint rest ih => exact (exec.sameBindings_send cpu endpoint _).trans (ih _)

structure DeviceRemoved (device : ObjectId) (k k' : Kernel cfg σ) : Prop where
  processes : k'.processes = k.processes.mapLive (surrender device)
  unit : k'.iommu = if (k.devices.table.leaseHolderOfObject device).isSome then (k.endTranslations device).iommu else k.iommu
  alloc : k'.alloc = k.alloc
  graph : ∃ g, DeviceGraph.NodesKept device k.devices g ∧ g.routesOf device = [] ∧ k'.devices = (g.remove device).2
  bindings : ∀ port source, k'.exec.bindingsAt port source irqPortSignal =
    k.exec.bindingsAt port source irqPortSignal - (k.devices.routesOf device).countP (IrqRoute.names port source)

theorem removeOneDevice_removed (k : Kernel cfg σ) (cpu : Fin cfg.maxCpus) (notice : ObjectId → Message cfg)
    (dev : ObjectId) : (k.removeOneDevice cpu notice dev).1 = k.devices.contains dev ∧
      DeviceRemoved dev k (k.removeOneDevice cpu notice dev).2 := by
  unfold removeOneDevice
  have lease := k.removeLease_removed dev
  generalize k.removeLease dev = k₁ at lease ⊢
  have routes := k₁.removeRoutes_removed cpu dev
  generalize k₁.removeRoutes cpu dev = k₂ at routes ⊢
  obtain ⟨⟨_,told⟩,same⟩ := notifyDependents_rest
    ({ k₂.forgetAttachmentsTo dev with
      processes := (k₂.forgetAttachmentsTo dev).processes.mapLive (surrender dev) }) cpu notice dev
  dsimp only at told same ⊢
  rw [told] at same ⊢
  have forgotten : (k₂.forgetAttachmentsTo dev).devices = k₂.devices ∧
      (k₂.forgetAttachmentsTo dev).exec = k₂.exec := ⟨rfl,rfl⟩
  have kept : DeviceGraph.NodesKept dev k.devices k₂.devices := by
    refine lease.nodes.trans ⟨?_,fun _ _ => ?_,?_,routes.others⟩
    · rw [objects, routes.rest.2.2.2, objects]
    · rw [routes.rest.2.2.2]
    · rw [routes.rest.2.2.2]
  constructor
  · rw [forgotten.1, ← contains_of_objects kept.objects dev]
    cases present : k₂.devices.contains dev with
    | false => rw [remove_missing present]
    | true => rw [remove_present present]
  · refine ⟨?_,?_,?_,⟨k₂.devices,kept,routes.ended,rfl⟩,fun port src => ?_⟩
    · show (k₂.processes.mapLive (surrender dev)) = _
      rw [routes.rest.1, lease.rest.2.1]
    · show k₂.iommu = _
      rw [routes.rest.2.2.1, lease.unit]
    · show k₂.alloc = _
      rw [routes.rest.2.1, lease.rest.2.2.1]
    · rw [same port src irqPortSignal, forgotten.2, routes.bindings, lease.rest.1,
        routesOf_of_objects lease.nodes.objects (congrFun lease.rest.2.2.2 dev)]

end Kernel
end Tessera
