import Tessera.Kernel.RemovalStep

/-!
Interrupt routes and the port bindings they make. The graph says where a line goes and
the port is what delivers, so the two have to agree. They do as long as a line is routed
to a port that can take it, once, and by the holder of the device's other routes. The
kernel checks none of this before it records a route.
-/
namespace Tessera
open DeviceGraph List Slots Bool IrqRoute
variable {cfg : Config} {σ : Type}

namespace DeviceGraph

def allRoutes (g : DeviceGraph cfg) : List IrqRoute := g.objects.flatMap g.routesOf

variable {g : DeviceGraph cfg} {id : ObjectId}

theorem mem_allRoutes : r ∈ g.allRoutes ↔ ∃ device, r ∈ g.routesOf device := by
  rw [allRoutes, mem_flatMap]
  constructor
  · rintro ⟨device,_,mem⟩
    exact ⟨device,mem⟩
  rintro ⟨device,mem⟩
  refine ⟨device,?_,mem⟩
  by_contra missing
  rw [← contains_iff, not_eq_true] at missing
  rw [routesOf, missing] at mem
  cases mem

theorem allRoutes_split (present : id ∈ g.objects) :
    g.allRoutes.Perm (g.routesOf id ++ (g.objects.erase id).flatMap g.routesOf) := by
  have perm := (perm_cons_erase present).flatMap_right g.routesOf
  rwa [flatMap_cons] at perm

theorem allRoutes_change {g' : DeviceGraph cfg} (distinct : g.Distinct) (objects : g'.objects = g.objects)
    (others : ∀ other, other ≠ id → g'.state other = g.state other) :
    (g.routesOf id ++ g'.allRoutes).Perm (g'.routesOf id ++ g.allRoutes) := by
  have same : ∀ other, other ≠ id → g'.routesOf other = g.routesOf other :=
    fun other apart => routesOf_of_objects objects (others other apart)
  by_cases present : id ∈ g.objects
  · have rest : (g'.objects.erase id).flatMap g'.routesOf = (g.objects.erase id).flatMap g.routesOf := by
      rw [objects]
      refine flatMap_congr fun other mem => same other ?_
      rintro rfl
      exact distinct.not_mem_erase mem
    have after := allRoutes_split (objects.symm ▸ present)
    rw [rest] at after
    refine (after.append_left _).trans (perm_append_comm_assoc _ _ _ |>.trans ?_)
    exact (allRoutes_split present).symm.append_left _
  · have none : g.routesOf id = [] ∧ g'.routesOf id = [] := by
      have absent : g.contains id = false := by rwa [← not_eq_true, contains_iff]
      constructor
      · rw [routesOf, absent]
        rfl
      · rw [routesOf, contains_of_objects objects, absent]
        rfl
    rw [none.1, none.2, allRoutes, objects]
    refine List.Perm.of_eq (flatMap_congr fun other mem => same other ?_)
    rintro rfl
    exact present mem

theorem routesOf_remove (distinct : g.Distinct) (id other : ObjectId) :
    (g.remove id).2.routesOf other = if other = id then [] else g.routesOf other := by
  rw [routesOf, contains_remove distinct]
  split
  · rename_i left
    simp only [decide_not, Bool.and_eq_true, Bool.not_eq_true', decide_eq_false_iff_not] at left
    rw [if_neg left.2, state_remove left.2, routesOf, if_pos left.1]
  rename_i gone
  split
  · rfl
  rename_i apart
  simp only [ne_eq, apart, not_false_eq_true, decide_true, Bool.and_true, Bool.not_eq_true] at gone
  rw [routesOf, gone]
  rfl

theorem allRoutes_remove (distinct : g.Distinct) (none : g.routesOf id = []) :
    g.allRoutes.Perm (g.remove id).2.allRoutes := by
  cases present : g.contains id with
  | false => rw [remove_missing present]
  | true =>
    have perm := objects_remove present
    have once := nodup_cons.mp (perm.nodup_iff.mp distinct)
    have whole := perm.flatMap_right g.routesOf
    rw [flatMap_cons, none, nil_append] at whole
    refine whole.trans (List.Perm.of_eq (flatMap_congr fun _ mem => ?_))
    rw [routesOf_remove distinct, if_neg]
    rintro rfl
    exact once.1 mem

end DeviceGraph

namespace Kernel

section
variable (k : Kernel cfg σ) (port : PortId)

def bindings (intid : Nat) : Nat := k.exec.bindingsAt port intid irqPortSignal

def Bound (intid : Nat) : Prop := 0 < k.bindings port intid

instance (k : Kernel cfg σ) (port : PortId) (intid : Nat) : Decidable (k.Bound port intid) := by
  unfold Bound
  infer_instance

def routeCount (intid : Nat) : Nat :=
  k.devices.allRoutes.countP (names port intid)

end

variable {k k' k₀ : Kernel cfg σ} {port : PortId} {intid : Nat} {device holder : ObjectId}
  {s : NodeState cfg}

theorem routeCount_pos :
    0 < k.routeCount port intid ↔ ∃ device, ∃ r ∈ k.devices.routesOf device, r.port = port ∧ r.intid = intid := by
  rw [routeCount, countP_pos_iff]
  simp only [mem_allRoutes, names, decide_eq_true_eq]
  constructor
  · rintro ⟨r,⟨device,mem⟩,named⟩
    exact ⟨device,r,mem,named⟩
  · rintro ⟨device,r,mem,named⟩
    exact ⟨r,⟨device,mem⟩,named⟩

structure Sheds (k k' : Kernel cfg σ) : Prop where
  distinct : k'.devices.Distinct
  fewer : ∀ device r, r ∈ k'.devices.routesOf device → r ∈ k.devices.routesOf device
  even : ∀ port intid, ∃ ended, k'.bindings port intid = k.bindings port intid - ended ∧
    k.routeCount port intid = k'.routeCount port intid + ended

theorem Sheds.refl (distinct : k.devices.Distinct) : Sheds k k :=
  ⟨distinct,fun _ _ mem => mem,fun _ _ => ⟨0,rfl,rfl⟩⟩

theorem Sheds.trans (first : Sheds a b) (second : Sheds b c) : Sheds a c := by
  refine ⟨second.distinct,fun device r mem => first.fewer device r (second.fewer device r mem),
    fun port intid => ?_⟩
  obtain ⟨early,_,_⟩ := first.even port intid
  obtain ⟨late,_,_⟩ := second.even port intid
  exact ⟨early + late,by omega,by omega⟩

theorem RoutesEnded.sheds (ended : RoutesEnded device k k') (distinct : k.devices.Distinct) : Sheds k k' := by
  have perm := allRoutes_change distinct ended.objects ended.others
  rw [ended.ended, nil_append] at perm
  refine ⟨?_,fun other _ mem => ?_,
    fun port intid => ⟨(k.devices.routesOf device).countP (names port intid),?_,?_⟩⟩
  · rw [DeviceGraph.Distinct, ended.objects]
    exact distinct
  · by_cases same : other = device
    · rw [same, ended.ended] at mem
      cases mem
    · rwa [ended.routesOf same] at mem
  · have fewer := ended.bindings port intid irqPortSignal
    rwa [if_pos rfl] at fewer
  · have count := perm.countP_eq (names port intid)
    rw [countP_append] at count
    rw [routeCount, routeCount]
    omega

theorem DeviceRemoved.sheds (removed : DeviceRemoved device k k') (distinct : k.devices.Distinct) : Sheds k k' := by
  obtain ⟨g,kept,none,last⟩ := removed.graph
  have distinct' : g.Distinct := by
    rw [DeviceGraph.Distinct, kept.objects]
    exact distinct
  have perm := allRoutes_change distinct kept.objects kept.state
  rw [none, nil_append] at perm
  refine ⟨last ▸ distinct'.remove device,fun other _ mem => ?_,
    fun port intid => ⟨(k.devices.routesOf device).countP (names port intid),?_,?_⟩⟩
  · rw [last, routesOf_remove distinct'] at mem
    split at mem
    · cases mem
    · rename_i apart
      rwa [routesOf_of_objects kept.objects (kept.state other apart)] at mem
  · exact removed.bindings port intid
  · have count := perm.countP_eq (names port intid)
    have gone := (allRoutes_remove distinct' none).countP_eq (names port intid)
    rw [countP_append] at count
    rw [routeCount, routeCount, last]
    omega

theorem removeDevices_sheds (cpu : Fin cfg.maxCpus) (notice : ObjectId → Message cfg) (device : ObjectId)
    (turns : Nat) (k : Kernel cfg σ) (distinct : k.devices.Distinct) :
    Sheds k (removeDevices cpu notice device turns k).2 := by
  induction turns generalizing k with
  | zero => exact .refl distinct
  | succ turns ih =>
    unfold removeDevices
    split
    · exact .refl distinct
    rename_i target _
    have step := (k.removeOneDevice_removed cpu notice target).2.sheds distinct
    split
    · rename_i done
      rw [done] at step
      exact step
    rename_i k' done
    rw [done] at step
    split
    · exact step
    · exact step.trans (ih k' step.distinct)

structure AllEnded (devices : List ObjectId) (k k' : Kernel cfg σ) : Prop where
  sheds : Sheds k k'
  routes : ∀ device, k'.devices.routesOf device = if device ∈ devices then [] else k.devices.routesOf device

theorem endAll_ended (devices : List ObjectId) (k : Kernel cfg σ) (distinct : k.devices.Distinct) :
    AllEnded devices k (devices.foldl (fun k device => (k.endOneIrqRoute device).2) k) := by
  induction devices generalizing k with
  | nil => exact ⟨.refl distinct,fun _ => by simp⟩
  | cons device rest ih =>
    have ended := k.endOneIrqRoute_ended device
    have first := ended.sheds distinct
    obtain ⟨sheds,routes⟩ := ih _ first.distinct
    refine ⟨first.trans sheds,fun other => ?_⟩
    rw [foldl_cons, routes]
    by_cases later : other ∈ rest
    · simp [later]
    by_cases same : other = device
    · simp [same, ended.ended]
    · simp [same, ended.routesOf same]

theorem endIrqRoutesOf_ended (k : Kernel cfg σ) (distinct : k.devices.Distinct) (holder : ObjectId) :
    AllEnded (k.devices.irqRoutesHeldBy holder) k (k.endIrqRoutesOf holder) :=
  endAll_ended _ k distinct

theorem endDeviceIrqRoute_ended (k : Kernel cfg σ) (distinct : k.devices.Distinct) (holder device : ObjectId) :
    AllEnded (if (k.devices.irqRouteOfObject device).map (·.holder) = some holder then [device] else []) k
      (k.endDeviceIrqRoute holder device).2 := by
  unfold endDeviceIrqRoute
  split
  · exact endAll_ended [device] k distinct
  · exact endAll_ended [] k distinct

inductive RouteAction (cfg : Config) where
  | route (device : ObjectId) (intid : Nat) (port : PortId) (holder : ObjectId)
  | endDevice (holder device : ObjectId)
  | endHolder (holder : ObjectId)
  | remove (cpu : Fin cfg.maxCpus) (notice : ObjectId → Message cfg) (device : ObjectId)

def actOnRoutes (k : Kernel cfg σ) : RouteAction cfg → Kernel cfg σ
  | .route device intid port holder => (k.deviceRouteIrqLine device intid port holder).2
  | .endDevice holder device => (k.endDeviceIrqRoute holder device).2
  | .endHolder holder => k.endIrqRoutesOf holder
  | .remove cpu notice device => (k.removeDevice cpu notice device).2

def RouteStep (k : Kernel cfg σ) (a : RouteAction cfg) (k' : Kernel cfg σ) : Prop := some (k.actOnRoutes a) = some k'

def Takes (k : Kernel cfg σ) (port : PortId) (intid : Nat) : Prop :=
  (k.exec.ports.ports.cell port.index).any
    (fun p => p.bindingsFor intid irqPortSignal = 0 && p.bindings.free?.isSome) = true

/-- A line that the device has is routed once, to a port that takes it, by the one who
    holds the device's other routes. Nothing is asked of the other calls. -/
def RoutesWell (k : Kernel cfg σ) : RouteAction cfg → Prop
  | .route device intid port holder => k.devices.knows device intid = true →
      k.Takes port intid ∧ ∀ r ∈ k.devices.routesOf device, r.intid ≠ intid ∧ r.holder = holder
  | _ => True

instance (k : Kernel cfg σ) (a : RouteAction cfg) : Decidable (k.RoutesWell a) := by
  cases a <;> simp only [RoutesWell, Takes] <;> infer_instance

structure Wired (k₀ k : Kernel cfg σ) : Prop where
  distinct : k.devices.Distinct
  even : ∀ port intid, k.bindings port intid = k₀.bindings port intid + k.routeCount port intid
  fresh : ∀ device, ∀ r ∈ k.devices.routesOf device, k₀.bindings r.port r.intid = 0
  sole : ∀ device, ∀ r ∈ k.devices.routesOf device, ∀ r' ∈ k.devices.routesOf device, r.holder = r'.holder

theorem installRoute_new (unrouted : ∀ r ∈ s.irqRoutes.live, r.intid ≠ route.intid) :
    (∃ e, installRoute s route = (.error e, s)) ∨
      ∃ s', installRoute s route = (.ok (), s') ∧ s'.irqRoutes.live.Perm (route :: s.irqRoutes.live) := by
  have missing : s.irqRoutes.index? (onLine route.intid) = none := by
    rw [index?_eq_none]
    intro i r here
    simpa [onLine] using unrouted r (mem_live.mpr ⟨i,here⟩)
  unfold installRoute
  rw [missing]
  cases free : s.irqRoutes.free? with
  | none => exact .inl ⟨_,rfl⟩
  | some =>
    obtain ⟨inside,empty⟩ := free?_eq_some free
    exact .inr ⟨_,rfl,live_put_perm inside empty⟩

theorem Takes.bind (takes : k.Takes port intid) :
    k.bindings port intid = 0 ∧ ∀ q i, (k.bindPort port intid irqPortSignal).2.bindings q i =
      k.bindings q i + if port = q ∧ intid = i then 1 else 0 := by
  obtain ⟨p,here,ready⟩ := (Option.any_eq_true _ _).mp takes
  simp only [and_eq_true, decide_eq_true_eq] at ready
  obtain ⟨_,bound⟩ := Port.bind_eq_ok ready.1 ready.2
  have now (i : Nat) : k.bindings port i = p.bindingsFor i irqPortSignal := by
    rw [bindings, Executive.bindingsAt, here]
    rfl
  refine ⟨(now intid).trans ready.1,fun q _ => ?_⟩
  unfold bindPort
  rw [here]
  dsimp only
  rw [bound]
  rw [bindings, Executive.bindingsAt_setPort here]
  by_cases same : q = port
  · subst same
    rw [(Port.bind_ok bound).2, now]
    simp
  · rw [if_neg same, if_neg (fun both => same both.1.symm)]
    rfl

theorem wired_start (distinct : k.devices.Distinct) (unrouted : ∀ device, k.devices.routesOf device = []) :
    Wired k k := by
  refine ⟨distinct,fun _ _ => ?_,fun _ _ mem => ?_,fun _ _ mem => ?_⟩
  · have none : k.devices.allRoutes = [] := by simp [allRoutes, unrouted]
    simp [routeCount, none]
  · simp [unrouted] at mem
  · simp [unrouted] at mem

section
variable (wired : Wired k₀ k)
include wired

theorem Wired.sheds (sheds : Sheds k k') : Wired k₀ k' := by
  refine ⟨sheds.distinct,fun port intid => ?_,fun device r mem => wired.fresh device r (sheds.fewer device r mem),
    fun device r mem r' member' => wired.sole device r (sheds.fewer device r mem) r' (sheds.fewer device r' member')⟩
  obtain ⟨_,_,_⟩ := sheds.even port intid
  have before := wired.even port intid
  omega

theorem Wired.routed (present : k.devices.contains device = true) (takes : k.Takes port intid)
    (perm : s.irqRoutes.live.Perm (⟨port, holder, intid⟩ :: k.devices.routesOf device))
    (alone : ∀ r ∈ k.devices.routesOf device, r.holder = holder) :
    Wired k₀ ({ k with devices := k.devices.setState device s }.bindPort port intid irqPortSignal).2 := by
  have ready : { k with devices := k.devices.setState device s }.Takes port intid := takes
  obtain ⟨unbound,bound⟩ := ready.bind
  obtain ⟨_,rest⟩ := { k with devices := k.devices.setState device s }.bindPort_rest port intid irqPortSignal
  have devices : ({ k with devices := k.devices.setState device s }.bindPort port intid irqPortSignal).2.devices =
      k.devices.setState device s := by rw [rest]
  have own := routesOf_setState present s
  have others (other : ObjectId) (apart : other ≠ device) :
      (k.devices.setState device s).state other = k.devices.state other := Function.update_of_ne apart _ _
  have kept (other : ObjectId) (apart : other ≠ device) :
      (k.devices.setState device s).routesOf other = k.devices.routesOf other :=
    routesOf_of_objects (g := k.devices) (h := k.devices.setState device s) rfl (others other apart)
  have before := wired.even port intid
  have now : k.bindings port intid = 0 := unbound
  refine ⟨?_,fun q i => ?_,fun other r mem => ?_,fun other r mem r' member' => ?_⟩
  · rw [devices]
    exact wired.distinct
  · have change : (k.devices.routesOf device ++ (k.devices.setState device s).allRoutes).Perm
        ((k.devices.setState device s).routesOf device ++ k.devices.allRoutes) :=
      allRoutes_change wired.distinct rfl others
    have count := change.countP_eq (names q i)
    rw [own, countP_append, countP_append, perm.countP_eq, countP_cons] at count
    have even := wired.even q i
    rw [bound, routeCount, devices]
    have same : { k with devices := k.devices.setState device s }.bindings q i = k.bindings q i := rfl
    simp only [names, decide_eq_true_eq] at count
    rw [same, even, routeCount]
    omega
  · rw [devices] at mem
    by_cases same : other = device
    · subst same
      rw [own] at mem
      rcases mem_cons.mp (perm.mem_iff.mp mem) with rfl | old
      · dsimp only
        omega
      · exact wired.fresh other r old
    · rw [kept other same] at mem
      exact wired.fresh other r mem
  · rw [devices] at mem member'
    by_cases same : other = device
    · subst same
      rw [own] at mem member'
      have all (x : IrqRoute) (there : x ∈ s.irqRoutes.live) : x.holder = holder := by
        rcases mem_cons.mp (perm.mem_iff.mp there) with rfl | old
        · rfl
        · exact alone x old
      rw [all r mem, all r' member']
    · rw [kept other same] at mem member'
      exact wired.sole other r mem r' member'

theorem Wired.route (well : k.RoutesWell (.route device intid port holder)) :
    Wired k₀ (k.deviceRouteIrqLine device intid port holder).2 := by
  unfold deviceRouteIrqLine
  split
  · exact wired
  rename_i done
  unfold routeIrqLine at done
  split at done
  · cases done
  rename_i there
  have present : k.devices.contains device = true := by simpa using there
  split at done
  · cases done
  rename_i known
  obtain ⟨takes,alone⟩ := well (by simpa using known)
  have own : k.devices.routesOf device = (k.devices.state device).irqRoutes.live := by
    rw [routesOf, if_pos present]
  have unrouted : ∀ r ∈ (k.devices.state device).irqRoutes.live, r.intid ≠ intid :=
    fun r mem => (alone r (own.symm ▸ mem)).1
  rcases @installRoute_new _ (k.devices.state device) ⟨port, holder, intid⟩ unrouted with
    ⟨e,refused⟩ | ⟨s,installed,perm⟩
  · rw [refused] at done
    cases done
  rw [installed] at done
  cases done
  exact wired.routed present takes (own ▸ perm) fun r mem => (alone r mem).2

theorem Wired.agree (port : PortId) (intid : Nat) : k.Bound port intid ∧ ¬ k₀.Bound port intid ↔
      ∃ device, ∃ r ∈ k.devices.routesOf device, r.port = port ∧ r.intid = intid := by
  have even := wired.even port intid
  rw [← routeCount_pos, Bound, Bound]
  constructor
  · omega
  intro routed
  obtain ⟨device,r,mem,rfl,rfl⟩ := routeCount_pos.mp routed
  have fresh := wired.fresh device r mem
  omega

theorem Wired.filter_holder (holder device : ObjectId) : (k.devices.routesOf device).filter (·.holder ≠ holder) =
      if (k.devices.irqRouteOfObject device).map (·.holder) = some holder then [] else k.devices.routesOf device := by
  have sole := wired.sole device
  rw [irqRouteOfObject]
  cases routes : k.devices.routesOf device with
  | nil => simp
  | cons first rest =>
    rw [routes] at sole
    have all (r : IrqRoute) (mem : r ∈ first :: rest) : r.holder = first.holder :=
      sole r mem first mem_cons_self
    simp only [head?_cons, Option.map_some, Option.some.injEq]
    split
    · rename_i same
      rw [filter_eq_nil_iff]
      intro r mem
      simp [all r mem, same]
    rename_i other
    rw [filter_eq_self]
    intro r mem
    simp [all r mem, other]

theorem Wired.ends_holder (holder device : ObjectId) :
    (k.endIrqRoutesOf holder).devices.routesOf device = (k.devices.routesOf device).filter (·.holder ≠ holder) := by
  rw [(k.endIrqRoutesOf_ended wired.distinct holder).routes]
  split
  · rename_i listed
    obtain ⟨_,held⟩ := mem_filter.mp listed
    obtain ⟨r,mem,same⟩ := any_eq_true.mp held
    refine (filter_eq_nil_iff.mpr fun x there => ?_).symm
    simp [wired.sole device x there r mem, same]
  rename_i unlisted
  refine (filter_eq_self.mpr fun r mem => ?_).symm
  rw [decide_eq_true_eq]
  intro same
  refine unlisted (mem_filter.mpr ⟨?_,any_eq_true.mpr ⟨r,mem,decide_eq_true same⟩⟩)
  by_contra missing
  rw [← contains_iff, not_eq_true] at missing
  rw [routesOf, missing] at mem
  cases mem

theorem Wired.ends_device (holder device other : ObjectId) :
    (k.endDeviceIrqRoute holder device).2.devices.routesOf other =
      if other = device then (k.devices.routesOf other).filter (·.holder ≠ holder) else k.devices.routesOf other := by
  rw [(k.endDeviceIrqRoute_ended wired.distinct holder device).routes]
  by_cases same : other = device
  · subst same
    rw [wired.filter_holder]
    split <;> simp
  · split <;> simp [same]

end

theorem Wired.step (wired : Wired k₀ k) (well : k.RoutesWell a) (step : RouteStep k a k') : Wired k₀ k' := by
  rw [RouteStep, Option.some.injEq] at step
  subst step
  cases a with
  | route => exact wired.route well
  | endDevice holder device => exact wired.sheds (k.endDeviceIrqRoute_ended wired.distinct holder device).sheds
  | endHolder holder => exact wired.sheds (k.endIrqRoutesOf_ended wired.distinct holder).sheds
  | remove cpu notice device => exact wired.sheds (removeDevices_sheds cpu notice device _ k wired.distinct)

/-- Wherever lines are routed well, the bindings made by routing are the routes of the
    graph, and the routes of a holder end together and alone. -/
theorem routes_and_bindings_agree {k₀ k : Kernel cfg σ} {history : List (RouteAction cfg)}
    (distinct : k₀.devices.Distinct) (unrouted : ∀ device, k₀.devices.routesOf device = [])
    (run : Transition.Disciplined (fun _ => RoutesWell) RouteStep k₀ history k) :
    (∀ port intid, k.Bound port intid ∧ ¬ k₀.Bound port intid ↔
      ∃ device, ∃ r ∈ k.devices.routesOf device, r.port = port ∧ r.intid = intid) ∧
    (∀ holder device, (k.endIrqRoutesOf holder).devices.routesOf device =
      (k.devices.routesOf device).filter (·.holder ≠ holder)) ∧
    ∀ holder device other, (k.endDeviceIrqRoute holder device).2.devices.routesOf other =
      if other = device then (k.devices.routesOf other).filter (·.holder ≠ holder) else k.devices.routesOf other := by
  have wired : Wired k₀ k := by
    refine run.invariant (fun _ k => Wired k₀ k) ?_ (wired_start distinct unrouted)
    intro _ _ _ _ kept well step
    exact kept.step well step
  exact ⟨wired.agree,wired.ends_holder,wired.ends_device⟩

def twoLines : Kernel .default Unit where
  exec := .new (PortTable.new.create.2.create.2)
  devices := setState ⟨(DeviceTable.new.registerIdentified ⟨9⟩ 0 4096 .map).2, fun _ => .new⟩ ⟨9⟩
    { NodeState.new with intid := some 5, extraIntids := Slots.empty.put 0 6 }
  memory := .new
  processes := .empty
  iommu := none
  alloc := ()

def oneHolder : List (RouteAction .default) := [.route ⟨9⟩ 5 ⟨0⟩ ⟨1⟩, .route ⟨9⟩ 6 ⟨1⟩ ⟨1⟩]

theorem twoLines_distinct : twoLines.devices.Distinct := by decide +kernel

theorem twoLines_unrouted (device : ObjectId) : twoLines.devices.routesOf device = [] := by
  unfold routesOf
  split
  · by_cases same : device = ⟨9⟩
    · subst same
      decide +kernel
    rw [twoLines, setState]
    dsimp only
    rw [Function.update_of_ne same]
    decide +kernel
  · rfl

theorem both_lines_are_wired : ∃ k, Transition.Disciplined (fun _ => RoutesWell) RouteStep twoLines oneHolder k ∧
    k.Bound ⟨0⟩ 5 ∧ (∃ device, ∃ r ∈ k.devices.routesOf device, r.port = ⟨0⟩ ∧ r.intid = 5) ∧
    (k.endIrqRoutesOf ⟨1⟩).devices.routesOf ⟨9⟩ = (k.devices.routesOf ⟨9⟩).filter (·.holder ≠ ⟨1⟩) := by
  refine Transition.Disciplined.reaches_also (by decide +kernel) fun k run routed => ?_
  have agree := routes_and_bindings_agree twoLines_distinct twoLines_unrouted run
  exact ⟨(agree.1 ⟨0⟩ 5).mp ⟨routed,by decide +kernel⟩,agree.2.1 ⟨1⟩ ⟨9⟩⟩

/-- A line routed to one port and then to another: the second route takes the place of
    the first in the graph, and the first port goes on delivering. -/
theorem rerouted_line_stays_bound : ∃ k, Transition.Run RouteStep twoLines
      [.route ⟨9⟩ 5 ⟨0⟩ ⟨1⟩, .route ⟨9⟩ 5 ⟨1⟩ ⟨1⟩] k ∧
    k.Bound ⟨0⟩ 5 ∧ ¬ twoLines.Bound ⟨0⟩ 5 ∧ ¬ ∃ device, ∃ r ∈ k.devices.routesOf device, r.port = ⟨0⟩ ∧ r.intid = 5 := by
  refine Transition.Disciplined.reaches_then (fun k => k.Bound ⟨0⟩ 5 ∧ k.routeCount ⟨0⟩ 5 = 0) (by decide +kernel) ?_
  rintro _ _ ⟨bound,_⟩
  refine ⟨bound,by decide +kernel,?_⟩
  rw [← routeCount_pos]
  omega

end Kernel
end Tessera
