import Tessera.Kernel.RemovalStep
import Tessera.Kernel.Surrender

/-!
The removal of a device with everything below it. It goes from leaf to leaf until the
device itself is a leaf, and by then the graph, the translation unit and the ports have
nothing left of the subtree. The processes have nothing left of it if none of them held
two handles to one of the devices: the array a removal takes handles into has one entry.
-/
namespace Tessera
open DeviceTable List Option Slots DeviceGraph Forest
variable {cfg : Config} {σ : Type}

namespace DeviceGraph

def Below (g : DeviceGraph cfg) (id root : ObjectId) : Prop := Forest.Below g.childrenOf id root

/-- A graph of devices: the ids tell nodes apart, and no node is above itself. -/
structure IsTree (g : DeviceGraph cfg) : Prop where
  distinct : g.Distinct
  acyclic : ∀ id, ¬ Forest.Descends g.childrenOf id id

theorem objects_length (g : DeviceGraph cfg) : g.objects.length ≤ cfg.maxDevices := by
  rw [objects, length_map]
  exact (length_filterMap_le _ _).trans g.table.nodes.size.le

variable {g g' : DeviceGraph cfg} {id root leaf : ObjectId}

theorem below_present (tree : g.IsTree) (present : g.contains root = true) (below : g.Below id root) :
    g.contains id = true := by
  cases below using Relation.ReflTransGen.head_induction_on with
  | refl => exact present
  | head child =>
    obtain ⟨_,found,_⟩ := (mem_childrenOf tree.distinct).mp child
    rw [contains, found]
    rfl

structure Pruned (leaf : ObjectId) (g g' : DeviceGraph cfg) : Prop where
  tree : g'.IsTree
  kids : ∀ a b, a ∈ g'.childrenOf b ↔ a ≠ leaf ∧ a ∈ g.childrenOf b
  gone : g'.contains leaf = false ∧ g'.state leaf = .new
  nodes : ∀ other, other ≠ leaf → g'.table.find other = g.table.find other
  state : ∀ other, other ≠ leaf → g'.state other = g.state other
  declared : g'.table.nextDeclared = g.table.nextDeclared

theorem pruned (tree : g.IsTree) (present : g.contains leaf = true)
    (bare : g.childrenOf leaf = []) (kept : NodesKept leaf g h) : Pruned leaf g (h.remove leaf).2 := by
  have distinct : h.Distinct := by
    rw [Distinct, kept.objects]
    exact tree.distinct
  have there : h.contains leaf = true := by rw [contains_of_objects kept.objects, present]
  -- nobody has the leaf as a parent, so nobody is detached
  have nodes (other : ObjectId) (apart : other ≠ leaf) : (h.remove leaf).2.table.find other = g.table.find other := by
    rw [find_remove distinct there, if_neg apart, kept.nodes other apart]
    cases found : g.table.find other with
    | none => rfl
    | some n =>
      rw [map_some, DeviceTable.detached, if_neg]
      intro parent
      have child : other ∈ g.childrenOf leaf := (mem_childrenOf tree.distinct).mpr ⟨n,found,parent⟩
      rw [bare] at child
      cases child
  have missing : (h.remove leaf).2.contains leaf = false := by
    rw [contains_remove distinct]
    simp
  have kids (a b : ObjectId) : a ∈ (h.remove leaf).2.childrenOf b ↔ a ≠ leaf ∧ a ∈ g.childrenOf b := by
    rw [mem_childrenOf (distinct.remove leaf), mem_childrenOf tree.distinct]
    by_cases same : a = leaf
    · subst same
      simp only [ne_eq, not_true_eq_false, false_and, iff_false, not_exists, not_and]
      intro _ found
      rw [contains, found] at missing
      cases missing
    · rw [nodes a same]
      simp [same]
  refine ⟨⟨distinct.remove leaf,fun id => acyclic_without_leaf tree.acyclic kids id⟩,kids,⟨missing,?_⟩,nodes,
    fun other apart => (state_remove apart).trans (kept.state other apart),?_⟩
  · rw [remove_present there]
    exact Function.update_self ..
  rw [remove_present there]
  obtain ⟨_,_,place,_⟩ := index_of_find there
  rw [remove_eq place]
  exact kept.declared

theorem Pruned.below (step : Pruned leaf g g') (bare : g.childrenOf leaf = []) (other : root ≠ leaf)
    (id : ObjectId) : g'.Below id root ↔ id ≠ leaf ∧ g.Below id root :=
  below_without_leaf bare step.kids other id

end DeviceGraph

namespace Kernel

def Untranslated (iommu : Option DmaMapper) (device : ObjectId) : Prop :=
  ∀ m, iommu = some m → m.translates device = true → m.lease device = none ∧ m.table device = fun _ => none

def SameTranslations (before after : Option DmaMapper) (device : ObjectId) : Prop :=
  after.map (fun m => (m.translates device, m.lease device, m.table device)) =
    before.map fun m => (m.translates device, m.lease device, m.table device)

theorem endTranslations_untranslated (k : Kernel cfg σ) (device : ObjectId) :
    Untranslated (k.endTranslations device).iommu device := by
  intro _ unit translates
  obtain ⟨_,_,rfl⟩ := map_eq_some_iff.mp unit
  unfold DmaMapper.endLease at translates ⊢
  split
  · simp
  rename_i passes
  rw [if_neg passes] at translates
  exact absurd translates passes

variable {device other leaf root : ObjectId} {k k' : Kernel cfg σ}

theorem endTranslations_same (k : Kernel cfg σ) (apart : other ≠ device) :
    SameTranslations k.iommu (k.endTranslations device).iommu other := by
  unfold SameTranslations endTranslations
  cases k.iommu with
  | none => rfl
  | some =>
    simp only [map_some]
    unfold DmaMapper.endLease
    split
    · simp [Function.update_of_ne apart]
    · rfl

/-- How often the routes of these devices bind a port to a line. -/
def routeBindings (k : Kernel cfg σ) (devices : List ObjectId) (port : PortId) (source : Nat) : Nat :=
  (devices.map fun id => (k.devices.routesOf id).countP (IrqRoute.names port source)).sum

structure SubtreeRemoved (root : ObjectId) (k k' : Kernel cfg σ) (order : List ObjectId) : Prop where
  once : order.Nodup
  whole : ∀ id, id ∈ order ↔ k.devices.Below id root
  processes : k'.processes = k.processes.mapLive (surrenderAll order)
  gone : ∀ id, k.devices.Below id root → k'.devices.contains id = false ∧ k'.devices.state id = .new
  nodes : ∀ id, ¬ k.devices.Below id root → k'.devices.table.find id = k.devices.table.find id
  state : ∀ id, ¬ k.devices.Below id root → k'.devices.state id = k.devices.state id
  declared : k'.devices.table.nextDeclared = k.devices.table.nextDeclared
  unleased : ∀ id, k.devices.Below id root → (k.devices.table.leaseHolderOfObject id).isSome = true →
    Untranslated k'.iommu id
  translated : ∀ id, ¬ k.devices.Below id root → SameTranslations k.iommu k'.iommu id
  bindings : ∀ port source, k'.exec.bindingsAt port source irqPortSignal =
    k.exec.bindingsAt port source irqPortSignal - k.routeBindings order port source

theorem Untranslated.same {before after : Option DmaMapper} (gone : Untranslated before device)
    (same : SameTranslations before after device) : Untranslated after device := by
  intro _ unit translates
  rw [SameTranslations, unit, eq_comm] at same
  obtain ⟨old,there,equal⟩ := map_eq_some_iff.mp same
  rw [Prod.mk.injEq, Prod.mk.injEq] at equal
  obtain ⟨translated,lease,table⟩ := equal
  obtain ⟨unleased,empty⟩ := gone old there (translated.trans translates)
  exact ⟨lease.symm.trans unleased,table.symm.trans empty⟩

theorem DeviceRemoved.unit_same (removed : DeviceRemoved device k k') (apart : other ≠ device) :
    SameTranslations k.iommu k'.iommu other := by
  rw [removed.unit]
  split
  · exact k.endTranslations_same apart
  · rfl

theorem DeviceRemoved.untranslated (removed : DeviceRemoved device k k')
    (leased : (k.devices.table.leaseHolderOfObject device).isSome = true) : Untranslated k'.iommu device := by
  rw [removed.unit, if_pos leased]
  exact k.endTranslations_untranslated device

theorem DeviceRemoved.pruned (removed : DeviceRemoved leaf k k') (tree : k.devices.IsTree)
    (present : k.devices.contains leaf = true) (bare : k.devices.childrenOf leaf = []) :
    DeviceGraph.Pruned leaf k.devices k'.devices := by
  obtain ⟨_,kept,_,last⟩ := removed.graph
  rw [last]
  exact DeviceGraph.pruned tree present bare kept

theorem DeviceRemoved.last (removed : DeviceRemoved root k k') (tree : k.devices.IsTree)
    (present : k.devices.contains root = true) (bare : k.devices.childrenOf root = []) :
    SubtreeRemoved root k k' [root] := by
  have step := removed.pruned tree present bare
  have alone (id : ObjectId) : k.devices.Below id root ↔ id = root := by
    constructor
    · intro below
      rcases Relation.ReflTransGen.cases_tail below with same | ⟨_,_,child⟩
      · exact same.symm
      · rw [Forest.Child, bare] at child
        cases child
    · rintro rfl
      exact .refl
  refine ⟨nodup_singleton root,fun id => ?_,removed.processes,fun id below => ?_,fun id out => ?_,fun id out => ?_,
    step.declared,fun id below leased => ?_,fun id out => ?_,removed.bindings⟩
  · rw [alone, mem_singleton]
  · rw [(alone id).mp below]
    exact step.gone
  · exact step.nodes id fun same => out ((alone id).mpr same)
  · exact step.state id fun same => out ((alone id).mpr same)
  · rw [(alone id).mp below] at leased ⊢
    exact removed.untranslated leased
  · exact removed.unit_same fun same => out ((alone id).mpr same)

theorem DeviceRemoved.more (removed : DeviceRemoved leaf k k₁)
    (tree : k.devices.IsTree) (present : k.devices.contains leaf = true)
    (bare : k.devices.childrenOf leaf = []) (other : root ≠ leaf) (below : k.devices.Below leaf root)
    (rest : SubtreeRemoved root k₁ k' order) : SubtreeRemoved root k k' (leaf :: order) := by
  have step := removed.pruned tree present bare
  have split := step.below bare other
  have spared : ¬ k₁.devices.Below leaf root := fun still => ((split leaf).mp still).1 rfl
  have outside {id : ObjectId} (out : ¬ k.devices.Below id root) : id ≠ leaf ∧ ¬ k₁.devices.Below id root :=
    ⟨fun same => out (same ▸ below),fun still => out ((split id).mp still).2⟩
  refine ⟨?_,fun id => ?_,?_,fun id inside => ?_,fun id out => ?_,fun id out => ?_,rest.declared.trans step.declared,
    fun id inside leased => ?_,fun id out => ?_,fun port src => ?_⟩
  · exact nodup_cons.mpr ⟨fun mem => spared ((rest.whole leaf).mp mem),rest.once⟩
  · rw [mem_cons, rest.whole, split]
    constructor
    · rintro (rfl | ⟨_,inside⟩)
      · exact below
      · exact inside
    intro inside
    by_cases same : id = leaf
    · exact .inl same
    · exact .inr ⟨same,inside⟩
  · rw [rest.processes, removed.processes]
    simp only [Slots.mapLive, List.map_map, Option.map_comp_map]
    rfl
  · by_cases same : id = leaf
    · subst same
      obtain ⟨missing,blank⟩ := step.gone
      refine ⟨?_,(rest.state id spared).trans blank⟩
      rw [DeviceGraph.contains, rest.nodes id spared]
      exact missing
    · exact rest.gone id ((split id).mpr ⟨same,inside⟩)
  · obtain ⟨apart,out'⟩ := outside out
    exact (rest.nodes id out').trans (step.nodes id apart)
  · obtain ⟨apart,out'⟩ := outside out
    exact (rest.state id out').trans (step.state id apart)
  · by_cases same : id = leaf
    · subst same
      exact (removed.untranslated leased).same (rest.translated id spared)
    · refine rest.unleased id ((split id).mpr ⟨same,inside⟩) ?_
      rwa [leaseHolderOfObject, step.nodes id same]
  · obtain ⟨apart,out'⟩ := outside out
    exact (rest.translated id out').trans (removed.unit_same apart)
  -- the routes of the others are those they had, so that what is unbound adds up
  · have kept : k₁.routeBindings order port src = k.routeBindings order port src := by
      refine congrArg sum (map_congr_left fun id mem => ?_)
      have apart := ((split id).mp ((rest.whole id).mp mem)).1
      rw [DeviceGraph.routesOf, DeviceGraph.contains, step.nodes id apart, step.state id apart]
      rfl
    rw [rest.bindings, removed.bindings, kept, Nat.sub_sub]
    rfl

theorem removeDevices_removed (cpu : Fin cfg.maxCpus) (notice : ObjectId → Message cfg) (root : ObjectId)
    (turns : Nat) (k : Kernel cfg σ) (tree : k.devices.IsTree) (present : k.devices.contains root = true)
    (all : List ObjectId) (inside : ∀ id, k.devices.Below id root → id ∈ all) (enough : all.length ≤ turns) :
    ∃ order, SubtreeRemoved root k (removeDevices cpu notice root turns k).2 order := by
  induction turns generalizing k all with
  | zero =>
    have mem := inside root .refl
    rw [eq_nil_of_length_eq_zero (Nat.le_zero.mp enough)] at mem
    cases mem
  | succ turns ih =>
    have deepest : k.deepestBelow root = some (descend k.devices.childrenOf cfg.maxDevices root) := by
      rw [deepestBelow, if_pos present]
    have bare := descend_leaf tree.acyclic (fun _ below => contains_iff.mp (below_present tree present below))
        k.devices.objects_length
    have below : k.devices.Below (descend k.devices.childrenOf cfg.maxDevices root) root :=
      descend_below _ _
    generalize descend k.devices.childrenOf cfg.maxDevices root = leaf at deepest bare below
    have there := below_present tree present below
    obtain ⟨existed,removed⟩ := k.removeOneDevice_removed cpu notice leaf
    rw [there] at existed
    unfold removeDevices
    rw [deepest]
    dsimp only
    split
    · rename_i refused
      rw [refused] at existed
      cases existed
    rename_i k₁ done
    rw [done] at removed
    by_cases last : leaf = root
    · subst last
      rw [if_pos rfl]
      exact ⟨_,removed.last tree there bare⟩
    rw [if_neg last]
    have step := removed.pruned tree there bare
    have split := step.below bare (Ne.symm last)
    have still : k₁.devices.contains root = true := by
      rw [DeviceGraph.contains, step.nodes root (Ne.symm last)]
      exact present
    obtain ⟨_,rest⟩ := ih k₁ step.tree still (all.erase leaf)
      (fun id under => by
        obtain ⟨apart,old⟩ := (split id).mp under
        exact (mem_erase_of_ne apart).mpr (inside id old))
      (by
        have shorter := length_erase_of_mem (inside leaf below)
        omega)
    exact ⟨_,removed.more tree there bare (Ne.symm last) below rest⟩

theorem removeDevice_removed (cpu : Fin cfg.maxCpus) (notice : ObjectId → Message cfg) (k : Kernel cfg σ)
    (tree : k.devices.IsTree) (present : k.devices.contains root = true) :
    ∃ order, SubtreeRemoved root k (k.removeDevice cpu notice root).2 order :=
  removeDevices_removed cpu notice root cfg.maxDevices k tree present k.devices.objects
    (fun _ below => contains_iff.mp (below_present tree present below))
    k.devices.objects_length

/-- Everything of the subtree is revoked, and nothing else has changed in the graph or
    in a process. -/
structure Revoked (root : ObjectId) (k k' : Kernel cfg σ) : Prop where
  nodes : ∀ id, k.devices.Below id root → k'.devices.contains id = false
  leases : ∀ id, k.devices.Below id root → k'.devices.table.leaseHolderOfObject id = none ∧
    k'.devices.table.apertureOfObject id = none ∧
    ((k.devices.table.leaseHolderOfObject id).isSome = true → Untranslated k'.iommu id)
  routes : ∀ id, k.devices.Below id root → k'.devices.routesOf id = []
  bindings : ∃ devices : List ObjectId, devices.Nodup ∧ (∀ id, id ∈ devices ↔ k.devices.Below id root) ∧
    ∀ port source, k'.exec.bindingsAt port source irqPortSignal =
      k.exec.bindingsAt port source irqPortSignal - k.routeBindings devices port source
  others : ∀ id, ¬ k.devices.Below id root → k'.devices.table.find id = k.devices.table.find id ∧
    k'.devices.state id = k.devices.state id ∧ SameTranslations k.iommu k'.iommu id
  declared : k'.devices.table.nextDeclared = k.devices.table.nextDeclared
  empty : ∀ i, k.processes.cell i = none → k'.processes.cell i = none
  processes : ∀ i p, k.processes.cell i = some p →
    ∃ p', k'.processes.cell i = some p' ∧ Process.Lost (k.devices.Below · root) p p'

/-- A removal revokes everything exactly if every process gives up each device of the
    subtree with one handle. -/
theorem removal_revokes_everything_iff (cpu : Fin cfg.maxCpus) (notice : ObjectId → Message cfg) (k : Kernel cfg σ)
    (tree : k.devices.IsTree) (root : ObjectId) (present : k.devices.contains root = true) :
    Revoked root k (k.removeDevice cpu notice root).2 ↔
      ∀ i p, k.processes.cell i = some p → ∀ id, k.devices.Below id root → GivesUp p id := by
  obtain ⟨order,removed⟩ := removeDevice_removed cpu notice k tree present
  generalize (k.removeDevice cpu notice root).2 = k' at removed ⊢
  have same : (· ∈ order) = (k.devices.Below · root) := funext fun id => propext (removed.whole id)
  have lost (p : Process cfg) : Process.Lost (k.devices.Below · root) p (surrenderAll order p) ↔
      ∀ id, k.devices.Below id root → GivesUp p id := by
    rw [← same, surrenderAll_lost_iff removed.once]
    simp [removed.whole]
  have cell (i : Nat) : k'.processes.cell i = (k.processes.cell i).map (surrenderAll order) := by
    rw [removed.processes, cell_mapLive]
  constructor
  · intro revoked i p here
    obtain ⟨_,there,gone⟩ := revoked.processes i p here
    rw [cell, here, map_some, Option.some.injEq] at there
    exact (lost p).mp (there ▸ gone)
  · intro gives
    have missing (id : ObjectId) (below : k.devices.Below id root) : k'.devices.table.find id = none := by
      simpa [DeviceGraph.contains] using (removed.gone id below).1
    refine ⟨fun id below => (removed.gone id below).1,fun id below => ⟨?_,?_,removed.unleased id below⟩,
      fun id below => ?_,⟨order,removed.once,removed.whole,removed.bindings⟩,
      fun id out => ⟨removed.nodes id out,removed.state id out,removed.translated id out⟩,
      removed.declared,fun i none => ?_,fun i p here => ?_⟩
    · rw [leaseHolderOfObject, missing id below]
      rfl
    · rw [apertureOfObject, missing id below]
      rfl
    · rw [DeviceGraph.routesOf, (removed.gone id below).1]
      rfl
    · rw [cell, none]
      rfl
    · refine ⟨surrenderAll order p,?_,(lost p).mpr (gives i p here)⟩
      rw [cell, here]
      rfl

theorem isTree_of_ordered {g : DeviceGraph cfg} (distinct : g.Distinct)
    (ordered : ∀ n ∈ g.table.nodes.live, ∀ parent ∈ n.parent, parent.raw < n.object.raw) : g.IsTree := by
  have up (a b : ObjectId) (child : Forest.Child g.childrenOf a b) : b.raw < a.raw := by
    obtain ⟨n,found,parent⟩ := (mem_childrenOf distinct).mp child
    obtain ⟨rfl,i,here⟩ := (find_eq_some distinct).mp found
    exact ordered n (mem_live.mpr ⟨i,here⟩) b parent
  have descends (a b : ObjectId) (path : Forest.Descends g.childrenOf a b) : b.raw < a.raw := by
    induction path with
    | single child => exact up _ _ child
    | tail _ child ih => exact (up _ _ child).trans ih
  exact ⟨distinct,fun id cycle => Nat.lt_irrefl _ (descends id id cycle)⟩

instance (p : Process cfg) (device : ObjectId) : Decidable (p.HasWindow device) :=
  decidable_of_iff (∃ w ∈ p.deviceWindows.live, w.object = device) (by
    simp only [Process.HasWindow, mem_live]
    constructor
    · rintro ⟨w,⟨j,here⟩,same⟩
      exact ⟨j,w,here,same⟩
    · rintro ⟨j,w,here,same⟩
      exact ⟨w,⟨j,here⟩,same⟩)

instance (p : Process cfg) (device : ObjectId) : Decidable (GivesUp p device) := by
  unfold GivesUp
  infer_instance

/-- A bridge with one device below it, whose line 33 is routed to a port, and a process with a
    window of the bridge that was given these handles. -/
def bridged (handles : List ObjectId) : Kernel .minimal Unit where
  exec := .new ⟨Slots.empty.put 0 ⟨Slots.empty.put 0 ⟨33, irqPortSignal, 0, false⟩, 0, none, none⟩, portObjectIdBase⟩
  devices := ⟨((new.registerIdentified ⟨9⟩ 0 4096 .map).2.registerIdentified ⟨10⟩ 4096 4096 .map).2.update
    ⟨10⟩ fun n => { n with parent := some ⟨9⟩ }, fun id => if id = ⟨10⟩ then
      { NodeState.new with irqRoutes := Slots.empty.put 0 ⟨⟨0⟩, ⟨1⟩, 33⟩ } else .new⟩
  memory := .new
  processes := Slots.empty.put 0 { Process.new ⟨1⟩ (AddressSpace.fromArch
      { ArchSpace.bare with
        pages := fun page => if page = 16 then some (ArchSpace.bare.root, DeviceReach.user.flags) else none }) with
    handles := handles.foldl (fun t object => (t.insert object .map).2) .new
    deviceWindows := Slots.empty.put 0 ⟨⟨9⟩, 16 * frameSize, 1, Nat.one_pos⟩ }
  iommu := none
  alloc := ()

def boot : Fin Config.minimal.maxCpus := ⟨0, Config.only_cpu⟩

def blankNotice (_ : ObjectId) : Message .minimal := .new 0 0

theorem bridged_tree (handles : List ObjectId) : (bridged handles).devices.IsTree :=
  isTree_of_ordered (show DeviceGraph.Distinct (bridged []).devices by decide +kernel)
    (show ∀ n ∈ (bridged []).devices.table.nodes.live, ∀ parent ∈ n.parent, parent.raw < n.object.raw by decide +kernel)

theorem bridged_removal_revokes : (bridged [⟨9⟩, ⟨10⟩]).exec.bindingsAt ⟨0⟩ 33 irqPortSignal = 1 ∧
    ((bridged [⟨9⟩, ⟨10⟩]).removeDevice boot blankNotice ⟨9⟩).2.exec.bindingsAt ⟨0⟩ 33 irqPortSignal = 0 ∧
    Revoked ⟨9⟩ (bridged [⟨9⟩, ⟨10⟩]) ((bridged [⟨9⟩, ⟨10⟩]).removeDevice boot blankNotice ⟨9⟩).2 := by
  refine ⟨by decide +kernel,by decide +kernel,?_⟩
  refine (removal_revokes_everything_iff boot blankNotice _ (bridged_tree _) ⟨9⟩ (by decide +kernel)).mpr ?_
  intro i p here id below
  have known := contains_iff.mp (below_present (bridged_tree _) (by decide +kernel) below)
  have objects : (bridged [⟨9⟩, ⟨10⟩]).devices.objects = [⟨9⟩, ⟨10⟩] := by decide +kernel
  rw [objects] at known
  have single : ∀ p ∈ (bridged [⟨9⟩, ⟨10⟩]).processes.live, ∀ id ∈ [ObjectId.mk 9, ⟨10⟩], GivesUp p id := by decide +kernel
  exact single p (mem_live.mpr ⟨i,here⟩) id known

/-- A process with a second handle to the device keeps it, with the register window. -/
theorem second_handle_survives_removal : (bridged [⟨9⟩, ⟨9⟩]).devices.contains ⟨9⟩ = true ∧
      (((bridged [⟨9⟩, ⟨9⟩]).removeDevice boot blankNotice ⟨9⟩).2.processes.cell 0).any (fun p =>
        p.handles.holds ⟨9⟩ && decide (p.HasWindow ⟨9⟩) && (p.space.arch.pages 16).isSome) = true := by
  decide +kernel

end Kernel
end Tessera
