import Tessera.Device.DeviceGraph

/-!
What the operations of the device graph do to its nodes, for a graph in which no two
nodes have the same object id. A change of one node leaves the list of ids as it is;
a removal takes one id out of it and detaches the children of the node.
-/
namespace Tessera
open List Slots Option DeviceTable
variable {cfg : Config}

namespace DeviceTable

variable {t : DeviceTable cfg} {id : ObjectId} {n : DeviceNode} {f : DeviceNode → DeviceNode}

theorem isSome_find : (t.find id).isSome = true ↔ id ∈ t.nodes.live.map (·.object) := by
  rw [List.mem_map, find, isSome_iff_ne_none, Ne, Slots.find?_eq_none]
  simp only [mem_live, named, decide_eq_false_iff_not, not_forall, not_not]
  constructor
  · rintro ⟨i,n,here,same⟩
    exact ⟨n,⟨i,here⟩,same⟩
  · rintro ⟨n,⟨i,here⟩,same⟩
    exact ⟨i,n,here,same⟩

theorem find_object (found : t.find id = some n) : n.object = id := by
  obtain ⟨matching,_⟩ := find?_eq_some found
  simpa [named] using matching

theorem objects_update (t : DeviceTable cfg) (id : ObjectId) (keeps : ∀ n, (f n).object = n.object) :
    (t.update id f).nodes.live.map (·.object) = t.nodes.live.map (·.object) :=
  t.nodes.live_modify_map (named id) keeps

theorem find_update (t : DeviceTable cfg) (id y : ObjectId) (keeps : ∀ n, (f n).object = n.object) :
    (t.update id f).find y = if y = id then (t.find y).map f else t.find y :=
  t.nodes.find?_modify_key keeps id y

def detached (id : ObjectId) (n : DeviceNode) : DeviceNode := if n.parent = some id then { n with parent := none } else n

theorem detached_object (id : ObjectId) (n : DeviceNode) : (detached id n).object = n.object := by
  unfold detached
  split <;> rfl

theorem remove_eq {slot : Nat} (found : t.nodes.index? (named id) = some slot) :
    t.remove id = (true, { t with nodes := (t.nodes.clear slot).mapLive (detached id) }) := by
  unfold remove
  rw [found]
  rfl

theorem remove_missing (missing : t.find id = none) : t.remove id = (false, t) := by
  have nowhere : t.nodes.index? (named id) = none := by
    rw [index?_eq_none]
    exact Slots.find?_eq_none.mp missing
  unfold remove
  rw [nowhere]

theorem index_of_find (present : (t.find id).isSome = true) :
    ∃ slot n, t.nodes.index? (named id) = some slot ∧ t.nodes.cell slot = some n ∧ n.object = id := by
  obtain ⟨n,found⟩ := isSome_iff_exists.mp present
  obtain ⟨_,slot,place,here⟩ := find?_eq_some found
  exact ⟨slot,n,place,here,find_object found⟩

theorem objects_remove (present : (t.find id).isSome = true) :
    (t.nodes.live.map (·.object)).Perm (id :: (t.remove id).2.nodes.live.map (·.object)) := by
  obtain ⟨_,n,place,here,same⟩ := index_of_find present
  rw [remove_eq place]
  rw [live_mapLive, List.map_map]
  have objects : (fun n => n.object) ∘ detached id = fun n : DeviceNode => n.object :=
    funext (detached_object id)
  rw [objects, ← same]
  exact (live_clear_perm here).map _

theorem find_eq_some (distinct : (t.nodes.live.map (·.object)).Nodup) :
    t.find id = some n ↔ n.object = id ∧ ∃ i, t.nodes.cell i = some n := by
  unfold find
  rw [find?_eq_some_iff]
  · simp [named]
  · intro _ _ _ _ here there first second
    simp only [named, decide_eq_true_eq] at first second
    exact Slots.cell_unique distinct here there (first.trans second.symm)

theorem find_remove (distinct : (t.nodes.live.map (·.object)).Nodup) (present : (t.find id).isSome = true)
    (y : ObjectId) : (t.remove id).2.find y = if y = id then none else (t.find y).map (detached id) := by
  have perm := objects_remove present
  have after : (((t.remove id).2).nodes.live.map (·.object)).Nodup :=
    (nodup_cons.mp (perm.nodup_iff.mp distinct)).2
  by_cases same : y = id
  · subst same
    have gone := (nodup_cons.mp (perm.nodup_iff.mp distinct)).1
    rw [← isSome_find] at gone
    simpa using gone
  rw [if_neg same]
  obtain ⟨_,_,place,here,named⟩ := index_of_find present
  ext n
  rw [find_eq_some after, remove_eq place]
  simp only [cell_mapLive, map_eq_some_iff]
  constructor
  · rintro ⟨obj,i,old,there,rfl⟩
    rw [cell_clear] at there
    split at there
    · cases there
    · rw [detached_object] at obj
      exact ⟨old,(find_eq_some distinct).mpr ⟨obj,i,there⟩,rfl⟩
  · rintro ⟨old,found,rfl⟩
    obtain ⟨obj,i,there⟩ := (find_eq_some distinct).mp found
    refine ⟨(detached_object id old).trans obj,i,old,?_,rfl⟩
    rw [cell_clear, if_neg, there]
    rintro rfl
    rw [here] at there
    cases there
    exact same (obj.symm.trans named)

end DeviceTable

namespace DeviceGraph

def Distinct (g : DeviceGraph cfg) : Prop := g.objects.Nodup

instance (g : DeviceGraph cfg) : Decidable g.Distinct := by
  unfold Distinct
  infer_instance

variable {g h : DeviceGraph cfg} {id y : ObjectId}

theorem contains_iff : g.contains id = true ↔ id ∈ g.objects :=
  isSome_find

theorem contains_of_objects (same : h.objects = g.objects) (id : ObjectId) : h.contains id = g.contains id := by
  rw [Bool.eq_iff_iff, contains_iff, contains_iff, same]

theorem routesOf_of_objects (same : h.objects = g.objects) (state : h.state id = g.state id) :
    h.routesOf id = g.routesOf id := by
  rw [routesOf, routesOf, contains_of_objects same, state]

theorem remove_missing (missing : g.contains id = false) : g.remove id = (false, g) := by
  have nothing : g.table.find id = none := by simpa [contains] using missing
  rw [remove, DeviceTable.remove_missing nothing]

theorem remove_present (present : g.contains id = true) :
    g.remove id = (true, ⟨(g.table.remove id).2, Function.update g.state id .new⟩) := by
  obtain ⟨_,_,place,_,_⟩ := index_of_find present
  unfold remove
  rw [remove_eq place]

theorem objects_remove (present : g.contains id = true) : g.objects.Perm (id :: (g.remove id).2.objects) := by
  rw [remove_present present]
  exact DeviceTable.objects_remove present

section
variable (distinct : g.Distinct)
include distinct

theorem Distinct.remove (id : ObjectId) : (g.remove id).2.Distinct := by
  cases present : g.contains id with
  | false =>
    rw [remove_missing present]
    exact distinct
  | true => exact (nodup_cons.mp ((objects_remove present).nodup_iff.mp distinct)).2

theorem contains_remove (id y : ObjectId) : (g.remove id).2.contains y = (g.contains y && y ≠ id) := by
  cases present : g.contains id with
  | false =>
    rw [remove_missing present]
    by_cases same : y = id
    · simp [same, present]
    · simp [same]
  | true =>
    have perm := objects_remove present
    have once := nodup_cons.mp (perm.nodup_iff.mp distinct)
    rw [Bool.eq_iff_iff, contains_iff, Bool.and_eq_true, contains_iff, decide_eq_true_eq, perm.mem_iff, mem_cons]
    constructor
    · intro left
      exact ⟨.inr left,fun same => once.1 (same ▸ left)⟩
    · rintro ⟨same | left,other⟩
      · exact absurd same other
      · exact left

theorem find_remove (present : g.contains id = true) (y : ObjectId) : (g.remove id).2.table.find y =
      if y = id then none else (g.table.find y).map (detached id) := by
  rw [remove_present present]
  exact DeviceTable.find_remove distinct present y

theorem mem_childrenOf : y ∈ g.childrenOf id ↔ ∃ n, g.table.find y = some n ∧ n.parent = some id := by
  unfold childrenOf
  simp only [List.mem_map, mem_filter, mem_live, decide_eq_true_eq, find_eq_some distinct]
  constructor
  · rintro ⟨n,⟨⟨i,here⟩,parent⟩,same⟩
    exact ⟨n,⟨same,i,here⟩,parent⟩
  · rintro ⟨n,⟨same,i,here⟩,parent⟩
    exact ⟨n,⟨⟨i,here⟩,parent⟩,same⟩

end

theorem state_remove (other : y ≠ id) : (g.remove id).2.state y = g.state y := by
  cases present : g.contains id with
  | false => rw [remove_missing present]
  | true =>
    rw [remove_present present]
    exact Function.update_of_ne other _ _

end DeviceGraph
end Tessera
