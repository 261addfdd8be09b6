import Tessera.Exec.Steps
import Tessera.Kernel.RouteBindings

/-!
A dead process gives its devices back. Its leases and its interrupt routes end first;
then the handles are taken, at most as many as a message has room for, and one message
for each of them goes to the endpoint that administers the devices.
-/
namespace Tessera
open List DeviceGraph Option
variable {cfg : Config} {σ : Type}

theorem Executive.queue_send {M : Type} [Stamped M] (x : Executive M cfg) (cpu : Fin cfg.maxCpus)
    (origin : EndpointId) (message : M) : (∃ e, x.send cpu origin message = (.failed e, x)) ∨
      (x.send cpu origin message).1 = .done ∧ ∃ old new, x.channels.endpoint? origin.peer = some old ∧
          (x.send cpu origin message).2.channels.endpoint? origin.peer = some new ∧
          new.queue.items = old.queue.items ++ [Stamped.setCorrelation message (x.currentCorrelation cpu)] := by
  unfold send
  split
  · exact .inl ⟨_,rfl⟩
  rename_i destination found
  split
  · exact .inl ⟨_,rfl⟩
  rename_i queued
  obtain ⟨queue,rfl,items⟩ := Endpoint.enqueue_eq_ok queued
  refine .inr ⟨rfl,destination,{ destination with queue }.setBlockedReceiver none,found,?_,items⟩
  have roused := (rouses_wakeIfAny (x.setEndpoint origin.peer
    ({ destination with queue }.setBlockedReceiver none)) cpu destination.blockedReceiver).trans
    (rouses_signalEndpointArrival _ cpu (x.channels.endpointObject origin.peer))
  rw [roused.channels, setEndpoint, alterEndpoint, ChannelTable.endpoint?_alterEndpoint, if_pos rfl, found]
  rfl

namespace DeviceTable

theorem mem_leasesHeldBy {t : DeviceTable cfg} (distinct : (t.nodes.live.map (·.object)).Nodup)
    {holder id : ObjectId} : id ∈ t.leasesHeldBy holder ↔ t.leaseHolderOfObject id = some holder := by
  unfold leasesHeldBy leaseHolderOfObject
  simp only [List.mem_map, mem_filter, Slots.mem_live, decide_eq_true_eq, bind_eq_some_iff, find_eq_some distinct]
  constructor
  · rintro ⟨n,⟨⟨i,here⟩,held⟩,same⟩
    exact ⟨n,⟨same,i,here⟩,held⟩
  · rintro ⟨n,⟨same,i,here⟩,held⟩
    exact ⟨n,⟨⟨i,here⟩,held⟩,same⟩

end DeviceTable

namespace Kernel

/-- The end of a lease or of a route: the processes, the queues, the nodes and the
    quarantine are as before. -/
structure Winds (k k' : Kernel cfg σ) : Prop where
  processes : k'.processes = k.processes
  channels : k'.exec.channels = k.exec.channels
  objects : k'.devices.objects = k.devices.objects
  quarantined : ∀ id, (k'.devices.state id).quarantined = (k.devices.state id).quarantined

theorem Winds.refl (k : Kernel cfg σ) : Winds k k := ⟨rfl,rfl,rfl,fun _ => rfl⟩

theorem Winds.trans (first : Winds a b) (second : Winds b c) : Winds a c :=
  ⟨second.processes.trans first.processes,second.channels.trans first.channels,second.objects.trans first.objects,
    fun id => (second.quarantined id).trans (first.quarantined id)⟩

theorem Winds.isQuarantined (winds : Winds k k') (id : ObjectId) :
    k'.devices.isQuarantined id = k.devices.isQuarantined id := by
  rw [DeviceGraph.isQuarantined, DeviceGraph.isQuarantined, contains_of_objects winds.objects, winds.quarantined]

theorem endOneLease_winds (k : Kernel cfg σ) (dev : ObjectId) : Winds k (k.endOneLease dev).2 := by
  obtain ⟨nodes,state⟩ := k.endOneLease_nodes dev
  obtain ⟨_,same⟩ := k.endOneLease_rest dev
  refine ⟨?_,?_,nodes.objects,fun _ => by rw [state]⟩
  · rw [same]
    rfl
  · rw [same]
    rfl

theorem leaseHolder_endOneLease (k : Kernel cfg σ) (dev other : ObjectId) :
    (k.endOneLease dev).2.devices.table.leaseHolderOfObject other =
      if other = dev then none else k.devices.table.leaseHolderOfObject other := by
  obtain ⟨_,same⟩ := k.endOneLease_rest dev
  rw [same]
  show ((k.devices.table.endLease dev).2.find other).bind (·.leaseHolder) = _
  rw [find_endLease]
  split
  · cases k.devices.table.find other <;> rfl
  · rfl

theorem endLeases_ended (devices : List ObjectId) (k : Kernel cfg σ) :
    Winds k (devices.foldl (fun k dev => (k.endOneLease dev).2) k) ∧
      ∀ id, (devices.foldl (fun k dev => (k.endOneLease dev).2) k).devices.table.leaseHolderOfObject id =
        if id ∈ devices then none else k.devices.table.leaseHolderOfObject id := by
  induction devices generalizing k with
  | nil => exact ⟨.refl k,fun _ => by simp⟩
  | cons dev rest ih =>
    obtain ⟨winds,holders⟩ := ih (k.endOneLease dev).2
    refine ⟨(k.endOneLease_winds dev).trans winds,fun id => ?_⟩
    rw [foldl_cons, holders, leaseHolder_endOneLease]
    by_cases later : id ∈ rest
    · simp [later]
    · simp [later]

theorem endLeasesOf_ended (k : Kernel cfg σ) (distinct : k.devices.Distinct) (holder : ObjectId) :
    Winds k (k.endLeasesOf holder) ∧
      ∀ id, (k.endLeasesOf holder).devices.table.leaseHolderOfObject id ≠ some holder := by
  obtain ⟨winds,holders⟩ := endLeases_ended (k.devices.table.leasesHeldBy holder) k
  refine ⟨winds,fun _ held => ?_⟩
  rw [endLeasesOf, holders] at held
  split at held
  · cases held
  · rename_i other
    exact other ((DeviceTable.mem_leasesHeldBy distinct).mpr held)

theorem RoutesEnded.winds (ended : RoutesEnded dev k k') : Winds k k' ∧ k'.devices.table = k.devices.table := by
  have quarantined (id : ObjectId) : (k'.devices.state id).quarantined = (k.devices.state id).quarantined := by
    by_cases same : id = dev
    · obtain ⟨_,own⟩ := ended.own
      rw [same, own]
    · rw [ended.others id same]
  obtain ⟨_,_,rfl⟩ := ended.rest
  exact ⟨⟨rfl,rfl,rfl,quarantined⟩,rfl⟩

theorem endIrqRoutesOf_winds (k : Kernel cfg σ) (holder : ObjectId) :
    Winds k (k.endIrqRoutesOf holder) ∧ (k.endIrqRoutesOf holder).devices.table = k.devices.table := by
  unfold endIrqRoutesOf
  induction k.devices.irqRoutesHeldBy holder generalizing k with
  | nil => exact ⟨.refl k,rfl⟩
  | cons dev rest ih =>
    obtain ⟨first,table⟩ := (k.endOneIrqRoute_ended dev).winds
    obtain ⟨later,table'⟩ := ih (k.endOneIrqRoute dev).2
    exact ⟨first.trans later,table'.trans table⟩

theorem endIrqRoutesOf_none (k : Kernel cfg σ) (distinct : k.devices.Distinct) (holder : ObjectId) (id : ObjectId) :
    ∀ r ∈ (k.endIrqRoutesOf holder).devices.routesOf id, r.holder ≠ holder := by
  intro r mem mine
  rw [(k.endIrqRoutesOf_ended distinct holder).routes] at mem
  split at mem
  · cases mem
  rename_i other
  refine other (mem_filter.mpr ⟨?_,List.any_eq_true.mpr ⟨r,mem,by simpa using mine⟩⟩)
  rw [← contains_iff]
  by_contra missing
  rw [DeviceGraph.routesOf, if_neg missing] at mem
  cases mem

def queued (k : Kernel cfg σ) (e : EndpointId) : List (Message cfg) :=
  ((k.exec.channels.endpoint? e).map (·.queue.items)).getD []

def carries (object : ObjectId) (m : Message cfg) : Bool := m.handles.items.any (·.object = object)

def Reclaimed.lost : Reclaimed → Bool
  | .withheld | .delivered => false
  | .lostNotInGraph | .lostNoHandleRoom | .lostQueueFull => true

def losses (object : ObjectId) (reports : List (ObjectId × Reclaimed)) : Nat :=
  reports.countP fun r => r.1 = object && r.2.lost

structure HandedBack (destination : EndpointId) (given : List ObjectId) (k : Kernel cfg σ)
    (reports : List (ObjectId × Reclaimed)) (k' : Kernel cfg σ) : Prop where
  devices : k'.devices = k.devices
  processes : k'.processes = k.processes
  queue : ∃ news, k'.queued destination.peer = k.queued destination.peer ++ news ∧
    ∀ id, k.devices.isQuarantined id = false → news.countP (carries id) + losses id reports = given.count id

theorem handBack_handed (cpu : Fin cfg.maxCpus) (k : Kernel cfg σ) (destination : EndpointId) (obj : ObjectId) :
    HandedBack destination [obj] k [(obj, (k.handBack cpu destination obj).1)]
      (k.handBack cpu destination obj).2 := by
  -- A device that is reported as lost leaves the queue as it is.
  have reported {r : Reclaimed} (lost : r.lost = true) : HandedBack destination [obj] k [(obj, r)] k :=
    ⟨rfl,rfl,[],by simp,fun id _ => by simp [losses, lost, count_cons]⟩
  unfold handBack
  split
  · rename_i kept
    refine ⟨rfl,rfl,[],by simp,fun id free => ?_⟩
    have other : obj ≠ id := by
      rintro rfl
      rw [kept] at free
      cases free
    simp [losses, other]
  · split
    · exact reported rfl
    rename_i rights _
    split
    · exact reported rfl
    rename_i message added
    have handles : message.handles.items = [⟨obj, rights, false⟩] := Message.handles_of_addHandle added
    rcases k.exec.queue_send cpu destination message with ⟨_,failed⟩ | ⟨done,_,_,before,after,items⟩
    · rw [failed]
      exact reported rfl
    split
    · rename_i sent
      rw [sent] at after
      refine ⟨rfl,rfl,[Stamped.setCorrelation message (k.exec.currentCorrelation cpu)],?_,fun id _ => ?_⟩
      · simp only [queued]
        rw [before, after, map_some, map_some, getD_some, getD_some, items]
      have carried : carries id (Stamped.setCorrelation message (k.exec.currentCorrelation cpu)) =
          decide (obj = id) := by
        show message.handles.items.any _ = _
        rw [handles]
        simp
      simp [losses, Reclaimed.lost, carried, count_cons]
    · rename_i refused sent
      rw [sent] at done
      exact absurd done refused

theorem HandedBack.append (first : HandedBack destination a k reports k₁)
    (second : HandedBack destination b k₁ reports' k₂) :
    HandedBack destination (a ++ b) k (reports ++ reports') k₂ := by
  obtain ⟨early,queue,counts⟩ := first.queue
  obtain ⟨late,queue',counts'⟩ := second.queue
  refine ⟨second.devices.trans first.devices,second.processes.trans first.processes,early ++ late,?_,fun id free => ?_⟩
  · rw [queue', queue, append_assoc]
  have one := counts id free
  have two := counts' id (first.devices ▸ free)
  simp only [losses] at one two ⊢
  rw [countP_append, countP_append, count_append]
  omega

theorem handAllBack_handed (cpu : Fin cfg.maxCpus) (destination : EndpointId) (taken : List HandleEntry)
    (k : Kernel cfg σ) : HandedBack destination (taken.map (·.object)) k (handAllBack cpu k destination taken).1
      (handAllBack cpu k destination taken).2 := by
  induction taken generalizing k with
  | nil => exact ⟨rfl,rfl,[],by simp [handAllBack],fun _ _ => by simp [losses, handAllBack]⟩
  | cons e rest ih => exact (k.handBack_handed cpu destination e.object).append (ih _)

/-- Every device comes back once, and nothing of a device stays with the process. -/
structure ComesBack (slot : Nat) (p : Process cfg) (destination : EndpointId) (k : Kernel cfg σ)
    (reports : List (ObjectId × Reclaimed)) (k' : Kernel cfg σ) : Prop where
  returned : ∃ news, k'.queued destination.peer = k.queued destination.peer ++ news ∧
    ∀ id, k.devices.contains id = true → k.devices.isQuarantined id = false → p.handles.holds id = true →
      news.countP (carries id) + losses id reports = 1
  handles : ∃ p', k'.processes.cell slot = some p' ∧ ∀ id, k.devices.contains id = true → p'.handles.holds id = false
  leases : ∀ id, k'.devices.table.leaseHolderOfObject id ≠ some p.id
  routes : ∀ id, ∀ r ∈ k'.devices.routesOf id, r.holder ≠ p.id

end Kernel

namespace HandleTable

theorem count_slotsNaming (t : HandleTable cfg) {id : ObjectId} (mem : id ∈ wanted) :
    (((t.slotsNaming wanted).filterMap t.slots.cell).map (·.object)).count id = (t.slotsNaming [id]).length := by
  have single : t.slotsNaming [id] = (t.slotsNaming wanted).filter (t.names [id]) := by
    unfold slotsNaming
    rw [List.filter_filter]
    refine filter_congr fun i _ => ?_
    unfold names
    cases t.slots.cell i with
    | none => rfl
    | some e =>
      by_cases same : e.object = id
      · simp [same, mem]
      · simp [same]
  rw [single, List.count, countP_map, countP_filterMap, ← countP_eq_length_filter]
  refine countP_congr fun i _ => ?_
  unfold names
  cases t.slots.cell i with
  | none => simp
  | some => simp

theorem holds_reclaim {t : HandleTable cfg} {wanted : List ObjectId} {room : Nat} :
    (∀ id ∈ wanted, (t.reclaim wanted room).2.holds id = false) ↔ (t.slotsNaming wanted).length ≤ room := by
  rw [reclaim_eq]
  constructor
  · intro gone
    by_contra more
    rw [Nat.not_le] at more
    -- The first slot there was no room for still has its handle.
    obtain ⟨e,here,mem⟩ := mem_slotsNaming.mp (getElem_mem more)
    have left : (t.slotsNaming wanted)[room] ∉ (t.slotsNaming wanted).take room := by
      intro early
      obtain ⟨_,_,same⟩ := mem_take_iff_getElem.mp early
      have index := (t.slotsNaming_nodup wanted).getElem_inj_iff.mp same
      omega
    have still := gone e.object mem
    rw [← Bool.not_eq_true, holds_iff] at still
    refine still ⟨(t.slotsNaming wanted)[room],e,?_,rfl⟩
    rw [cell_vacateAll, if_neg left]
    exact here
  · intro fits _ mem
    rw [take_of_length_le fits, ← Bool.not_eq_true, holds_iff]
    rintro ⟨_,e,here,rfl⟩
    rw [cell_vacateAll] at here
    split at here
    · cases here
    · rename_i other
      exact other (mem_slotsNaming.mpr ⟨e,here,mem⟩)

end HandleTable

namespace Kernel

/-- Every device of a dead process comes back exactly if the handles to devices fit in
    one message and no device is held twice. -/
theorem every_device_comes_back_iff (cpu : Fin cfg.maxCpus) (k : Kernel cfg σ) (distinct : k.devices.Distinct)
    (slot : Nat) (p : Process cfg) (here : k.processes.cell slot = some p) (destination : EndpointId) :
    ComesBack slot p destination k (k.reclaimDevices cpu slot p destination).1
        (k.reclaimDevices cpu slot p destination).2 ↔
      (p.handles.slotsNaming k.devices.objects).length ≤ cfg.maxMsgHandles ∧
        ∀ id, k.devices.contains id = true → k.devices.isQuarantined id = false →
          (p.handles.slotsNaming [id]).length ≤ 1 := by
  obtain ⟨leases,unheld⟩ := k.endLeasesOf_ended distinct p.id
  obtain ⟨routes,table⟩ := (k.endLeasesOf p.id).endIrqRoutesOf_winds p.id
  have distinct' : (k.endLeasesOf p.id).devices.Distinct := by
    rw [DeviceGraph.Distinct, leases.objects]
    exact distinct
  have unrouted := (k.endLeasesOf p.id).endIrqRoutesOf_none distinct' p.id
  have winds := leases.trans routes
  unfold reclaimDevices
  dsimp only
  generalize (k.endLeasesOf p.id).endIrqRoutesOf p.id = k₁ at *
  rw [winds.objects]
  have none_left := @HandleTable.holds_reclaim cfg p.handles k.devices.objects cfg.maxMsgHandles
  have taken := p.handles.reclaim_eq k.devices.objects cfg.maxMsgHandles
  cases reclaimed : p.handles.reclaim k.devices.objects cfg.maxMsgHandles with
  | mk entries handles =>
    rw [reclaimed] at none_left taken
    have handed := handAllBack_handed cpu destination entries
      { k₁ with processes := k₁.processes.put slot { p with handles } }
    generalize handAllBack cpu { k₁ with processes := k₁.processes.put slot { p with handles } } destination entries =
      result at handed ⊢
    obtain ⟨reports,k'⟩ := result
    have own : k'.processes.cell slot = some { p with handles } := by
      rw [handed.processes]
      show (k₁.processes.put slot _).cell slot = _
      rw [winds.processes, Slots.cell_put_self _ (Slots.lt_of_cell here)]
    have queue : ({ k₁ with processes := k₁.processes.put slot { p with handles } } : Kernel cfg σ).queued
        destination.peer = k.queued destination.peer := by
      rw [queued, queued, winds.channels]
    obtain ⟨news,appended,counts⟩ := handed.queue
    rw [queue] at appended
    have all (fits : (p.handles.slotsNaming k.devices.objects).length ≤ cfg.maxMsgHandles) (id : ObjectId)
        (present : k.devices.contains id = true) (free : k.devices.isQuarantined id = false) :
        news.countP (carries id) + losses id reports = (p.handles.slotsNaming [id]).length := by
      have count := counts id ((winds.isQuarantined id).trans free)
      rw [(Prod.mk.inj taken).1, take_of_length_le fits,
        p.handles.count_slotsNaming (contains_iff.mp present)] at count
      exact count
    constructor
    · intro back
      have fits := none_left.mp fun id mem => by
        obtain ⟨_,there,gone⟩ := back.handles
        rw [own, Option.some.injEq] at there
        rw [← there] at gone
        exact gone id (contains_iff.mpr mem)
      refine ⟨fits,fun id present free => ?_⟩
      cases held : p.handles.holds id with
      | false =>
        have none : p.handles.slotsNaming [id] = [] := by
          by_contra some
          rw [HandleTable.holds_iff_slotsNaming.mpr some] at held
          cases held
        simp [none]
      | true =>
        obtain ⟨_,appended',once⟩ := back.returned
        rw [appended, append_cancel_left_eq] at appended'
        rw [← all fits id present free, appended', once id present free held]
    · rintro ⟨fits,single⟩
      refine ⟨⟨news,appended,fun id present free held => ?_⟩,⟨_,own,fun id present => ?_⟩,fun id => ?_,fun id => ?_⟩
      · have some := length_pos_iff.mpr (HandleTable.holds_iff_slotsNaming.mp held)
        have one := single id present free
        have count := all fits id present free
        dsimp only
        omega
      · exact none_left.mpr fits id (contains_iff.mp present)
      · rw [handed.devices]
        show k₁.devices.table.leaseHolderOfObject id ≠ _
        rw [table]
        exact unheld id
      · rw [handed.devices]
        exact unrouted id

def fleet : Config := { Config.minimal with maxDevices := 16 }

def driver (held : List ObjectId) : Process fleet :=
  { Process.new ⟨1⟩ (AddressSpace.fromArch .bare) with
    handles := held.foldl (fun t object => (t.insert object .map).2) .new }

def everyDevice : List ObjectId := [⟨9⟩, ⟨10⟩, ⟨11⟩, ⟨12⟩, ⟨13⟩]

def staffed (held : List ObjectId) : Kernel fleet Unit where
  exec := { (Executive.new .new : Executive (Message fleet) fleet) with channels := ChannelTable.new.create.2 }
  devices := ⟨everyDevice.foldl (fun t id => (t.registerIdentified id 0 4096 .map).2) .new, fun _ => .new⟩
  memory := .new
  processes := Slots.empty.put 0 (driver held)
  iommu := none
  alloc := ()

def firstCpu : Fin fleet.maxCpus := ⟨0, by decide⟩

theorem two_devices_come_back : ComesBack 0 (driver [⟨9⟩, ⟨10⟩]) ⟨0, .zero⟩ (staffed [⟨9⟩, ⟨10⟩])
      ((staffed [⟨9⟩, ⟨10⟩]).reclaimDevices firstCpu 0 (driver [⟨9⟩, ⟨10⟩]) ⟨0, .zero⟩).1
      ((staffed [⟨9⟩, ⟨10⟩]).reclaimDevices firstCpu 0 (driver [⟨9⟩, ⟨10⟩]) ⟨0, .zero⟩).2 := by
  refine (every_device_comes_back_iff firstCpu (staffed [⟨9⟩, ⟨10⟩])
    (show DeviceGraph.Distinct (staffed []).devices by decide +kernel) 0 (driver [⟨9⟩, ⟨10⟩]) rfl ⟨0, .zero⟩).mpr ?_
  refine ⟨by decide +kernel,fun id present _ => ?_⟩
  have objects : (staffed [⟨9⟩, ⟨10⟩]).devices.objects = everyDevice := by decide +kernel
  have known := contains_iff.mp present
  rw [objects] at known
  have single : ∀ id ∈ everyDevice,
      ((driver [⟨9⟩, ⟨10⟩]).handles.slotsNaming [id]).length ≤ 1 := by decide +kernel
  exact single id known

/-- Of five devices four come back. The fifth stays with the dead process, and nothing
    is reported. -/
theorem fifth_device_is_stranded :
    (((staffed everyDevice).reclaimDevices firstCpu 0 (driver everyDevice) ⟨0, .zero⟩).1.all fun r =>
        r.1 ≠ ⟨13⟩) = true ∧
      ((((staffed everyDevice).reclaimDevices firstCpu 0 (driver everyDevice) ⟨0, .zero⟩).2.queued ⟨0, .one⟩).all
        fun m => !carries ⟨13⟩ m) = true ∧
      (((staffed everyDevice).reclaimDevices firstCpu 0 (driver everyDevice) ⟨0, .zero⟩).2.processes.cell 0).any
        (·.handles.holds ⟨13⟩) = true := by
  decide +kernel

end Kernel
end Tessera
