import Tessera.Memory.MemoryRecords
import Tessera.Memory.Pmem
import Tessera.Ipc.Channel
import Tessera.Ipc.Port
import Tessera.Device.DeviceTable
import Tessera.Lib.Transition

/-!
Object ids across the four tables that mint their own. Each table counts up
from a fixed base, so what separates the tables is how far each counter has
come. Channels and declared devices count from the same base.
-/
namespace Tessera
open DeviceTable List Slots ChannelTable Except Or
open Transition
variable {cfg : Config} {σ : Type} {M : Type}

section Specs
variable [FrameSource σ]

def ChannelTable.Binds (t : ChannelTable M cfg) (id : ObjectId) : Prop :=
  ∃ i c side, t.channels.cell i = some c ∧ c.objects side = some id

variable {t : DeviceTable cfg} {id x object : ObjectId} {rights : Rights}

theorem ChannelTable.create_binds {t : ChannelTable M cfg} (h : t.create.2.Binds id) : t.Binds id := by
  unfold create at h
  split at h
  · exact h
  obtain ⟨i,c,side,hc,hid⟩ := h
  rcases cell_put_cases hc with ⟨_,new⟩ | ⟨_,old⟩
  · rw [new] at hid
    cases hid
  · exact ⟨i,c,side,old,hid⟩

theorem ChannelTable.setEndpointObject_binds {t : ChannelTable M cfg} {new : ObjectId}
    (h : (t.setEndpointObject e new).Binds id) : id = new ∨ t.Binds id := by
  unfold setEndpointObject at h
  split at h
  · exact .inr h
  rename_i d hd
  obtain ⟨i,c,side,hc,hid⟩ := h
  rcases cell_put_cases hc with ⟨_,changed⟩ | ⟨_,old⟩
  · simp only [changed, Channel.setObject] at hid
    by_cases here : side = e.side
    · rw [here, Function.update_self] at hid
      exact .inl (Option.some.inj hid).symm
    · rw [Function.update_of_ne here] at hid
      exact .inr ⟨e.channel,d,side,hd,hid⟩
  · exact .inr ⟨i,c,side,old,hid⟩

theorem ChannelTable.setEndpointObject_nextId (t : ChannelTable M cfg) (e : EndpointId) (id : ObjectId) :
    (t.setEndpointObject e id).nextId = t.nextId := by
  unfold setEndpointObject
  split <;> rfl

theorem ChannelTable.create_nextId (t : ChannelTable M cfg) : t.create.2.nextId = t.nextId := by
  unfold create
  split <;> rfl

theorem ChannelTable.createWithObjects_mints (t : ChannelTable M cfg) :
    ((t.createWithObjects.1.isOk ∧ t.createWithObjects.2.nextId = t.nextId + 2 ∧
      ∀ id, t.createWithObjects.2.Binds id → id = ⟨t.nextId⟩ ∨ id = ⟨t.nextId + 1⟩ ∨ t.Binds id)) ∨
    (t.createWithObjects.1.isOk = false ∧ t.createWithObjects.2.nextId = t.nextId ∧
      ∀ id, t.createWithObjects.2.Binds id → t.Binds id) := by
  have counter := t.create_nextId
  have binds : ∀ id, t.create.2.Binds id → t.Binds id := fun _ h => create_binds h
  unfold createWithObjects
  split
  · rename_i h
    rw [h] at counter binds
    exact .inr ⟨rfl,counter,binds⟩
  rename_i u h
  rw [h] at counter binds
  have same : u.nextId = t.nextId := counter
  refine .inl ⟨rfl,?_,?_⟩
  · simp [setEndpointObject_nextId, same]
  intro id bound
  rcases setEndpointObject_binds bound with h1 | bound
  · rw [h1, same]
    exact .inr (inl rfl)
  rcases setEndpointObject_binds bound with h0 | bound
  · rw [h0, same]
    exact .inl rfl
  · exact .inr (inr (binds id bound))

theorem ChannelTable.endpointOfObject_eq_none {t : ChannelTable M cfg} (h : ¬ t.Binds id) :
    t.endpointOfObject id = none := by
  apply findSome?_eq_none_iff.mpr
  intro i _
  cases hc : t.channels.cell i with
  | none => rfl
  | some c =>
    have free : ∀ side, c.objects side ≠ some id := fun side same => h ⟨i,c,side,hc,same⟩
    simp [free]

def PortTable.Binds (t : PortTable cfg) (id : ObjectId) : Prop :=
  ∃ i p, t.ports.cell i = some p ∧ p.object = some id

theorem PortTable.createWithObject_mints (t : PortTable cfg) :
    ((∃ port, t.createWithObject.1 = .ok (port, ⟨t.nextId⟩)) ∧ t.createWithObject.2.nextId = t.nextId + 1 ∧
      ∀ id, t.createWithObject.2.Binds id → id = ⟨t.nextId⟩ ∨ t.Binds id) ∨
    ((∃ e, t.createWithObject.1 = .error e) ∧ t.createWithObject.2 = t) := by
  unfold createWithObject create
  cases free : t.ports.free? with
  | none => exact .inr ⟨⟨_,rfl⟩,rfl⟩
  | some index =>
    obtain ⟨inside,_⟩ := free?_eq_some free
    have cell : (t.ports.put index .new).cell index = some .new := cell_put_self _ inside _
    simp only [setPortObject, cell]
    refine .inl ⟨⟨_,rfl⟩,trivial,?_⟩
    intro _ bound
    obtain ⟨i,p,hp,hid⟩ := bound
    rcases cell_put_cases hp with ⟨_,new⟩ | ⟨_,old⟩
    · rw [new] at hid
      exact .inl (Option.some.inj hid).symm
    rcases cell_put_cases old with ⟨_,new⟩ | ⟨_,old⟩
    · rw [new] at hid
      cases hid
    · exact .inr ⟨i,p,old,hid⟩

theorem PortTable.portOfObject_eq_none {t : PortTable cfg} (h : ¬ t.Binds id) : t.portOfObject id = none := by
  have missing : t.ports.index? (fun p => p.object = some id) = none := by
    rw [index?_eq_none]
    intro i p hp
    have other : p.object ≠ some id := fun same => h ⟨i,p,hp,same⟩
    simp [other]
  rw [portOfObject, missing]
  rfl

def DeviceTable.Registers (t : DeviceTable cfg) (id : ObjectId) : Prop :=
  ∃ i n, t.nodes.cell i = some n ∧ n.object = id

theorem DeviceTable.find_eq_none (h : ¬ t.Registers id) : t.find id = none := by
  rw [find, Slots.find?_eq_none]
  intro i n hn
  have other : n.object ≠ id := fun same => h ⟨i,n,hn,same⟩
  simp [named, other]

theorem DeviceTable.update_registers (keeps : ∀ n, (f n).object = n.object)
    (h : (t.update id f).Registers x) : t.Registers x := by
  obtain ⟨i,n,hn,same⟩ := h
  rcases cell_modify_cases hn with old | ⟨m,hm,_,changed⟩
  · exact ⟨i,n,old,same⟩
  · exact ⟨i,m,hm,by rw [← same, changed, keeps]⟩

theorem DeviceTable.registerIdentified_registers
    (h : (t.registerIdentified object base len rights).2.Registers x) : x = object ∨ t.Registers x := by
  unfold registerIdentified at h
  split at h
  · exact .inr h
  obtain ⟨i,n,hn,same⟩ := h
  rcases cell_put_cases hn with ⟨_,new⟩ | ⟨_,old⟩
  · rw [new] at same
    exact .inl same.symm
  · exact .inr ⟨i,n,old,same⟩

theorem DeviceTable.registerIdentified_next (t : DeviceTable cfg) (object : ObjectId) (base len : Nat)
    (rights : Rights) : (t.registerIdentified object base len rights).2.nextDeclared = t.nextDeclared := by
  unfold registerIdentified
  split <;> rfl

theorem DeviceTable.registerDeclared_registers
    (h : (t.registerDeclared object register config rights).2.Registers x) : x = object ∨ t.Registers x := by
  unfold registerDeclared at h
  rcases hpair : register.getD (0, 0) with ⟨base,len⟩
  have registers : ∀ y, (t.registerIdentified object base len rights).2.Registers y →
      y = object ∨ t.Registers y := fun _ h => registerIdentified_registers h
  simp only [hpair] at h
  split at h
  · rename_i hu
    rw [hu] at registers
    exact registers x h
  rename_i u hu
  rw [hu] at registers
  split at h
  · exact registers x h
  have kept : u.Registers x := by
    refine update_registers (f := fun n =>
      { n with config, mmio := if register.isNone then none else n.mmio }) ?_ h
    intro _
    rfl
  exact registers x kept

theorem DeviceTable.registerDeclared_next (t : DeviceTable cfg) (object : ObjectId)
    (register config : Option (Nat × Nat)) (rights : Rights) :
    (t.registerDeclared object register config rights).2.nextDeclared = t.nextDeclared := by
  unfold registerDeclared
  rcases hpair : register.getD (0, 0) with ⟨base,len⟩
  have next := t.registerIdentified_next object base len rights
  simp only
  split
  · rename_i hu
    rw [hu] at next
    exact next
  rename_i hu
  rw [hu] at next
  split
  · exact next
  · exact next

theorem DeviceTable.remove_registers (h : (t.remove id).2.Registers x) : t.Registers x := by
  unfold remove at h
  split at h
  · exact h
  rename_i slot _
  obtain ⟨i,_,hn,same⟩ := h
  simp only [Slots.cell, getElem?_map] at hn
  cases hc : (t.nodes.clear slot).cells[i]? with
  | none => simp [hc] at hn
  | some c =>
    cases c with
    | none => simp [hc] at hn
    | some m =>
      have old : t.nodes.cell i = some m := (cell_clear_cases (i := slot) (by simp [Slots.cell, hc])).2
      simp only [hc, Option.map_some, Option.join_some, Option.some.injEq] at hn
      refine ⟨i,m,old,?_⟩
      rw [← same, ← hn]
      split <;> rfl

theorem DeviceTable.remove_next (t : DeviceTable cfg) (id : ObjectId) :
    (t.remove id).2.nextDeclared = t.nextDeclared := by
  unfold remove
  split <;> rfl

theorem ChannelTable.createWithObjects_ids {t : ChannelTable M cfg} (h : t.createWithObjects.1 = .ok (end0, end1)) :
    [end0, end1].filterMap t.createWithObjects.2.endpointObject = [⟨t.nextId⟩, ⟨t.nextId + 1⟩] := by
  unfold createWithObjects create at h ⊢
  cases free : t.channels.free? with
  | none => simp [free] at h
  | some =>
    obtain ⟨inside,_⟩ := free?_eq_some free
    simp only [free] at h
    obtain ⟨rfl,rfl⟩ := h
    simp [setEndpointObject, endpointObject, cell_put_self, inside, Channel.setObject]

end Specs

inductive Minter where
  | memory | channel | port | device
  deriving DecidableEq

/-- The four tables and a record of every id they returned. -/
structure ObjectTables (M : Type) (cfg : Config) (σ : Type) where
  memory : MemoryTable cfg
  channels : ChannelTable M cfg
  ports : PortTable cfg
  devices : DeviceTable cfg
  source : σ
  minted : List (Minter × ObjectId)

inductive ObjectAction where
  | memoryCreate (owner : ObjectId) (pages : Nat) (placement : Placement)
  | memoryCreatePaged (owner : ObjectId) (pages : Nat) (pager : ObjectId)
  | memoryDestroy (object : ObjectId)
  | channelCreate
  | portCreate
  | deviceMint
  | deviceDeclare (register config : Option (Nat × Nat)) (rights : Rights)
  | deviceLease (device holder : ObjectId) (aperture : DeviceAperture) (expiresAt : Option Nat)
  | deviceRemove (device : ObjectId)

namespace ObjectTables

section
variable (s : ObjectTables M cfg σ)

def fresh (source : σ) : ObjectTables M cfg σ := ⟨.new, .new, .new, .new, source, []⟩

def returned {α : Type} (m : Minter) (ids : α → List ObjectId) : Except KError α → List (Minter × ObjectId)
  | .ok a => (ids a).map fun id => (m, id)
  | .error _ => []

def perform [FrameSource σ] (s : ObjectTables M cfg σ) : ObjectAction → ObjectTables M cfg σ
  | .memoryCreate owner pages placement =>
    let (r, memory, source) := s.memory.create owner pages placement s.source
    { s with memory, source, minted := s.minted ++ returned .memory ([·]) r }
  | .memoryCreatePaged owner pages pager =>
    let (r, memory) := s.memory.createPaged owner pages pager
    { s with memory, minted := s.minted ++ returned .memory ([·]) r }
  | .memoryDestroy object =>
    let (_, memory, source) := s.memory.destroy object s.source
    { s with memory, source }
  | .channelCreate =>
    let (r, channels) := s.channels.createWithObjects
    { s with channels, minted := s.minted ++
        returned .channel (fun ends => [ends.1, ends.2].filterMap channels.endpointObject) r }
  | .portCreate =>
    let (r, ports) := s.ports.createWithObject
    { s with ports, minted := s.minted ++ returned .port ([·.2]) r }
  | .deviceMint =>
    let (r, devices) := s.devices.mintDeclaredId
    { s with devices, minted := s.minted ++ returned .device ([·]) r }
  | .deviceDeclare register config rights =>
    match s.devices.mintDeclaredId with
    | (.error _, devices) => { s with devices }
    | (.ok object, devices) =>
      { s with
        devices := (devices.registerDeclared object register config rights).2
        minted := s.minted ++ [(.device, object)] }
  | .deviceLease device holder aperture expiresAt =>
    { s with devices := (s.devices.setAperture device holder aperture expiresAt).2 }
  | .deviceRemove device => { s with devices := (s.devices.remove device).2 }

def Step [FrameSource σ] (s : ObjectTables M cfg σ) (a : ObjectAction) (t : ObjectTables M cfg σ) : Prop :=
  t = s.perform a

def baseOf : Minter → Nat
  | .memory => memoryObjectIdBase
  | .channel => channelObjectIdBase
  | .port => portObjectIdBase
  | .device => declaredDeviceIdBase

def nextOf : Minter → Nat
  | .memory => s.memory.nextId
  | .channel => s.channels.nextId
  | .port => s.ports.nextId
  | .device => s.devices.nextDeclared

def Unambiguous : Prop := (s.minted.map Prod.snd).Nodup

/-- Ids of channel ends, ports and memory objects name no device, and ids of
    devices name no channel end and no port. -/
def KindsResolve : Prop :=
  (∀ m id, (m, id) ∈ s.minted → m ≠ .device →
    s.devices.mmioOfObject id = none ∧ s.devices.configOfObject id = none ∧ s.devices.apertureOfObject id = none) ∧
  ∀ id, (.device, id) ∈ s.minted → s.channels.endpointOfObject id = none ∧ s.ports.portOfObject id = none

def RangesApart : Prop :=
  ∀ m m', m ≠ m' → s.nextOf m ≤ baseOf m ∨ s.nextOf m' ≤ baseOf m' ∨ s.nextOf m ≤ baseOf m' ∨ s.nextOf m' ≤ baseOf m

def Owned (m : Minter) (id : ObjectId) : Prop :=
  baseOf m ≤ id.raw ∧ id.raw < s.nextOf m

/-- What was returned is exactly what the counters went past, and a table binds
    only ids of its own. -/
structure Ledger (s : ObjectTables M cfg σ) : Prop where
  based : ∀ m, baseOf m ≤ s.nextOf m
  once : s.minted.Nodup
  exact_ids : ∀ m id, (m, id) ∈ s.minted ↔ s.Owned m id
  channels_own : ∀ id, s.channels.Binds id → s.Owned .channel id
  ports_own : ∀ id, s.ports.Binds id → s.Owned .port id
  devices_own : ∀ id, s.devices.Registers id → s.Owned .device id

end

theorem ledger_fresh (src : σ) : Ledger (fresh src : ObjectTables M cfg σ) := by
  refine ⟨?_,nodup_nil,?_,?_,?_,?_⟩
  · intro m
    cases m <;> exact Nat.le_refl _
  · intro m id
    have none : ¬ (fresh src : ObjectTables M cfg σ).Owned m id := by
      rintro ⟨low,high⟩
      cases m <;> exact absurd high (Nat.not_lt.mpr low)
    constructor
    · intro mem
      simp [fresh] at mem
    · intro owned
      exact absurd owned none
  · rintro _ ⟨_,_,_,hc,_⟩
    simp [fresh, ChannelTable.new] at hc
  · rintro _ ⟨_,_,hp,_⟩
    simp [fresh, PortTable.new] at hp
  · rintro _ ⟨_,_,hn,_⟩
    simp [fresh, DeviceTable.new] at hn

variable {s t : ObjectTables M cfg σ}

/-- Ranges without a common id: an id that two tables went past names one table. -/
theorem owner_unique (apart : RangesApart s) {id : ObjectId} (owned : s.Owned m id)
    (owned' : s.Owned m' id) : m = m' := by
  by_contra different
  obtain ⟨_,_⟩ := owned
  obtain ⟨_,_⟩ := owned'
  rcases apart m m' different with h | h | h | h <;> omega

section
variable (ledger : Ledger s)
include ledger

theorem Ledger.mint (m : Minter) (k : Nat) (next : t.nextOf m = s.nextOf m + k)
    (others : ∀ m', m' ≠ m → t.nextOf m' = s.nextOf m')
    (minted : t.minted = s.minted ++ (List.range' (s.nextOf m) k).map fun n => (m, ⟨n⟩))
    (channels : ∀ id, t.channels.Binds id → s.channels.Binds id ∨ t.Owned .channel id)
    (ports : ∀ id, t.ports.Binds id → s.ports.Binds id ∨ t.Owned .port id)
    (devices : ∀ id, t.devices.Registers id → s.devices.Registers id ∨ t.Owned .device id) : Ledger t := by
  have grows : ∀ m', s.nextOf m' ≤ t.nextOf m' := by
    intro m'
    by_cases same : m' = m
    · rw [same]
      omega
    · rw [others m' same]
  have keeps : ∀ m' id, s.Owned m' id → t.Owned m' id := by
    intro m' id owned
    exact ⟨owned.1,lt_of_lt_of_le owned.2 (grows m')⟩
  have fresh_ids : ∀ m' id, (m', id) ∈ (List.range' (s.nextOf m) k).map (fun n => (m, (⟨n⟩ : ObjectId))) ↔
      m' = m ∧ s.nextOf m ≤ id.raw ∧ id.raw < s.nextOf m + k := by
    intro m' id
    simp only [mem_map, mem_range'_1, Prod.mk.injEq]
    constructor
    · intro h
      obtain ⟨_,inside,rfl,rfl⟩ := h
      exact ⟨rfl,inside⟩
    · intro h
      obtain ⟨rfl,inside⟩ := h
      exact ⟨id.raw,inside,rfl,rfl⟩
  refine ⟨fun m' => (ledger.based m').trans (grows m'),?_,?_,?_,?_,?_⟩
  · rw [minted]
    refine List.Nodup.append ledger.once ?_ ?_
    · have ordered : (List.range' (s.nextOf m) k).Nodup := nodup_range'
      refine ordered.map ?_
      intro _ _ same
      simpa using same
    · intro pair old new
      obtain ⟨m',id⟩ := pair
      obtain ⟨rfl,low,_⟩ := (fresh_ids m' id).mp new
      have := ((ledger.exact_ids m' id).mp old).2
      omega
  · intro m' id
    rw [minted, mem_append, fresh_ids, ledger.exact_ids]
    have base := ledger.based m
    constructor
    · intro h
      rcases h with owned | ⟨rfl,low,high⟩
      · exact keeps m' id owned
      · exact ⟨by omega,by omega⟩
    · intro owned
      by_cases same : m' = m
      · subst same
        obtain ⟨low,high⟩ := owned
        rw [next] at high
        by_cases old : id.raw < s.nextOf m'
        · exact .inl ⟨low,old⟩
        · exact .inr ⟨rfl,by omega,high⟩
      · exact .inl ⟨owned.1,others m' same ▸ owned.2⟩
  · intro id bound
    rcases channels id bound with old | owned
    · exact keeps _ _ (ledger.channels_own id old)
    · exact owned
  · intro id bound
    rcases ports id bound with old | owned
    · exact keeps _ _ (ledger.ports_own id old)
    · exact owned
  · intro id bound
    rcases devices id bound with old | owned
    · exact keeps _ _ (ledger.devices_own id old)
    · exact owned

theorem Ledger.unminted (next : ∀ m, t.nextOf m = s.nextOf m)
    (minted : t.minted = s.minted) (channels : ∀ id, t.channels.Binds id → s.channels.Binds id)
    (ports : ∀ id, t.ports.Binds id → s.ports.Binds id)
    (devices : ∀ id, t.devices.Registers id → s.devices.Registers id) : Ledger t :=
  ledger.mint .memory 0 (next _) (fun m _ => next m) (by simpa using minted)
    (fun id h => inl (channels id h)) (fun id h => inl (ports id h)) (fun id h => inl (devices id h))

theorem ledger_memory {memory : MemoryTable cfg} (source : σ) (made : s.memory.Made owner pages pager r memory) :
    Ledger { s with memory, source, minted := s.minted ++ returned .memory ([·]) r } := by
  have unminted {memory : MemoryTable cfg} (e : KError) (next : memory.nextId = s.memory.nextId) :
      Ledger { s with memory, source, minted := s.minted ++ returned .memory ([·]) (.error e) } := by
    refine ledger.unminted ?_ ?_ (fun _ h => h) (fun _ h => h) (fun _ h => h)
    · intro m
      cases m <;> first | rfl | exact next
    · simp [returned]
  cases made with
  | refused e | returned e => exact unminted e rfl
  | entered _ _ _ _ _ _ _ next =>
    refine ledger.mint .memory 1 next ?_ ?_ (fun _ h => inl h) (fun _ h => inl h) (fun _ h => inl h)
    · intro m other
      cases m <;> first | rfl | exact absurd rfl other
    · simp [returned, nextOf]

theorem ledger_devices {devices : DeviceTable cfg} (next : devices.nextDeclared = s.devices.nextDeclared)
    (kept : ∀ id, devices.Registers id → s.devices.Registers id) : Ledger { s with devices } := by
  refine ledger.unminted ?_ rfl (fun _ h => h) (fun _ h => h) kept
  intro m
  cases m <;> first | rfl | exact next

theorem unambiguous_iff : Unambiguous s ↔ RangesApart s := by
  rw [Unambiguous, nodup_map_iff_inj_on ledger.once]
  constructor
  · intro same m m' different
    by_contra overlap
    simp only [not_or, not_le] at overlap
    obtain ⟨used,used',low,low'⟩ := overlap
    -- the larger of the two bases lies in both ranges
    have mem : ∀ n, (n = m ∨ n = m') → (n, ⟨max (baseOf m) (baseOf m')⟩) ∈ s.minted := by
      intro n which
      apply (ledger.exact_ids n _).mpr
      rcases which with rfl | rfl
      · exact ⟨le_max_left _ _,max_lt used low⟩
      · exact ⟨le_max_right _ _,max_lt low' used'⟩
    have equal := same _ (mem m (inl rfl)) _ (mem m' (inr rfl)) rfl
    exact different (congrArg Prod.fst equal)
  · intro apart p hp q hq same
    obtain ⟨m,id⟩ := p
    obtain ⟨m',_⟩ := q
    cases same
    have owned := (ledger.exact_ids m id).mp hp
    have owned' := (ledger.exact_ids m' id).mp hq
    rw [owner_unique apart owned owned']

theorem kinds_resolve_of_apart (apart : RangesApart s) : KindsResolve s := by
  constructor
  · intro m id mem other
    have owned := (ledger.exact_ids m id).mp mem
    have absent : ¬ s.devices.Registers id := fun registered =>
      other (owner_unique apart owned (ledger.devices_own id registered))
    have missing := find_eq_none absent
    simp [mmioOfObject, configOfObject, apertureOfObject, missing]
  · intro id mem
    have owned := (ledger.exact_ids .device id).mp mem
    constructor
    · apply endpointOfObject_eq_none
      intro bound
      cases owner_unique apart owned (ledger.channels_own id bound)
    · apply PortTable.portOfObject_eq_none
      intro bound
      cases owner_unique apart owned (ledger.ports_own id bound)

end

theorem ledger_step [FrameSource σ] (ledger : Ledger s) (a : ObjectAction) : Ledger (s.perform a) := by
  cases a with
  | memoryCreate owner pages placement =>
    exact ledger_memory ledger _ (s.memory.made_create owner pages placement s.source)
  | memoryCreatePaged owner pages pager =>
    exact ledger_memory ledger s.source (s.memory.made_createPaged owner pages pager)
  | memoryDestroy object =>
    refine ledger.unminted ?_ rfl (fun _ h => h) (fun _ h => h) (fun _ h => h)
    intro m
    cases m <;> first | rfl | exact s.memory.destroy_nextId object s.source
  | channelCreate =>
    simp only [perform]
    rcases s.channels.createWithObjects_mints with ⟨ok,next,binds⟩ | ⟨failed,next,binds⟩
    · cases result : s.channels.createWithObjects.1 with
      | error => simp [result, Except.toBool] at ok
      | ok ends =>
        refine ledger.mint .channel 2 next ?_ ?_ ?_ (fun _ h => inl h) (fun _ h => inl h)
        · intro m other
          cases m <;> first | rfl | exact absurd rfl other
        · have ids := ChannelTable.createWithObjects_ids (show _ = Except.ok (ends.1, ends.2) from result)
          simp only [returned, ids]
          simp [nextOf, List.range']
        intro id bound
        have low := ledger.based .channel
        rcases binds id bound with rfl | rfl | old
        · exact .inr ⟨low,by simp only [nextOf]; omega⟩
        · exact .inr ⟨low.trans (Nat.le_succ _),by simp only [nextOf]; omega⟩
        · exact .inl old
    · cases result : s.channels.createWithObjects.1 with
      | ok => simp [result, Except.toBool] at failed
      | error =>
        refine ledger.unminted ?_ (by simp [returned]) binds (fun _ h => h) (fun _ h => h)
        intro m
        cases m <;> first | rfl | exact next
  | portCreate =>
    simp only [perform]
    rcases s.ports.createWithObject_mints with ⟨⟨_,result⟩,next,binds⟩ | ⟨⟨_,result⟩,same⟩
    · refine ledger.mint .port 1 next ?_ ?_ (fun _ h => inl h) ?_ (fun _ h => inl h)
      · intro m other
        cases m <;> first | rfl | exact absurd rfl other
      · simp [returned, result, nextOf]
      intro id bound
      rcases binds id bound with rfl | old
      · exact .inr ⟨ledger.based .port,by simp only [nextOf]; omega⟩
      · exact .inl old
    · refine ledger.unminted ?_ (by simp [returned, result]) (fun _ h => h) ?_ (fun _ h => h)
      · intro m
        cases m <;> first | rfl | exact congrArg PortTable.nextId same
      · intro id bound
        rwa [same] at bound
  | deviceMint =>
    simp only [perform, mintDeclaredId]
    split
    · refine ledger.mint .device 1 rfl ?_ (by simp [returned, nextOf]) (fun _ h => inl h)
        (fun _ h => inl h) (fun _ h => inl h)
      intro m other
      cases m <;> first | rfl | exact absurd rfl other
    · exact ledger.unminted (fun m => by cases m <;> rfl) (by simp [returned]) (fun _ h => h) (fun _ h => h)
        (fun _ h => h)
  | deviceDeclare =>
    simp only [perform, mintDeclaredId]
    split
    · rename_i h
      split at h <;> cases h
      exact ledger
    rename_i h
    split at h <;> cases h
    refine ledger.mint .device 1 ?_ ?_ (by simp [nextOf]) (fun _ h => inl h) (fun _ h => inl h) ?_
    · exact registerDeclared_next _ _ _ _ _
    · intro m other
      cases m <;> first | rfl | exact absurd rfl other
    intro id bound
    rcases registerDeclared_registers bound with rfl | old
    · refine .inr ⟨ledger.based .device,?_⟩
      rw [nextOf, registerDeclared_next]
      exact Nat.lt_succ_self _
    · exact .inl old
  | deviceLease dev holder aperture expiresAt =>
    refine ledger_devices ledger ?_ ?_
    · unfold setAperture
      split <;> rfl
    intro id bound
    unfold setAperture at bound
    split at bound
    · exact bound
    exact DeviceTable.update_registers (f := fun n => { n with
      aperture := some aperture, leaseHolder := some holder, leaseExpiresAt := expiresAt })
      (fun _ => rfl) bound
  | deviceRemove dev =>
    exact ledger_devices ledger (s.devices.remove_next dev) fun _ => remove_registers

theorem ledger_run [FrameSource σ] (run : Run Step (fresh src) h s) : Ledger s := by
  refine Run.invariant Ledger ?_ (ledger_fresh src) run
  intro _ a _ ledger step
  exact step ▸ ledger_step ledger a

/-- In every run from fresh tables the ids are unambiguous, and resolve as their
    own kind only, exactly as long as the ranges the four counters have gone
    through are apart. -/
theorem ids_unambiguous_iff_ranges_apart [FrameSource σ] {source : σ} {h : List ObjectAction}
    {s : ObjectTables M cfg σ} (run : Run Step (fresh source) h s) :
    (Unambiguous s ∧ KindsResolve s) ↔ RangesApart s := by
  have ledger := ledger_run run
  constructor
  · intro both
    exact (unambiguous_iff ledger).mp both.1
  · intro apart
    exact ⟨(unambiguous_iff ledger).mpr apart,kinds_resolve_of_apart ledger apart⟩

def bootTables : ObjectTables (Message .default) .default (BumpFrameAllocator .default) :=
  fresh (BumpFrameAllocator.new [])

def channelAndPort : ObjectTables (Message .default) .default (BumpFrameAllocator .default) :=
  (bootTables.perform .channelCreate).perform .portCreate

theorem channel_and_port_unambiguous : Unambiguous channelAndPort ∧ KindsResolve channelAndPort := by
  have run : Run Step bootTables [.channelCreate, .portCreate] channelAndPort :=
    ((Run.start bootTables).more (a := ObjectAction.channelCreate) rfl).more rfl
  refine (ids_unambiguous_iff_ranges_apart run).mpr ?_
  intro m m' different
  cases m <;> cases m' <;> first | exact absurd rfl different | decide

/-- A channel and then a declared device: the first end and the device share an
    id, and the end's id resolves to the device's registers. -/
def channelThenDevice : ObjectTables (Message .default) .default (BumpFrameAllocator .default) :=
  (bootTables.perform .channelCreate).perform (.deviceDeclare (some (0xF000, 0x1000)) none Rights.map)

theorem channel_end_names_device : (∃ h, Run Step bootTables h channelThenDevice) ∧ ¬ Unambiguous channelThenDevice ∧
      ¬ KindsResolve channelThenDevice := by
  have run : Run Step bootTables
      [.channelCreate, .deviceDeclare (some (0xF000, 0x1000)) none Rights.map] channelThenDevice :=
    ((Run.start bootTables).more (a := ObjectAction.channelCreate) rfl).more rfl
  refine ⟨⟨_,run⟩,?_,?_⟩
  · unfold Unambiguous
    decide
  · intro resolve
    have window := (resolve.1 .channel ⟨0x2000⟩ (by decide) (by decide)).1
    exact absurd window (by decide)

end ObjectTables
end Tessera
