import Tessera.Config
import Tessera.Arch
import Tessera.Object
import Tessera.Lib.Slots

/-!
The device graph, as far as object ids, windows and DMA leases go. A node's
interrupt lines, identity and dependents are not part of this module.
-/
namespace Tessera

/-- The device-visible addresses a lease hands out, in order and never twice. -/
structure DeviceAperture where
  base : Nat
  len : Nat
  next : Nat
  deriving DecidableEq

namespace DeviceAperture

def new (base len : Nat) : DeviceAperture := ⟨base, len, base⟩

def allocate (a : DeviceAperture) (len : Nat) : Option (Nat × DeviceAperture) := do
  let stop ← checkedAdd a.next len
  let limit ← checkedAdd a.base a.len
  if limit < stop then none else some (a.next, { a with next := stop })

def release (a : DeviceAperture) : DeviceAperture := { a with next := a.base }

end DeviceAperture

structure DeviceNode where
  object : ObjectId
  rights : Rights
  mmio : Option (Nat × Nat)
  aperture : Option DeviceAperture
  leaseHolder : Option ObjectId
  leaseExpiresAt : Option Nat
  config : Option (Nat × Nat)
  parent : Option ObjectId
  deriving DecidableEq

def declaredDeviceIdBase : Nat := 0x2000

structure DeviceTable (cfg : Config) where
  nodes : Slots DeviceNode cfg.maxDevices
  nextDeclared : Nat
  deriving DecidableEq

namespace DeviceTable
variable {cfg : Config}

section
variable (t : DeviceTable cfg) (id : ObjectId)

def new : DeviceTable cfg := ⟨.empty, declaredDeviceIdBase⟩

def named (id : ObjectId) (n : DeviceNode) : Bool := n.object = id

def find : Option DeviceNode := t.nodes.find? (named id)

def update (f : DeviceNode → DeviceNode) : DeviceTable cfg :=
  { t with nodes := t.nodes.modify (named id) f }

def mintDeclaredId : Except KError ObjectId × DeviceTable cfg :=
  if t.nextDeclared + 1 < 2 ^ 32 then (.ok ⟨t.nextDeclared⟩, { t with nextDeclared := t.nextDeclared + 1 })
  else (.error .outOfMemory, t)

def registerIdentified (object : ObjectId) (base len : Nat) (rights : Rights) :
    Except KError Unit × DeviceTable cfg :=
  match t.nodes.free? with
  | none => (.error .outOfMemory, t)
  | some slot => (.ok (), { t with
      nodes := t.nodes.put slot ⟨object, rights, some (base, len), none, none, none, none, none⟩ })

def registerDeclared (object : ObjectId) (register config : Option (Nat × Nat))
    (rights : Rights) : Except KError Unit × DeviceTable cfg :=
  let (base, len) := register.getD (0, 0)
  match t.registerIdentified object base len rights with
  | (.error e, t) => (.error e, t)
  | (.ok (), t) =>
    if (t.find object).isNone then (.error .badHandle, t)
    else (.ok (), t.update object fun n =>
      { n with config, mmio := if register.isNone then none else n.mmio })

def mmioOfObject : Option (Nat × Nat) := (t.find id).bind (·.mmio)

def configOfObject : Option (Nat × Nat) := (t.find id).bind (·.config)

def apertureOfObject : Option DeviceAperture :=
  (t.find id).bind (·.aperture)

def leaseHolderOfObject : Option ObjectId :=
  (t.find id).bind (·.leaseHolder)

def rightsOfObject : Option Rights := (t.find id).map (·.rights)

def setAperture (id holder : ObjectId) (aperture : DeviceAperture)
    (expiresAt : Option Nat) : Except KError Unit × DeviceTable cfg :=
  if (t.find id).isNone then (.error .badHandle, t)
  else (.ok (), t.update id fun n =>
    { n with aperture := some aperture, leaseHolder := some holder, leaseExpiresAt := expiresAt })

def allocateInAperture (len : Nat) : Option Nat × DeviceTable cfg :=
  match (t.apertureOfObject id).bind (·.allocate len) with
  | none => (none, t)
  | some (address, aperture) => (some address, t.update id fun n => { n with aperture := some aperture })

def endLease : Option DeviceAperture × DeviceTable cfg :=
  ((t.apertureOfObject id).map (·.release),
    t.update id fun n => { n with leaseHolder := none, leaseExpiresAt := none, aperture := none })

def leasesHeldBy (holder : ObjectId) : List ObjectId :=
  (t.nodes.live.filter fun n => n.leaseHolder = some holder).map (·.object)

def leasesExpiredBy (now : Nat) : List (ObjectId × ObjectId) :=
  t.nodes.live.filterMap fun n =>
    match n.leaseHolder, n.leaseExpiresAt with
    | some holder, some deadline => if n.aperture.isSome ∧ deadline ≤ now then some (n.object, holder) else none
    | _, _ => none

def remove : Bool × DeviceTable cfg :=
  match t.nodes.index? (named id) with
  | none => (false, t)
  | some slot => (true, { t with nodes :=
      ⟨(t.nodes.clear slot).cells.map (·.map fun n =>
        if n.parent = some id then { n with parent := none } else n),
        by simpa using (t.nodes.clear slot).size⟩ })

end

end DeviceTable
end Tessera
