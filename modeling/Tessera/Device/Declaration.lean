import Tessera.Device.DeviceNodes

/-!
Devices a bus controller puts into the graph. What the controller says of a device is
held against the window of its bus: the configuration slot is computed from the
device's number, the register window must be memory the bus forwards, and the
interrupt must be one of its lines. The ids of declared devices are counted upwards
and never come back. Sums that the source checks are checked here; the shift and the
product it does not check are taken modulo the word, and lose nothing.
-/
namespace Tessera
open DeviceTable Slots
variable {cfg : Config}

def Rights.intersection (a b : Rights) : Rights := ⟨a.bits &&& b.bits⟩

theorem Rights.intersection_isSubsetOf (a b : Rights) : (a.intersection b).isSubsetOf a = true := by
  simp only [intersection, isSubsetOf, beq_iff_eq]
  rw [BitVec.and_comm a.bits, BitVec.and_assoc, BitVec.and_self]

def configSlotLen : Nat := 4096

structure DeclareRequest where
  bdf : UInt16
  registerBase : Nat
  registerLen : Nat
  classCode : Nat
  vendor : Nat
  device : Nat
  revision : Nat
  intid : Nat
  deriving DecidableEq

namespace BusWindow

def firstFunction (w : BusWindow) : Nat := w.firstBus.toNat * 2 ^ 8 % 2 ^ 64

def slotOffset (w : BusWindow) (bdf : UInt16) : Nat := (bdf.toNat - w.firstFunction) * configSlotLen % 2 ^ 64

/-- A bus without configuration space has children that have none. -/
def configSlot (w : BusWindow) (bdf : UInt16) (mmio : Option (Nat × Nat)) : Except KError (Option (Nat × Nat)) :=
  if w.configLen = 0 then .ok none
  else
    match mmio with
    | none => .error .wrongType
    | some (configBase, configLen) =>
      if bdf.toNat < w.firstFunction then .error .invalidArgument
      else
        match checkedAdd (w.slotOffset bdf) configSlotLen with
        | none => .error .invalidArgument
        | some slotEnd =>
          if configLen < slotEnd ∨ w.configLen < slotEnd then .error .invalidArgument
          else
            match checkedAdd configBase (w.slotOffset bdf) with
            | none => .error .invalidArgument
            | some configAt => .ok (some (configAt, configSlotLen))

def registerWindow (w : BusWindow) (base len : Nat) : Except KError (Option (Nat × Nat)) :=
  if len = 0 then .ok none
  else if w.forwardLen = 0 then .error .accessDenied
  else
    match checkedAdd base len, checkedAdd w.forwardCpuBase w.forwardLen with
    | none, _ => .error .invalidArgument
    | some _, none => .error .invalidArgument
    | some stop, some forwardEnd =>
      if base < w.forwardCpuBase ∨ forwardEnd < stop then .error .accessDenied else .ok (some (base, len))

def linePermitted (w : BusWindow) (intid : Nat) : Except KError Unit :=
  if 2 ^ 32 ≤ w.firstIntid + w.intidCount then .error .invalidArgument
  else if w.intidCount = 0 ∨ intid < w.firstIntid ∨ w.firstIntid + w.intidCount ≤ intid then .error .accessDenied
  else .ok ()

theorem firstFunction_eq (w : BusWindow) : w.firstFunction = w.firstBus.toNat * 2 ^ 8 := by
  have small := w.firstBus.toNat_lt
  exact Nat.mod_eq_of_lt (by omega)

theorem slotOffset_eq (w : BusWindow) (bdf : UInt16) :
    w.slotOffset bdf = (bdf.toNat - w.firstBus.toNat * 2 ^ 8) * configSlotLen := by
  have small := bdf.toNat_lt
  unfold slotOffset
  rw [firstFunction_eq]
  refine Nat.mod_eq_of_lt ?_
  unfold configSlotLen
  omega

variable {w : BusWindow} {base len : Nat}

theorem configSlot_ok (ok : w.configSlot bdf mmio = .ok (some (base, len))) :
    ∃ configBase configLen, mmio = some (configBase, configLen) ∧
      base = configBase + (bdf.toNat - w.firstBus.toNat * 2 ^ 8) * configSlotLen ∧
      base + len ≤ configBase + min configLen w.configLen := by
  unfold configSlot at ok
  split at ok
  · cases ok
  split at ok
  · cases ok
  rename_i configBase configLen
  split at ok
  · cases ok
  split at ok
  · cases ok
  rename_i stops
  split at ok
  · cases ok
  split at ok
  · cases ok
  rename_i starts
  cases ok
  rw [slotOffset_eq] at stops starts
  have stop := checkedAdd_eq_some stops
  have start := checkedAdd_eq_some starts
  refine ⟨configBase,configLen,rfl,start,?_⟩
  omega

theorem registerWindow_ok {start size : Nat} (ok : w.registerWindow base len = .ok (some (start, size))) :
    w.forwardCpuBase ≤ start ∧ start + size ≤ w.forwardCpuBase + w.forwardLen := by
  unfold registerWindow at ok
  split at ok
  · cases ok
  split at ok
  · cases ok
  split at ok
  · cases ok
  · cases ok
  rename_i stops ends
  have stop := checkedAdd_eq_some stops
  have forward := checkedAdd_eq_some ends
  split at ok
  · cases ok
  · cases ok
    omega

theorem linePermitted_ok (ok : w.linePermitted intid = .ok ()) :
    w.firstIntid ≤ intid ∧ intid < w.firstIntid + w.intidCount := by
  unfold linePermitted at ok
  split at ok
  · cases ok
  split at ok
  · cases ok
  · omega

end BusWindow

namespace DeviceGraph

section
variable (g : DeviceGraph cfg) (id : ObjectId)

def setMmioIrq (intid : Nat) : Except KError Unit × DeviceGraph cfg :=
  if !g.contains id then (.error .badHandle, g) else (.ok (), g.setState id { g.state id with intid := some intid })

def busWindowOfObject : Option BusWindow :=
  if g.contains id then (g.state id).busWindow else none

def identityOfObject : Option DeviceIdentity :=
  if g.contains id then (g.state id).identity else none

def setBusWindow (window : BusWindow) : Except KError Unit × DeviceGraph cfg :=
  if !g.contains id then (.error .badHandle, g)
  else (.ok (), g.setState id { g.state id with busWindow := some window })

def climbsTo (g : DeviceGraph cfg) (child : ObjectId) : (turns : Nat) → Option ObjectId → Bool
  | 0, _ => false
  | _ + 1, none => false
  | turns + 1, some id => if id = child then true else g.climbsTo child turns (g.parentOf id)

def setParent (child parent : ObjectId) : Except KError Unit × DeviceGraph cfg :=
  if child = parent then (.error .invalidArgument, g)
  else if !g.contains parent then (.error .badHandle, g)
  else if g.climbsTo child cfg.maxDevices (some parent) then (.error .invalidArgument, g)
  else if !g.contains child then (.error .badHandle, g)
  else (.ok (), { g with table := g.table.update child fun n => { n with parent := some parent } })

def registerDeclared (g : DeviceGraph cfg) (object : ObjectId) (register config : Option (Nat × Nat))
    (rights : Rights) (identity : DeviceIdentity) : Except KError Unit × DeviceGraph cfg :=
  match g.table.registerDeclared object register config rights with
  | (.error e, table) => (.error e, { g with table })
  | (.ok (), table) =>
    (.ok (), { table, state := Function.update g.state object { NodeState.new with identity := some identity } })

/-- The id is spent even if the graph is full. -/
def registerNext (register config : Option (Nat × Nat)) (rights : Rights)
    (identity : DeviceIdentity) : Except KError ObjectId × DeviceGraph cfg :=
  match g.table.mintDeclaredId with
  | (.error e, _) => (.error e, g)
  | (.ok object, table) =>
    match { g with table }.registerDeclared object register config rights identity with
    | (.error e, g) => (.error e, g)
    | (.ok (), g) => (.ok object, g)

/-- Line zero is no line. -/
def wireLine (window : BusWindow) (object : ObjectId) (intid : Nat) : Except KError Unit × DeviceGraph cfg :=
  if intid = 0 then (.ok (), g)
  else
    match window.linePermitted intid with
    | .error e => (.error e, g)
    | .ok () => g.setMmioIrq object intid

/-- What is declared on a bus that forwards nothing is such a bus itself. -/
def relay (window : BusWindow) (object : ObjectId) : Except KError Unit × DeviceGraph cfg :=
  if window.configLen = 0 ∧ window.forwardLen = 0 then g.setBusWindow object .default else (.ok (), g)

def grantable : Rights :=
  ((((Rights.read.union .write).union .map).union .transfer).union .configure).union .derive

def declaredIdentity (bus : ObjectId) (r : DeclareRequest) : DeviceIdentity where
  classCode := r.classCode
  vendor := r.vendor
  device := r.device
  bdf := r.bdf.toNat
  revision := r.revision
  bus := ((g.identityOfObject bus).map (·.bus)).getD .pci

/-- The line, the edge to the bus, and the window of a device that is a bus itself. The
    node stays when one of them is refused. -/
def settle (bus : ObjectId) (window : BusWindow) (object : ObjectId) (intid : Nat) :
    Except KError Unit × DeviceGraph cfg :=
  match g.wireLine window object intid with
  | (.error e, g) => (.error e, g)
  | (.ok (), g) =>
    match g.setParent object bus with
    | (.error e, g) => (.error e, g)
    | (.ok (), g) => g.relay window object

def declareBelow (bus : ObjectId) (window : BusWindow) (granted : Rights)
    (r : DeclareRequest) : Except KError ObjectId × DeviceGraph cfg :=
  match window.configSlot r.bdf (g.table.mmioOfObject bus) with
  | .error e => (.error e, g)
  | .ok config =>
    match window.registerWindow r.registerBase r.registerLen with
    | .error e => (.error e, g)
    | .ok register =>
      match g.registerNext register config granted (g.declaredIdentity bus r) with
      | (.error e, g) => (.error e, g)
      | (.ok object, g) =>
        match g.settle bus window object r.intid with
        | (.error e, g) => (.error e, g)
        | (.ok (), g) => (.ok object, g)

def Numbered : Prop := ∀ id ∈ g.objects, id.raw < g.table.nextDeclared

instance (g : DeviceGraph cfg) : Decidable g.Numbered := by
  unfold Numbered
  infer_instance

def SameNodes (g h : DeviceGraph cfg) : Prop :=
  h.objects = g.objects ∧ h.table.nextDeclared = g.table.nextDeclared

end

variable {g h : DeviceGraph cfg} {object bus : ObjectId} {window : BusWindow} {intid : Nat}
  {granted : Rights} {r : DeclareRequest}

theorem Numbered.of_same (same : g.SameNodes h) (numbered : g.Numbered) : h.Numbered := by
  unfold Numbered
  rw [same.1, same.2]
  exact numbered

theorem SameNodes.trans (first : g.SameNodes h) (second : h.SameNodes i) : g.SameNodes i :=
  ⟨second.1.trans first.1,second.2.trans first.2⟩

section
variable (g : DeviceGraph cfg)

theorem wireLine_sameNodes (window : BusWindow) (object : ObjectId) (intid : Nat) :
    g.SameNodes (g.wireLine window object intid).2 := by
  unfold wireLine setMmioIrq
  split
  · exact ⟨rfl,rfl⟩
  split
  · exact ⟨rfl,rfl⟩
  · split <;> exact ⟨rfl,rfl⟩

theorem relay_sameNodes (window : BusWindow) (object : ObjectId) : g.SameNodes (g.relay window object).2 := by
  unfold relay setBusWindow
  split
  · split <;> exact ⟨rfl,rfl⟩
  · exact ⟨rfl,rfl⟩

theorem setParent_sameNodes (child parent : ObjectId) : g.SameNodes (g.setParent child parent).2 := by
  fun_cases g.setParent child parent with
  | case5 => exact ⟨g.table.objects_update child fun _ => rfl,rfl⟩
  | _ => exact ⟨rfl,rfl⟩

theorem settle_sameNodes (bus : ObjectId) (window : BusWindow) (object : ObjectId)
    (intid : Nat) : g.SameNodes (g.settle bus window object intid).2 := by
  have wired := g.wireLine_sameNodes window object intid
  unfold settle
  split
  · rename_i refused
    rwa [refused] at wired
  rename_i g' done
  rw [done] at wired
  have edge := wired.trans (g'.setParent_sameNodes object bus)
  split
  · rename_i refused
    rwa [refused] at edge
  rename_i g'' joined
  rw [joined] at edge
  exact edge.trans (g''.relay_sameNodes window object)

end

def declaredNode (object : ObjectId) (rights : Rights) (register config : Option (Nat × Nat)) : DeviceNode :=
  ⟨object, rights, register, none, none, none, config, none⟩

theorem registerDeclared_cases (t : DeviceTable cfg) (register config : Option (Nat × Nat)) (rights : Rights)
    (fresh : t.find object = none) : (∃ e, t.registerDeclared object register config rights = (.error e, t)) ∨
      ∃ t', t.registerDeclared object register config rights = (.ok (), t') ∧
        t'.find object = some (declaredNode object rights register config) ∧ t'.nextDeclared = t.nextDeclared ∧
        ∀ id ∈ t'.nodes.live.map (·.object), id = object ∨ id ∈ t.nodes.live.map (·.object) := by
  unfold DeviceTable.registerDeclared registerIdentified
  cases room : t.nodes.free? with
  | none => exact .inl ⟨.outOfMemory,rfl⟩
  | some slot =>
    obtain ⟨inside,empty⟩ := free?_eq_some room
    right
    dsimp only
    generalize placed : (⟨object, rights, some ((register.getD (0, 0)).1, (register.getD (0, 0)).2), none, none, none,
      none, none⟩ : DeviceNode) = n
    have named : DeviceTable.named object n = true := by
      rw [← placed]
      simp [DeviceTable.named]
    have found : ({ t with nodes := t.nodes.put slot n } : DeviceTable cfg).find object = some n :=
      find?_put_new inside empty named fresh
    have keeps (m : DeviceNode) :
        ({ m with config, mmio := if register.isNone then none else m.mmio } : DeviceNode).object = m.object := rfl
    rw [found]
    refine ⟨_,rfl,?_,rfl,?_⟩
    · rw [find_update _ _ _ keeps, if_pos rfl, found, ← placed]
      cases register <;> rfl
    intro _ present
    rw [objects_update _ _ keeps] at present
    have perm := (live_put_perm (a := n) inside empty).map (·.object)
    have same : n.object = object := by rw [← placed]
    rw [perm.mem_iff, List.map_cons, List.mem_cons, same] at present
    exact present

theorem mintDeclaredId_cases (t : DeviceTable cfg) : (∃ e, t.mintDeclaredId = (.error e, t)) ∨
      t.mintDeclaredId = (.ok ⟨t.nextDeclared⟩, { t with nextDeclared := t.nextDeclared + 1 }) := by
  unfold mintDeclaredId
  split
  · exact .inr rfl
  · exact .inl ⟨.outOfMemory,rfl⟩

theorem Numbered.fresh (numbered : g.Numbered) : g.table.find ⟨g.table.nextDeclared⟩ = none := by
  by_contra there
  have present := contains_iff.mp (show g.contains ⟨g.table.nextDeclared⟩ = true from Option.isSome_iff_ne_none.mpr there)
  exact absurd (numbered _ present) (Nat.lt_irrefl _)

theorem registerNext_cases (numbered : g.Numbered) (register config : Option (Nat × Nat)) (rights : Rights)
    (identity : DeviceIdentity) :
    (∃ e h, g.registerNext register config rights identity = (.error e, h) ∧ h.Numbered) ∨
      ∃ h, g.registerNext register config rights identity = (.ok ⟨g.table.nextDeclared⟩, h) ∧ h.Numbered ∧
        h.table.find ⟨g.table.nextDeclared⟩ = some (declaredNode ⟨g.table.nextDeclared⟩ rights register config) ∧
        h.state ⟨g.table.nextDeclared⟩ = { NodeState.new with identity := some identity } := by
  unfold registerNext
  rcases mintDeclaredId_cases g.table with ⟨e,full⟩ | minted
  · rw [full]
    exact .inl ⟨e,g,rfl,numbered⟩
  rw [minted]
  dsimp only [registerDeclared]
  have below : ∀ id ∈ g.objects, id.raw < g.table.nextDeclared + 1 :=
    fun id present => Nat.lt_succ_of_lt (numbered id present)
  rcases registerDeclared_cases { g.table with nextDeclared := g.table.nextDeclared + 1 } register config rights
      numbered.fresh with ⟨e,full⟩ | ⟨t,registered,found,next,objects⟩
  · rw [full]
    exact .inl ⟨e,_,rfl,below⟩
  rw [registered]
  refine .inr ⟨_,rfl,?_,found,Function.update_self _ _ _⟩
  intro id present
  rw [next]
  rcases objects id present with same | old
  · rw [same]
    exact Nat.lt_succ_self _
  · exact below id old

theorem wireLine_ok (ok : g.wireLine window object intid = (.ok (), h)) :
    h = g ∨ h = g.setState object { g.state object with intid := some intid } ∧
      window.linePermitted intid = .ok () := by
  unfold wireLine setMmioIrq at ok
  split at ok
  · cases ok
    exact .inl rfl
  split at ok
  · cases ok
  rename_i permitted
  split at ok
  · cases ok
  · cases ok
    exact .inr ⟨rfl,permitted⟩

theorem setParent_ok (ok : g.setParent child parent = (.ok (), h)) :
    h = { g with table := g.table.update child fun n => { n with parent := some parent } } := by
  unfold setParent at ok
  split at ok
  · cases ok
  split at ok
  · cases ok
  split at ok
  · cases ok
  split at ok
  · cases ok
  · cases ok
    rfl

theorem relay_ok (ok : g.relay window object = (.ok (), h)) :
    h = g ∨ h = g.setState object { g.state object with busWindow := some .default } := by
  unfold relay setBusWindow at ok
  split at ok
  · split at ok
    · cases ok
    · cases ok
      exact .inr rfl
  · cases ok
    exact .inl rfl

/-- What a declared device has is part of what its bus has. -/
structure Contained (g : DeviceGraph cfg) (bus : ObjectId) (window : BusWindow) (granted : Rights)
    (h : DeviceGraph cfg) (object : ObjectId) : Prop where
  parent : h.parentOf object = some bus
  config : ∀ base len, h.table.configOfObject object = some (base, len) →
    ∃ start size, g.table.mmioOfObject bus = some (start, size) ∧ start ≤ base ∧
      base + len ≤ start + min size window.configLen
  register : ∀ base len, h.table.mmioOfObject object = some (base, len) →
    window.forwardCpuBase ≤ base ∧ base + len ≤ window.forwardCpuBase + window.forwardLen
  lines : ∀ line, h.knows object line = true → window.firstIntid ≤ line ∧ line < window.firstIntid + window.intidCount
  rights : h.table.rightsOfObject object = some granted

theorem settle_ok (ok : g.settle bus window object intid = (.ok (), h)) :
    h.table = g.table.update object (fun n => { n with parent := some bus }) ∧
      (h.state object).extraIntids = (g.state object).extraIntids ∧
      ((h.state object).intid = (g.state object).intid ∨
        (h.state object).intid = some intid ∧ window.linePermitted intid = .ok ()) := by
  unfold settle at ok
  split at ok
  · cases ok
  rename_i g₁ wired
  split at ok
  · cases ok
  rename_i joined
  have edge := setParent_ok joined
  subst edge
  have relayed : h.table = g₁.table.update object (fun n => { n with parent := some bus }) ∧
      (h.state object).extraIntids = (g₁.state object).extraIntids ∧
      (h.state object).intid = (g₁.state object).intid := by
    rcases relay_ok ok with rfl | rfl
    · exact ⟨rfl,rfl,rfl⟩
    · simp [setState]
  rw [relayed.1, relayed.2.1, relayed.2.2]
  rcases wireLine_ok wired with rfl | ⟨rfl,permitted⟩
  · exact ⟨rfl,rfl,Or.inl rfl⟩
  refine ⟨rfl,?_,Or.inr ⟨?_,permitted⟩⟩
  · simp [setState]
  · simp [setState]

theorem settle_contained {g₁ : DeviceGraph cfg}
    (slot : window.configSlot r.bdf (g.table.mmioOfObject bus) = .ok config)
    (inside : window.registerWindow r.registerBase r.registerLen = .ok register)
    (found : g₁.table.find object = some (declaredNode object granted register config))
    (made : g₁.state object = { NodeState.new with identity := some identity })
    (settled : g₁.settle bus window object r.intid = (.ok (), h)) :
    g.Contained bus window granted h object := by
  obtain ⟨table,extra,line⟩ := settle_ok settled
  have keeps (n : DeviceNode) : ({ n with parent := some bus } : DeviceNode).object = n.object := rfl
  have node : h.table.find object = some { declaredNode object granted register config with parent := some bus } := by
    rw [table, find_update _ _ _ keeps, if_pos rfl, found]
    rfl
  refine ⟨?_,?_,?_,?_,?_⟩
  · rw [parentOf, node]
    rfl
  · intro base len recorded
    have given : config = some (base, len) := by
      rwa [configOfObject, node] at recorded
    rw [given] at slot
    obtain ⟨start,size,mmio,at_slot,fits⟩ := BusWindow.configSlot_ok slot
    exact ⟨start,size,mmio,at_slot ▸ Nat.le_add_right _ _,fits⟩
  · intro base len recorded
    have given : register = some (base, len) := by
      rwa [mmioOfObject, node] at recorded
    rw [given] at inside
    exact BusWindow.registerWindow_ok inside
  · intro n known
    have reached : (h.state object).intid = some n ∨ n ∈ (h.state object).extraIntids.live := by
      simpa using (Bool.and_eq_true_iff.mp known).2
    rw [extra, made] at reached
    rw [made] at line
    rcases line with bare | ⟨wired,permitted⟩
    · rw [bare] at reached
      simp [NodeState.new, mem_live] at reached
    rw [wired] at reached
    have only : n = r.intid := by
      simpa [NodeState.new, mem_live, eq_comm] using reached
    rw [only]
    exact BusWindow.linePermitted_ok permitted
  · rw [rightsOfObject, node]
    rfl

theorem declareBelow_numbered (numbered : g.Numbered) (bus : ObjectId) (window : BusWindow) (granted : Rights)
    (r : DeclareRequest) : (g.declareBelow bus window granted r).2.Numbered := by
  unfold declareBelow
  split
  · exact numbered
  rename_i config _
  split
  · exact numbered
  rename_i register _
  rcases registerNext_cases numbered register config granted (g.declaredIdentity bus r) with
    ⟨e,h,full,ordered⟩ | ⟨g₁,registered,ordered,_⟩
  · rw [full]
    exact ordered
  rw [registered]
  have settled := ordered.of_same (g₁.settle_sameNodes bus window ⟨g.table.nextDeclared⟩ r.intid)
  dsimp only
  split
  · rename_i refused
    rwa [refused] at settled
  · rename_i done
    rwa [done] at settled

theorem declareBelow_ok (numbered : g.Numbered) (ok : g.declareBelow bus window granted r = (.ok object, h)) :
    object = ⟨g.table.nextDeclared⟩ ∧ g.Contained bus window granted h object := by
  unfold declareBelow at ok
  split at ok
  · cases ok
  rename_i config slot
  split at ok
  · cases ok
  rename_i register inside
  rcases registerNext_cases numbered register config granted (g.declaredIdentity bus r) with
    ⟨e,h',full,_⟩ | ⟨g₁,registered,_,found,made⟩
  · rw [full] at ok
    cases ok
  rw [registered] at ok
  dsimp only at ok
  split at ok
  · cases ok
  rename_i settled
  cases ok
  exact ⟨rfl,settle_contained slot inside found made settled⟩

end DeviceGraph
end Tessera
