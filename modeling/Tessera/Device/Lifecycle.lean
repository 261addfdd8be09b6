import Tessera.Device.DeviceNodes
import Tessera.Lib.Transition

/-!
The driver lifecycle: thirteen states, the table of legal edges and the state each
device was last declared in. The device manager declares; the kernel refuses an edge
that does not exist, a claim that does not start where the last one ended, and a
suspend or a resume that the device tree does not permit yet. The records that a
declaration emits are left out.
-/
namespace Tessera
open Option Slots List

inductive DriverState where
  | discovered | matched | starting | probing | active | suspending | suspended | resuming
  | resetting | degraded | stopping | removed | failed
  deriving DecidableEq

namespace DriverState

def successors : DriverState → List DriverState
  | .discovered => [.matched, .removed, .failed]
  | .matched => [.starting, .removed, .failed]
  | .starting => [.probing, .degraded, .stopping, .removed, .failed]
  | .probing => [.active, .degraded, .stopping, .removed, .failed]
  | .active => [.suspending, .resetting, .degraded, .stopping, .removed, .failed]
  | .suspending => [.suspended, .degraded, .removed, .failed]
  | .suspended => [.resuming, .stopping, .degraded, .removed, .failed]
  | .resuming => [.active, .degraded, .removed, .failed]
  | .resetting => [.active, .probing, .failed, .removed]
  | .degraded => [.resetting, .starting, .active, .stopping, .removed, .failed]
  | .stopping => [.removed, .failed]
  | .failed => [.removed, .discovered]
  | .removed => []

def legal (old new : DriverState) : Bool := if old = new then false else old.successors.contains new

def isBound : DriverState → Bool
  | .starting | .probing | .active | .suspending | .suspended | .resuming | .resetting | .degraded => true
  | _ => false

def isDown : DriverState → Bool
  | .suspending | .suspended | .resuming => true
  | _ => false

end DriverState

inductive NeighbourBlock where
  | child (index : Nat) (state : DriverState)
  | parent (state : DriverState)
  deriving DecidableEq

def blockingChild (child : Option DriverState × Nat) : Option NeighbourBlock :=
  child.1.bind fun state =>
    if state.isBound && state ≠ .suspended then some (.child child.2 state) else none

/-- A suspend needs every child suspended, a resume needs the parent back. A neighbour
    without a record or without a driver is in nobody's way. -/
def neighboursPermit (new : DriverState) (children : List (Option DriverState)) (parent : Option DriverState) :
    Except NeighbourBlock Unit :=
  match new with
  | .suspending =>
    match children.zipIdx.findSome? blockingChild with
    | some block => .error block
    | none => .ok ()
  | .resuming =>
    match parent with
    | some state => if state.isBound && state ≠ .active then .error (.parent state) else .ok ()
    | none => .ok ()
  | _ => .ok ()

inductive TransitionError where
  | staleFrom (recorded : DriverState)
  | illegal
  | outOfSpace
  | outOfOrder (neighbour : ObjectId) (state : DriverState)
  deriving DecidableEq

structure Tracked where
  device : ObjectId
  state : DriverState
  deriving DecidableEq

structure LifecycleTable (cfg : Config) where
  tracked : Slots Tracked cfg.maxDevices
  deriving DecidableEq

namespace LifecycleTable
variable {cfg : Config}

def new : LifecycleTable cfg := ⟨.empty⟩

def tracks (device : ObjectId) (t : Tracked) : Bool := t.device = device

def stateOf (t : LifecycleTable cfg) (device : ObjectId) : Option DriverState :=
  (t.tracked.find? (tracks device)).map (·.state)

/-- A first claim must start where nothing precedes it, a later one where the last
    claim ended. -/
def declare (t : LifecycleTable cfg) (device : ObjectId) (old new : DriverState) :
    Except TransitionError Unit × LifecycleTable cfg :=
  if (t.stateOf device).getD .discovered ≠ old then
    (.error (.staleFrom ((t.stateOf device).getD .discovered)), t)
  else if !old.legal new then (.error .illegal, t)
  else if (t.stateOf device).isSome then
    (.ok (), ⟨t.tracked.modify (tracks device) fun e => { e with state := new }⟩)
  else
    match t.tracked.free? with
    | none => (.error .outOfSpace, t)
    | some slot => (.ok (), ⟨t.tracked.put slot ⟨device, new⟩⟩)

def neighbourOf (g : DeviceGraph cfg) (device : ObjectId) : NeighbourBlock → TransitionError
  | .child index state => .outOfOrder ((g.childrenOf device)[index]?.getD ⟨0⟩) state
  | .parent state => .outOfOrder ((g.parentOf device).getD device) state

/-- The device tree's part of the rule is checked before the table of edges. -/
def declareLifecycle (t : LifecycleTable cfg) (g : DeviceGraph cfg) (device : ObjectId)
    (old new : DriverState) : Except TransitionError Unit × LifecycleTable cfg :=
  match neighboursPermit new ((g.childrenOf device).map t.stateOf) ((g.parentOf device).bind t.stateOf) with
  | .error block => (.error (neighbourOf g device block), t)
  | .ok () => t.declare device old new

variable {t : LifecycleTable cfg} {dev : ObjectId} {children : List (Option DriverState)}

theorem stateOf_modify (known : (t.stateOf dev).isSome = true) (state : DriverState) (other : ObjectId) :
    (⟨t.tracked.modify (tracks dev) fun e => { e with state }⟩ : LifecycleTable cfg).stateOf other =
      if other = dev then some state else t.stateOf other := by
  unfold stateOf at known ⊢
  have found : _ = ite _ _ (t.tracked.find? (tracks other)) :=
    t.tracked.find?_modify_key (k := Tracked.device) (f := ({ · with state })) (fun _ => rfl) dev other
  erw [found]
  by_cases same : other = dev
  · subst same
    obtain ⟨_,known⟩ := isSome_iff_exists.mp (isSome_map ▸ known)
    erw [known]
    simp
  · rw [if_neg same, if_neg same]

theorem stateOf_put (unknown : t.stateOf dev = none)
    (free : t.tracked.free? = some slot) (state : DriverState) (other : ObjectId) :
    (⟨t.tracked.put slot ⟨dev, state⟩⟩ : LifecycleTable cfg).stateOf other =
      if other = dev then some state else t.stateOf other := by
  obtain ⟨inside,empty⟩ := free?_eq_some free
  unfold stateOf at unknown ⊢
  by_cases same : other = dev
  · subst same
    rw [if_pos rfl, find?_put_new inside empty (by simp [tracks]) (map_eq_none_iff.mp unknown)]
    rfl
  · rw [if_neg same, find?_put_other inside empty]
    simpa [tracks] using Ne.symm same

theorem declareLifecycle_cases (t : LifecycleTable cfg) (g : DeviceGraph cfg) (dev : ObjectId)
    (old new : DriverState) : (t.declareLifecycle g dev old new).2 = t ∨
      (t.stateOf dev).getD .discovered = old ∧ new ∈ old.successors ∧
      neighboursPermit new ((g.childrenOf dev).map t.stateOf) ((g.parentOf dev).bind t.stateOf) = .ok () ∧
      ∀ other, (t.declareLifecycle g dev old new).2.stateOf other =
        if other = dev then some new else t.stateOf other := by
  unfold declareLifecycle
  split
  · exact .inl rfl
  rename_i permitted
  unfold declare
  split
  · exact .inl rfl
  rename_i fresh
  split
  · exact .inl rfl
  rename_i possible
  have edge : new ∈ old.successors := by
    simp only [Bool.not_eq_true, DriverState.legal] at possible
    split at possible
    · cases possible
    · simpa using possible
  split
  · rename_i known
    exact .inr ⟨not_not.mp fresh,edge,permitted,stateOf_modify known new⟩
  rename_i unknown
  split
  · exact .inl rfl
  · rename_i free
    exact .inr ⟨not_not.mp fresh,edge,permitted,stateOf_put (by simpa using unknown) free new⟩

theorem suspending_permitted (permitted : neighboursPermit .suspending children parent = .ok ()) :
    ∀ state, some state ∈ children → state.isBound = false ∨ state = .suspended := by
  intro _ mem
  unfold neighboursPermit at permitted
  dsimp only at permitted
  split at permitted
  · cases permitted
  rename_i none
  obtain ⟨index,inside,_⟩ := mem_iff_getElem.mp mem
  have there : (children[index], index) ∈ children.zipIdx :=
    mem_iff_getElem.mpr ⟨index,by simpa using inside,by simp⟩
  have free := findSome?_eq_none_iff.mp none _ there
  by_contra blocked
  simp_all [blockingChild]

theorem resuming_permitted
    (permitted : neighboursPermit .resuming children (some state) = .ok ()) : state.isDown = false := by
  cases state <;> simp_all [neighboursPermit, DriverState.isBound, DriverState.isDown]

structure Declaration where
  device : ObjectId
  old : DriverState
  new : DriverState
  deriving DecidableEq

section
variable (g : DeviceGraph cfg)

section
variable (t : LifecycleTable cfg) (d : Declaration)

def perform : LifecycleTable cfg :=
  (t.declareLifecycle g d.device d.old d.new).2

def Step (t' : LifecycleTable cfg) : Prop := some (t.perform g d) = some t'

def ParentDown (device : ObjectId) : Prop :=
  ((g.parentOf device).bind t.stateOf).any (·.isDown) = true

/-- A driver is not started, and a degraded device not brought back, under a parent
    that is down. -/
def WaitsForParent : Prop :=
  (d.old = .matched ∨ d.old = .degraded) → (d.new = .starting ∨ d.new = .resetting ∨ d.new = .active) →
    ¬ t.ParentDown g d.device

instance (t : LifecycleTable cfg) (d : Declaration) : Decidable (t.WaitsForParent g d) := by
  unfold WaitsForParent ParentDown
  infer_instance

def Quiet (state : DriverState) : Prop := state.isBound = false ∨ state = .suspended ∨ state = .degraded

instance (state : DriverState) : Decidable (Quiet state) := by
  unfold Quiet
  infer_instance

def Ordered : Prop :=
  ∀ device parent up state, g.parentOf device = some parent → t.stateOf parent = some up → up.isDown = true →
    t.stateOf device = some state → Quiet state

end

end

theorem quiet_edge {old new : DriverState} (quiet : Quiet old) (edge : new ∈ old.successors) :
    Quiet new ∨ new = .resuming ∨
      (old = .matched ∨ old = .degraded) ∧ (new = .starting ∨ new = .resetting ∨ new = .active) := by
  revert quiet edge
  cases old <;> cases new <;> decide

theorem down_edge {old new : DriverState} (edge : new ∈ old.successors) (down : new.isDown = true) :
    new = .suspending ∨ old.isDown = true := by
  revert edge down
  cases old <;> cases new <;> decide

theorem recorded_old (fresh : (t.stateOf dev).getD .discovered = old) (known : old ≠ .discovered) :
    t.stateOf dev = some old := by
  cases now : t.stateOf dev with
  | none =>
    rw [now] at fresh
    exact absurd fresh.symm known
  | some =>
    rw [now] at fresh
    exact congrArg some fresh

theorem Ordered.declare (distinct : g.Distinct) (ordered : t.Ordered g)
    (waits : t.WaitsForParent g d) : (t.perform g d).Ordered g := by
  unfold perform
  rcases t.declareLifecycle_cases g d.device d.old d.new with same | ⟨fresh,edge,permitted,states⟩
  · rw [same]
    exact ordered
  intro dev parent up state below above down recorded
  rw [states] at above recorded
  by_cases moved : dev = d.device
  · rw [if_pos moved, Option.some.injEq] at recorded
    subst recorded moved
    by_cases own : parent = d.device
    · rw [if_pos own, Option.some.injEq] at above
      subst above own
      have itself := (DeviceGraph.mem_childrenOf distinct).mpr (bind_eq_some_iff.mp below)
      rcases down_edge edge down with suspend | later
      · rw [suspend] at edge permitted
        have busy : d.old = .active := by
          revert edge
          cases d.old <;> decide
        have here := recorded_old fresh (by rw [busy]; decide)
        have free := suspending_permitted permitted _ (List.mem_map.mpr ⟨d.device,itself,here⟩)
        rw [busy] at free
        exact absurd free (by decide)
      · have here := recorded_old fresh (by rintro first; rw [first] at later; cases later)
        have quiet := ordered d.device d.device d.old d.old below here later here
        rw [below, bind_some, here] at permitted
        rcases quiet_edge quiet edge with still | resume | ⟨bring,_⟩
        · exact still
        · rw [resume] at permitted
          rw [resuming_permitted permitted] at later
          cases later
        · rcases bring with same | same <;> rw [same] at later <;> cases later
    · rw [if_neg own] at above
      have quiet : Quiet d.old := by
        cases now : t.stateOf d.device with
        | none =>
          rw [now] at fresh
          exact fresh ▸ .inl rfl
        | some s =>
          rw [now] at fresh
          exact fresh ▸ ordered d.device parent up s below above down now
      rw [below, bind_some, above] at permitted
      rcases quiet_edge quiet edge with still | resume | ⟨bring,back⟩
      · exact still
      · rw [resume] at permitted
        rw [resuming_permitted permitted] at down
        cases down
      · refine absurd ?_ (waits bring back)
        rw [ParentDown, below, bind_some, above]
        exact down
  · rw [if_neg moved] at recorded
    by_cases bus : parent = d.device
    · rw [if_pos bus, Option.some.injEq] at above
      subst above bus
      rcases down_edge edge down with suspend | later
      · rw [suspend] at permitted
        have child := (DeviceGraph.mem_childrenOf distinct).mpr (bind_eq_some_iff.mp below)
        have free := suspending_permitted permitted state (List.mem_map.mpr ⟨dev,child,recorded⟩)
        exact free.imp_right .inl
      · have here := recorded_old fresh (by rintro first; rw [first] at later; cases later)
        exact ordered dev d.device d.old state below here later recorded
    · rw [if_neg bus] at above
      exact ordered dev parent up state below above down recorded

/-- Along every run in which starting and bringing back wait for the parent, no device
    is recorded active below a parent that is suspending, suspended or resuming. -/
theorem suspend_order_holds {g : DeviceGraph cfg} (distinct : g.Distinct) {history : List Declaration}
    {t : LifecycleTable cfg} (run : Transition.Disciplined (fun _ => WaitsForParent g) (Step g) new history t) :
    ∀ device parent up, g.parentOf device = some parent → t.stateOf parent = some up → up.isDown = true →
      t.stateOf device ≠ some .active := by
  have ordered : t.Ordered g := by
    refine run.invariant (fun _ t => t.Ordered g) ?_ ?_
    · intro _ _ _ _ kept waits step
      cases step
      exact kept.declare distinct waits
    · intro device parent up _ _ above
      simp [new, stateOf, find?_eq_live, Slots.live, Slots.empty] at above
  intro device parent up below above down active
  have quiet := ordered device parent up .active below above down active
  revert quiet
  decide

def bus : DeviceGraph .default :=
  ⟨((DeviceTable.new.registerIdentified ⟨9⟩ 0 4096 .map).2.registerIdentified ⟨10⟩ 4096 4096 .map).2.update ⟨10⟩
    fun n => { n with parent := some ⟨9⟩ }, fun _ => .new⟩

def bringUp (device : ObjectId) : List Declaration :=
  [⟨device, .discovered, .matched⟩, ⟨device, .matched, .starting⟩, ⟨device, .starting, .probing⟩,
    ⟨device, .probing, .active⟩]

def sleep (device : ObjectId) : List Declaration :=
  [⟨device, .active, .suspending⟩, ⟨device, .suspending, .suspended⟩]

theorem leaf_first_is_ordered :
    ∃ t : LifecycleTable .default, Transition.Disciplined (fun _ => WaitsForParent bus) (Step bus) new
        (bringUp ⟨9⟩ ++ bringUp ⟨10⟩ ++ sleep ⟨10⟩ ++ sleep ⟨9⟩) t ∧
      t.stateOf ⟨9⟩ = some .suspended ∧ t.stateOf ⟨10⟩ = some .suspended ∧
      ∀ device parent up, bus.parentOf device = some parent → t.stateOf parent = some up → up.isDown = true →
        t.stateOf device ≠ some .active := by
  refine Transition.Disciplined.reaches_then (fun t => t.stateOf ⟨9⟩ = some .suspended ∧ t.stateOf ⟨10⟩ = some .suspended)
    (by decide +kernel) ?_
  rintro _ run ⟨parent,child⟩
  exact ⟨parent,child,suspend_order_holds (by decide +kernel) run⟩

/-- A device that is discovered behind a sleeping bus comes up under it. -/
theorem device_comes_up_under_a_sleeping_bus :
    ∃ t : LifecycleTable .default, Transition.Run (Step bus) new (bringUp ⟨9⟩ ++ sleep ⟨9⟩ ++ bringUp ⟨10⟩) t ∧
      bus.parentOf ⟨10⟩ = some ⟨9⟩ ∧ t.stateOf ⟨9⟩ = some .suspended ∧ t.stateOf ⟨10⟩ = some .active :=
  Transition.Disciplined.reaches (by decide +kernel)

end LifecycleTable
end Tessera
