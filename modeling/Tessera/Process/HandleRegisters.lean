import Tessera.Process.HandleTable

/-!
Handles in registers. A register is wider than a handle, and a value that does not fit
is to be refused, never truncated into range. Most arms of the dispatcher refuse it;
`HandleDuplicate` and `HandleClose` act on its low half. What an arm does once its
handle has led to an endpoint or a port is a parameter.
-/
namespace Tessera
open Except HandleTable

def Rights.signal : Rights := .bit 4
def Rights.bind : Rights := .bit 9

inductive HandleArm where
  | channelSend | channelCall | channelRecv | channelReply | channelReplyRecv
  | portBind (signal : Nat) | portWait | portSignal
  | handleQueryRights | handleDuplicate (requested : Rights) | handleClose

def handleFromArg (raw : Nat) : Except KError Handle :=
  if raw < 2 ^ 32 then .ok (.fromRaw raw) else .error .badHandle

/-- The handle an arm takes its register for. -/
def HandleArm.handle (raw : Nat) : HandleArm → Except KError Handle
  | .handleDuplicate _ | .handleClose => .ok (.fromRaw raw)
  | _ => handleFromArg raw

def HandleArm.need : HandleArm → Rights
  | .channelSend | .channelCall => .write
  | .portBind _ => .bind
  | .portSignal => .signal
  | _ => .read

/-- The answer when the object is no endpoint, or no port. -/
def HandleArm.missing : HandleArm → KError
  | .portBind _ => .wrongType
  | _ => .badHandle

/-- The caller's table, if its thread belongs to a process, and the rest of the kernel:
    the endpoint or port of an object, what is done with it, and what a close gives back. -/
structure DispatchEnv (cfg : Config) (α : Type) where
  handles : Option (HandleTable cfg)
  targetOf : ObjectId → Option α
  proceed : HandleArm → α → HandleTable cfg → Except KError Nat × HandleTable cfg
  released : ObjectId → Nat

namespace DispatchEnv
variable {cfg : Config} {α : Type} (env : DispatchEnv cfg α) (raw : Nat) (arm : HandleArm)

def onTable (nobody : KError) (act : HandleTable cfg → Except KError Nat × HandleTable cfg) :
    Except KError Nat × Option (HandleTable cfg) :=
  match env.handles with
  | none => (.error nobody, none)
  | some t => ((act t).1, some (act t).2)

/-- The channel and port arms: the register is resolved before anything else is read. -/
def resolve (t : HandleTable cfg) : Except KError Nat × HandleTable cfg :=
  match (arm.handle raw).bind t.lookup with
  | .error e => (.error e, t)
  | .ok (object, rights) =>
    if !rights.contains arm.need then (.error .accessDenied, t)
    else
      match env.targetOf object with
      | none => (.error arm.missing, t)
      | some target => env.proceed arm target t

def handleQueryRights (t : HandleTable cfg) : Except KError Nat × HandleTable cfg :=
  (((HandleArm.handleQueryRights.handle raw).bind t.lookup).map (·.2.bits.toNat), t)

def handleDuplicate (requested : Rights) (t : HandleTable cfg) : Except KError Nat × HandleTable cfg :=
  match ((HandleArm.handleDuplicate requested).handle raw).bind t.lookup with
  | .error e => (.error e, t)
  | .ok (object, held) =>
    if !requested.isSubsetOf held then (.error .accessDenied, t)
    else ((t.install object requested).1.map (·.raw), (t.install object requested).2)

/-- Past the drop a close looks after memory and devices, and leaves the table alone. -/
def handleClose (t : HandleTable cfg) : Except KError Nat × HandleTable cfg :=
  match HandleArm.handleClose.handle raw with
  | .error e => (.error e, t)
  | .ok h => ((t.dropHandle h).1.map env.released, (t.dropHandle h).2)

def dispatch : Except KError Nat × Option (HandleTable cfg) :=
  match arm with
  | .portBind signal =>
    if signal < 2 ^ 8 then env.onTable .badHandle (env.resolve raw arm) else (.error .invalidMapping, env.handles)
  | .handleQueryRights => env.onTable .accessDenied (handleQueryRights raw)
  | .handleDuplicate requested => env.onTable .accessDenied (handleDuplicate raw requested)
  | .handleClose => env.onTable .accessDenied (env.handleClose raw)
  | _ => env.onTable .badHandle (env.resolve raw arm)

/-- The arm takes its register for this handle, and the handle is live in the caller's table. -/
def ActsOn (h : Handle) : Prop := arm.handle raw = .ok h ∧ ∃ t, env.handles = some t ∧ ∃ e, t.lookup h = .ok e

/-- Nothing is refused ahead of the register, and the low half of one that is cut short names nothing. -/
def Screened : Prop :=
  match arm with
  | .portBind signal => signal < 2 ^ 8
  | .handleQueryRights => env.handles ≠ none
  | .handleDuplicate _ | .handleClose => ∃ t, env.handles = some t ∧ ∀ e, t.lookup (.fromRaw raw) ≠ .ok e
  | _ => True

variable {env raw arm} {nobody : KError} {act : HandleTable cfg → Except KError Nat × HandleTable cfg}

theorem onTable_refused (same : ∀ t, env.handles = some t → act t = (.error .badHandle, t))
    (told : env.handles = none → nobody = .badHandle) :
    env.onTable nobody act = (.error .badHandle, env.handles) := by
  unfold onTable
  cases there : env.handles with
  | none => rw [told there]
  | some t => simp only [same t there]

theorem lookup_cases (t : HandleTable cfg) (h : Handle) : (∃ e, t.lookup h = .ok e) ∨
    t.lookup h = .error .badHandle ∧ t.dropHandle h = (.error .badHandle, t) := by
  unfold lookup dropHandle
  cases found : t.entry h with
  | ok => exact .inl ⟨_,rfl⟩
  | error e =>
    obtain rfl : e = .badHandle := by
      unfold entry at found
      split at found
      · split at found <;> cases found
        rfl
      · cases found
        rfl
    exact .inr ⟨rfl,rfl⟩

/-- An arm that cuts its register short acts on the low half wherever that is live. -/
theorem truncated_iff (wide : 2 ^ 32 ≤ raw) (low : arm.handle raw = .ok (.fromRaw raw))
    (dead : ∀ t, t.lookup (.fromRaw raw) = .error .badHandle ∧ t.dropHandle (.fromRaw raw) = (.error .badHandle, t) →
      act t = (.error .badHandle, t)) : ((∀ h, env.ActsOn raw arm h → h.raw = raw) ∧
        env.onTable .accessDenied act = (.error .badHandle, env.handles)) ↔
      ∃ t, env.handles = some t ∧ ∀ e, t.lookup (.fromRaw raw) ≠ .ok e := by
  constructor
  · rintro ⟨acts,refused⟩
    cases there : env.handles with
    | none => simp [onTable, there] at refused
    | some t =>
      refine ⟨t,rfl,fun e live => ?_⟩
      have same : raw % 2 ^ 32 = raw := acts _ ⟨low,t,there,e,live⟩
      omega
  · rintro ⟨t,there,gone⟩
    have none : ¬∃ e, t.lookup (.fromRaw raw) = .ok e := fun ⟨e,live⟩ => gone e live
    refine ⟨?_,onTable_refused (fun _ also => ?_) fun empty => ?_⟩
    · rintro _ ⟨taken,_,also,live⟩
      cases low.symm.trans taken
      cases there.symm.trans also
      exact absurd live none
    · cases there.symm.trans also
      exact dead t ((lookup_cases t _).resolve_left none)
    · cases there.symm.trans empty

theorem wide_register_is_refused_iff : (∀ h, env.ActsOn raw arm h → h.raw = raw) ∧
      (2 ^ 32 ≤ raw → env.dispatch raw arm = (.error .badHandle, env.handles)) ↔
    (2 ^ 32 ≤ raw → env.Screened raw arm) := by
  by_cases wide : 2 ^ 32 ≤ raw
  · simp only [wide, true_imp_iff]
    have refused : handleFromArg raw = .error .badHandle := if_neg (by omega)
    have idle (narrow : arm.handle raw = handleFromArg raw) : ∀ h, env.ActsOn raw arm h → h.raw = raw := by
      rintro _ ⟨taken,_⟩
      cases (narrow.trans refused).symm.trans taken
    have resolved (narrow : arm.handle raw = handleFromArg raw) :
        env.onTable .badHandle (env.resolve raw arm) = (.error .badHandle, env.handles) := by
      refine onTable_refused (fun t _ => ?_) fun _ => rfl
      simp [resolve, narrow, refused, Except.bind]
    cases arm with
    | portBind =>
      refine ⟨fun ⟨_,done⟩ => ?_,fun fits => ⟨idle rfl,(if_pos fits).trans (resolved rfl)⟩⟩
      by_contra unfit
      cases (if_neg unfit).symm.trans done
    | handleQueryRights =>
      refine ⟨fun ⟨_,done⟩ nobody => ?_,fun there => ⟨idle rfl,onTable_refused (fun t _ => ?_) fun gone => absurd gone there⟩⟩
      · simp [dispatch, onTable, nobody] at done
      · simp [handleQueryRights, HandleArm.handle, refused, Except.bind, Except.map]
    | handleDuplicate =>
      refine truncated_iff wide rfl fun t gone => ?_
      simp [handleDuplicate, HandleArm.handle, Except.bind, gone.1]
    | handleClose =>
      refine truncated_iff wide rfl fun t gone => ?_
      simp [handleClose, HandleArm.handle, gone.2, Except.map]
    | channelSend | channelCall | channelRecv | channelReply | channelReplyRecv | portWait | portSignal =>
      exact ⟨fun _ => trivial,fun _ => ⟨idle rfl,resolved rfl⟩⟩
  · refine ⟨fun _ => (absurd · wide),fun _ => ⟨?_,(absurd · wide)⟩⟩
    rintro _ ⟨taken,_⟩
    have kept : raw % 2 ^ 32 = raw := Nat.mod_eq_of_lt (Nat.not_le.mp wide)
    have narrow : handleFromArg raw = .ok (.fromRaw raw) := if_pos (Nat.not_le.mp wide)
    cases arm
    all_goals
      simp only [HandleArm.handle, narrow, Except.ok.injEq] at taken
      subst taken
      exact kept

def oneHandle : DispatchEnv .minimal Unit :=
  ⟨some (new.install ⟨9⟩ .read).2, fun _ => none, fun _ _ t => (.ok 0, t), fun _ => 0⟩

theorem wide_register_closes_handle_zero :
    oneHandle.ActsOn (2 ^ 32) .handleClose ⟨0⟩ ∧ (oneHandle.dispatch (2 ^ 32) .handleClose).1 = .ok 0 ∧
      (oneHandle.dispatch (2 ^ 32) .handleClose).2.map (·.lookup ⟨0⟩) = some (.error .badHandle) :=
  ⟨⟨rfl,_,rfl,_,rfl⟩,by decide +kernel,by decide +kernel⟩

end DispatchEnv
end Tessera
