import Tessera.Lib.Transition
import Tessera.Process.Transfer

/-!
Where authority can go. Many processes hold handle tables, messages carry
handles between them, and every handle ever installed is written down in order.
A message in flight may be received by any process or be lost, so every channel
topology is covered. Creation calls and the device graph are the mint: they
install a handle to anything. A process keeps its number after it exits.
-/
namespace Tessera
open HandleTable List

inductive ProcessState where
  | created | running
  | exited (code : Int)
  deriving DecidableEq

structure ProcessHandles (cfg : Config) where
  id : ObjectId
  state : ProcessState
  handles : HandleTable cfg
  present : Bool

structure Birth where
  process : Nat
  entry : HandleEntry
  minted : Bool

structure HandleWorld (cfg : Config) where
  processes : List (ProcessHandles cfg)
  inFlight : List (Message cfg)
  births : List Birth

namespace HandleWorld
variable {cfg : Config}

section
variable (s : HandleWorld cfg) (p : Nat)

def initial : HandleWorld cfg := ⟨[], [], []⟩

def processOfId (id : ObjectId) : Option Nat :=
  s.processes.findIdx? fun r => r.present && r.id == id

def setHandles (t : HandleTable cfg) : HandleWorld cfg :=
  { s with processes := s.processes.modify p fun r => { r with handles := t } }

def bear (es : List HandleEntry) (minted : Bool) : HandleWorld cfg :=
  { s with births := s.births ++ es.map fun e => ⟨p, e, minted⟩ }

def give (t : HandleTable cfg) (e : HandleEntry) (minted : Bool) : HandleWorld cfg :=
  match t.install e.object e.rights with
  | (.ok _, t) => (s.setHandles p t).bear p [e] minted
  | (.error _, _) => s

def mint (e : HandleEntry) : HandleWorld cfg :=
  match s.processes[p]? with
  | none => s
  | some r => s.give p r.handles e true

def handleDuplicate (rawHandle : Nat) (requested : Rights) : HandleWorld cfg :=
  match s.processes[p]? with
  | none => s
  | some r =>
    match r.handles.lookup (.fromRaw rawHandle) with
    | .error _ => s
    | .ok (object, held) =>
      if requested.isSubsetOf held then s.give p r.handles ⟨object, requested⟩ false else s

def replaceRights (s : HandleWorld cfg) (p : Nat) (h : Handle) (newRights : Rights) : HandleWorld cfg :=
  match s.processes[p]? with
  | none => s
  | some r =>
    match r.handles.entry h, r.handles.replaceRights h newRights with
    | .ok e, (.ok (), t) => (s.setHandles p t).bear p [⟨e.object, newRights⟩] false
    | _, _ => s

/-- Building a message for a send, a call or a reply. A failed build may still
    have taken handles out of the sender's table. -/
def send (correlation : Nat) (args : ChannelMsgRequest) (transfer : Bool) : HandleWorld cfg :=
  match s.processes[p]? with
  | none => s
  | some r =>
    match r.handles.buildMessageFromArgs correlation args transfer with
    | (.error _, t) => s.setHandles p t
    | (.ok (m, _), t) => { s.setHandles p t with inFlight := s.inFlight ++ [m] }

def receive (p k : Nat) : HandleWorld cfg :=
  match s.processes[p]?, s.inFlight[k]? with
  | some r, some m =>
    let (reports, t) := r.handles.installTransferredHandles m.handles.items
    { (s.setHandles p t).bear p (arrived m.handles.items reports) false with
      inFlight := s.inFlight.eraseIdx k }
  | _, _ => s

def processGrant (process source : Handle) (rights : Rights) : HandleWorld cfg :=
  match s.processes[p]? with
  | none => s
  | some r =>
    match r.handles.lookup process, r.handles.lookup source with
    | .ok (target, targetRights), .ok (object, held) =>
      if !targetRights.contains Rights.map then s
      else if !held.contains Rights.transfer then s
      else if !rights.isSubsetOf held then s
      else if r.id = target then s
      else
        match s.processOfId target with
        | none => s
        | some q =>
          match s.processes[q]? with
          | none => s
          | some child => if child.state = .created then s.give q child.handles ⟨object, rights⟩ false else s
    | _, _ => s

def handleClose (h : Handle) : HandleWorld cfg :=
  match s.processes[p]? with
  | none => s
  | some r => s.setHandles p (r.handles.dropHandle h).2

end

end HandleWorld

inductive HandleAction where
  | spawn (id : ObjectId)
  | setState (p : Nat) (state : ProcessState)
  | exit (p : Nat) (code : Int)
  | mint (p : Nat) (e : HandleEntry)
  | handleDuplicate (p : Nat) (rawHandle : Nat) (requested : Rights)
  | replaceRights (p : Nat) (h : Handle) (newRights : Rights)
  | send (p : Nat) (correlation : Nat) (args : ChannelMsgRequest) (transfer : Bool)
  | receive (p k : Nat)
  | lose (k : Nat)
  | processGrant (p : Nat) (process source : Handle) (rights : Rights)
  | handleClose (p : Nat) (h : Handle)

def HandleAction.actor : HandleAction → Option Nat
  | .spawn _ | .setState _ _ | .exit _ _ | .lose _ => none
  | .mint p _ | .handleDuplicate p _ _ | .replaceRights p _ _ | .send p _ _ _ | .receive p _
  | .processGrant p _ _ _ | .handleClose p _ => some p

namespace HandleWorld
variable {cfg : Config}

section
variable (s : HandleWorld cfg)

def perform : HandleAction → HandleWorld cfg
  | .spawn id => { s with processes := s.processes ++ [⟨id, .created, .new, true⟩] }
  | .setState p state => { s with processes := s.processes.modify p fun r => { r with state } }
  | .exit p code =>
    { s with processes := s.processes.modify p fun r =>
        { r with state := .exited code, handles := .new, present := false } }
  | .mint p e => s.mint p e
  | .handleDuplicate p rawHandle requested => s.handleDuplicate p rawHandle requested
  | .replaceRights p h newRights => s.replaceRights p h newRights
  | .send p correlation args transfer => s.send p correlation args transfer
  | .receive p k => s.receive p k
  | .lose k => { s with inFlight := s.inFlight.eraseIdx k }
  | .processGrant p process source rights => s.processGrant p process source rights
  | .handleClose p h => s.handleClose p h

def Step (a : HandleAction) (t : HandleWorld cfg) : Prop := t = s.perform a

def Holds (p : Nat) (e : HandleEntry) : Prop :=
  ∃ r, s.processes[p]? = some r ∧ r.handles.Has e

def Narrows (old e : HandleEntry) : Prop := old.object = e.object ∧ e.rights.isSubsetOf old.rights = true

def MayTransfer (e : HandleEntry) : Prop := e.rights.contains Rights.transfer = true

def Delegable (p : Nat) (e : HandleEntry) : Prop :=
  ∃ old, s.Holds p old ∧ Narrows old e ∧ MayTransfer old

def InFlight (e : HandleEntry) : Prop :=
  ∃ m ∈ s.inFlight, ∃ h ∈ m.handles.items, e = ⟨h.object, h.rights⟩

inductive Source (s : HandleWorld cfg) (a : HandleAction) (b : Birth) : Prop where
  | minted : b.minted = true → a = .mint b.process b.entry → Source s a b
  | narrowed (old : HandleEntry) : a.actor = some b.process → s.Holds b.process old →
      Narrows old b.entry → Source s a b
  | received : a.actor = some b.process → s.InFlight b.entry → Source s a b
  | delegated (p : Nat) : a.actor = some p → s.Delegable p b.entry → Source s a b

structure Acts (a : HandleAction) (s t : HandleWorld cfg) (new : List Birth) : Prop where
  births : t.births = s.births ++ new
  held : ∀ p e, t.Holds p e → s.Holds p e ∨ ∃ b ∈ new, b.process = p ∧ b.entry = e
  live : ∀ b ∈ new, t.Holds b.process b.entry
  source : ∀ b ∈ new, Source s a b
  flying : ∀ e, t.InFlight e → s.InFlight e ∨ ∃ p, a.actor = some p ∧ s.Delegable p e

end

variable {a : HandleAction} {s t : HandleWorld cfg} {p q : Nat} {e : HandleEntry} {r : ProcessHandles cfg}

theorem Acts.quiet (births : t.births = s.births) (held : ∀ p e, t.Holds p e → s.Holds p e)
    (flying : ∀ e, t.InFlight e → s.InFlight e) : Acts a s t [] where
  births := by simp [births]
  held p e h := Or.inl (held p e h)
  live b mem := by simp at mem
  source b mem := by simp at mem
  flying e h := Or.inl (flying e h)

theorem Acts.nothing (s : HandleWorld cfg) : Acts a s s [] :=
  Acts.quiet rfl (fun _ _ h => h) (fun _ h => h)

theorem holds_modify (changed : t.processes = s.processes.modify p f) (h : t.Holds q e) :
    (q ≠ p ∧ s.Holds q e) ∨ (q = p ∧ ∃ r, s.processes[p]? = some r ∧ (f r).handles.Has e) := by
  obtain ⟨_,hr,has⟩ := h
  rw [changed, getElem?_modify] at hr
  obtain ⟨old,there,same⟩ := Option.map_eq_some_iff.mp hr
  by_cases here : p = q
  · subst here
    simp only [if_true] at same
    exact .inr ⟨rfl,old,there,same ▸ has⟩
  · simp only [here, if_false] at same
    exact .inl ⟨fun same => here same.symm,old,there,same ▸ has⟩

theorem holds_setHandles {t : HandleTable cfg} (there : s.processes[p]? = some r) (has : t.Has e) :
    (s.setHandles p t).Holds p e := by
  refine ⟨{ r with handles := t },?_,has⟩
  simp [setHandles, there]

theorem holds_of_setHandles {t : HandleTable cfg} {new : HandleEntry → Prop} (there : s.processes[p]? = some r)
    (within : ∀ x, t.Has x → r.handles.Has x ∨ new x) (h : (s.setHandles p t).Holds q e) :
    s.Holds q e ∨ q = p ∧ new e := by
  rcases holds_modify rfl h with other | ⟨rfl,_,there',has⟩
  · exact .inl other.2
  rw [there] at there'
  cases there'
  exact (within e has).imp (fun old => ⟨r,there,old⟩) fun new => ⟨rfl,new⟩

theorem holds_of_shrunk {t : HandleTable cfg} (there : s.processes[p]? = some r)
    (shrinks : ∀ e, t.Has e → r.handles.Has e) (h : (s.setHandles p t).Holds q e) : s.Holds q e :=
  (holds_of_setHandles there (fun x has => (.inl (shrinks x has) : _ ∨ False)) h).resolve_right (·.2)

theorem acts_bear {t : HandleTable cfg} (there : s.processes[p]? = some r)
    (src : Source s a ⟨p, e, minted⟩) (has : t.Has e) (within : ∀ x, t.Has x → r.handles.Has x ∨ x = e) :
    Acts a s ((s.setHandles p t).bear p [e] minted) [⟨p, e, minted⟩] := by
  refine ⟨rfl,fun _ _ h => ?_,forall_mem_singleton.mpr (holds_setHandles there has),forall_mem_singleton.mpr src,
    fun _ => .inl⟩
  rcases holds_of_setHandles there within h with old | ⟨rfl,rfl⟩
  · exact .inl old
  · exact .inr ⟨_,mem_singleton_self _,rfl,rfl⟩

theorem acts_give {minted : Bool} (there : s.processes[p]? = some r) (src : Source s a ⟨p, e, minted⟩) :
    ∃ new, Acts a s (s.give p r.handles e minted) new := by
  unfold give
  split
  · rename_i installed
    exact ⟨_,acts_bear there src ((has_install_ok installed).mpr (.inr rfl)) fun _ => (has_install_ok installed).mp⟩
  · exact ⟨[],Acts.nothing s⟩

section
variable (s : HandleWorld cfg)

theorem acts_mint (p : Nat) (e : HandleEntry) : ∃ new, Acts (.mint p e) s (s.mint p e) new := by
  unfold mint
  split
  · exact ⟨[],Acts.nothing s⟩
  · rename_i there
    exact acts_give there (.minted rfl rfl)

theorem acts_handleDuplicate (p rawHandle : Nat) (requested : Rights) :
    ∃ new, Acts (.handleDuplicate p rawHandle requested) s (s.handleDuplicate p rawHandle requested) new := by
  unfold handleDuplicate
  split
  · exact ⟨[],Acts.nothing s⟩
  rename_i r there
  split
  · exact ⟨[],Acts.nothing s⟩
  rename_i obj held found
  split
  · rename_i sub
    have holds : s.Holds p ⟨obj, held⟩ := ⟨r,there,has_of_lookup found⟩
    exact acts_give there (.narrowed _ rfl holds ⟨rfl,sub⟩)
  · exact ⟨[],Acts.nothing s⟩

theorem acts_replaceRights (p : Nat) (h : Handle) (newRights : Rights) :
    ∃ new, Acts (.replaceRights p h newRights) s (s.replaceRights p h newRights) new := by
  unfold replaceRights
  split
  · exact ⟨[],Acts.nothing s⟩
  rename_i r there
  split
  · rename_i e _ found replaced
    obtain ⟨sub,narrowed,within⟩ := replaceRights_ok found replaced
    have holds : s.Holds p e := ⟨r,there,has_of_entry found⟩
    exact ⟨_,acts_bear there (.narrowed e rfl holds ⟨rfl,sub⟩) narrowed within⟩
  · exact ⟨[],Acts.nothing s⟩

theorem acts_send (p correlation : Nat) (args : ChannelMsgRequest) (transfer : Bool) :
    Acts (.send p correlation args transfer) s (s.send p correlation args transfer) [] := by
  unfold send
  split
  · exact Acts.nothing s
  rename_i r there
  have delegates := r.handles.buildMessageFromArgs_delegates correlation args transfer
  split
  · rename_i t built
    rw [built] at delegates
    exact Acts.quiet rfl (fun _ _ => holds_of_shrunk there delegates.kept) (fun _ h => h)
  rename_i gone t built
  rw [built] at delegates
  have held : ∀ q e, (s.setHandles p t).Holds q e → s.Holds q e :=
    fun _ _ => holds_of_shrunk there delegates.kept
  refine ⟨by simp [setHandles],fun q e h => Or.inl (held q e h),by simp,by simp,?_⟩
  intro _ flying
  obtain ⟨m',mem,h,inside,same⟩ := flying
  rcases mem_append.mp mem with old | this
  · exact .inl ⟨m',old,h,inside,same⟩
  rw [mem_singleton] at this
  subst this
  rcases delegates.carried m' gone rfl h inside with absurd | delegable
  · simp at absurd
  obtain ⟨old,has,obj,sub,may⟩ := delegable
  subst same
  exact .inr ⟨p,rfl,old,⟨r,there,has⟩,⟨obj,sub⟩,may⟩

theorem acts_receive (p k : Nat) : ∃ new, Acts (.receive p k) s (s.receive p k) new := by
  unfold receive
  split
  · rename_i r m there flying
    cases installed : r.handles.installTransferredHandles m.handles.items with
    | mk reports =>
      have holdsIff := has_installTransferredHandles installed
      refine ⟨(arrived m.handles.items reports).map fun e => ⟨p, e, false⟩,rfl,?_,?_,?_,?_⟩
      · intro _ x has
        rcases holds_of_setHandles there (fun x => (holdsIff x).mp) has with old | ⟨rfl,new⟩
        · exact .inl old
        · exact .inr ⟨_,mem_map_of_mem new,rfl,rfl⟩
      · intro _ mem
        obtain ⟨e,inside,same⟩ := mem_map.mp mem
        subst same
        exact holds_setHandles there ((holdsIff e).mpr (Or.inr inside))
      · intro _ mem
        obtain ⟨_,inside,same⟩ := mem_map.mp mem
        subst same
        obtain ⟨h,carried,is⟩ := mem_of_arrived inside
        exact .received rfl ⟨m,mem_of_getElem? flying,h,carried,is⟩
      · intro _ h
        obtain ⟨m',mem,rest⟩ := h
        exact .inl ⟨m',mem_of_mem_eraseIdx mem,rest⟩
  · exact ⟨[],Acts.nothing s⟩

theorem acts_processGrant (p : Nat) (process src : Handle) (rights : Rights) :
    ∃ new, Acts (.processGrant p process src rights) s (s.processGrant p process src rights) new := by
  fun_cases processGrant s p process src rights with
  | case8 =>
    rename_i r there _ _ obj held found _ _ may sub _ _ _ _ childThere _
    rw [Bool.not_eq_true', Bool.not_eq_false] at may sub
    have holds : s.Holds p ⟨obj, held⟩ := ⟨r,there,has_of_lookup found⟩
    exact acts_give childThere (.delegated p rfl ⟨_,holds,⟨rfl,sub⟩,may⟩)
  | _ => exact ⟨[],Acts.nothing s⟩

theorem perform_acts (a : HandleAction) : ∃ new, Acts a s (s.perform a) new := by
  cases a with
  | spawn =>
    refine ⟨[],Acts.quiet rfl ?_ (fun _ h => h)⟩
    intro p e h
    obtain ⟨r,hr,has⟩ := h
    rcases Nat.lt_trichotomy p s.processes.length with inside | last | _
    · exact ⟨r,by simpa [perform, getElem?_append_left inside] using hr,has⟩
    · subst last
      simp only [perform, getElem?_concat_length, Option.some.injEq] at hr
      subst hr
      exact absurd has (not_has_new e)
    · simp only [perform] at hr
      rw [getElem?_eq_none (by simp; omega)] at hr
      cases hr
  | setState | exit =>
    refine ⟨[],Acts.quiet rfl ?_ (fun _ h => h)⟩
    intro _ e h
    rcases holds_modify (s := s) rfl h with other | ⟨same,r,there,has⟩
    · exact other.2
    · first | exact absurd has (not_has_new e) | exact ⟨r,same ▸ there,has⟩
  | mint p e => exact acts_mint s p e
  | handleDuplicate p rawHandle requested => exact acts_handleDuplicate s p rawHandle requested
  | replaceRights p h newRights => exact acts_replaceRights s p h newRights
  | send p correlation args transfer => exact ⟨[],acts_send s p correlation args transfer⟩
  | receive p k => exact acts_receive s p k
  | lose =>
    refine ⟨[],Acts.quiet rfl (fun _ _ h => h) ?_⟩
    intro _ h
    obtain ⟨m,mem,rest⟩ := h
    exact ⟨m,mem_of_mem_eraseIdx mem,rest⟩
  | processGrant p process src rights => exact acts_processGrant s p process src rights
  | handleClose p h =>
    refine ⟨[],?_⟩
    show Acts _ s (s.handleClose p h) []
    unfold handleClose
    split
    · exact Acts.nothing s
    · rename_i there
      exact Acts.quiet rfl (fun _ _ => holds_of_shrunk there fun _ => has_dropHandle) (fun _ h => h)

end

end HandleWorld
end Tessera
