import Tessera.Ipc.Channel
import Tessera.Process.HandleTable

/-!
Handles inside messages. A sender names handles to move or to share; the message
built from them carries the object and the narrowed rights, and the receiver's
table takes what fits. What the sender's memory holds at the named addresses is
an argument: a read of it may fail, and so may the decoding of one descriptor.
-/
namespace Tessera
open List Slots Message

structure HandleTransferRequest where
  handle : Nat
  rights : Rights
  shared : Bool
  deriving DecidableEq

structure ChannelMsgRequest where
  interfaceId : Nat
  methodId : Nat
  inlineLen : Nat
  inlineBytes : Except KError (List UInt8)
  handleCount : Nat
  descriptors : Except KError (List (Except KError HandleTransferRequest))

namespace Message
variable {cfg : Config}

def new (interfaceId methodId : Nat) : Message cfg :=
  ⟨⟨interfaceId, methodId, 0, 0, 0⟩, .empty, .empty⟩

def setInline (m : Message cfg) (bytes : List UInt8) : Except KError (Message cfg) :=
  if h : bytes.length ≤ cfg.maxInlineBytes then .ok { m with inlineBytes := ⟨bytes, h⟩ }
  else .error .protocol

def addHandle (m : Message cfg) (h : TransferredHandle) : Except KError (Message cfg) :=
  match m.handles.push h with
  | some handles => .ok { m with handles }
  | none => .error .protocol

variable {m m' : Message cfg}

theorem handles_of_addHandle (added : m.addHandle h = .ok m') : m'.handles.items = m.handles.items ++ [h] := by
  unfold addHandle at added
  split at added
  · rename_i pushed
    cases added
    exact (Bounded.push_eq_some.mp pushed).2
  · cases added

theorem handles_of_setInline (set : m.setInline bytes = .ok m') : m'.handles = m.handles := by
  unfold setInline at set
  split at set
  · cases set
    rfl
  · cases set

end Message

namespace HandleTable
variable {cfg : Config}

def depart (t : HandleTable cfg) (d : HandleTransferRequest) : Except KError (ObjectId × Rights) × HandleTable cfg :=
  if d.shared then (t.shareNarrowed (.fromRaw d.handle) d.rights, t)
  else t.takeNarrowed (.fromRaw d.handle) d.rights

/-- The descriptors in order. The first one refused ends the call, and what
    earlier ones took out stays out. An object the sender has moved its last
    handle of is reported as departed. -/
def attachHandles (t : HandleTable cfg) (m : Message cfg) (departed : List (Option ObjectId)) :
    List (Except KError HandleTransferRequest) →
      Except KError (Message cfg × List (Option ObjectId)) × HandleTable cfg
  | [] => (.ok (m, departed), t)
  | .error e :: _ => (.error e, t)
  | .ok d :: rest =>
    match t.depart d with
    | (.error e, t) => (.error e, t)
    | (.ok (object, rights), t) =>
      match m.addHandle ⟨object, rights, d.shared⟩ with
      | .error e => (.error e, t)
      | .ok m =>
        t.attachHandles m (departed ++ [if !d.shared && !t.holds object then some object else none]) rest

def buildMessageFromArgs (t : HandleTable cfg) (correlation : Nat) (args : ChannelMsgRequest)
    (transfer : Bool) : Except KError (Message cfg × List (Option ObjectId)) × HandleTable cfg :=
  if args.inlineLen > cfg.maxInlineBytes then (.error .protocol, t) else
  match args.inlineBytes with
  | .error e => (.error e, t)
  | .ok bytes =>
    match (Stamped.setCorrelation (Message.new args.interfaceId args.methodId) correlation).setInline
        (bytes.take args.inlineLen) with
    | .error e => (.error e, t)
    | .ok m =>
      if transfer && decide (args.handleCount > 0) then
        if args.handleCount > cfg.maxMsgHandles then (.error .protocol, t) else
        match args.descriptors with
        | .error e => (.error e, t)
        | .ok ds => t.attachHandles m [] (ds.take args.handleCount)
      else (.ok (m, []), t)

/-- Installs a message's handles in order; a full table loses the handle and
    the report keeps the gap. -/
def installTransferredHandles (t : HandleTable cfg) : List TransferredHandle → List (Option Handle) × HandleTable cfg
  | [] => ([], t)
  | h :: rest =>
    match t.install h.object h.rights with
    | (.ok handle, t) => let (reports, t) := t.installTransferredHandles rest; (some handle :: reports, t)
    | (.error _, t) => let (reports, t) := t.installTransferredHandles rest; (none :: reports, t)

def Delegable (t : HandleTable cfg) (e : HandleEntry) : Prop :=
  ∃ old, t.Has old ∧ old.object = e.object ∧ e.rights.isSubsetOf old.rights = true ∧
    old.rights.contains Rights.transfer = true

variable {t t' : HandleTable cfg} {d : HandleTransferRequest} {e : KError} {object : ObjectId}
  {rights : Rights} {hs : List TransferredHandle} {reports : List (Option Handle)} {m : Message cfg}

/-- A move is a share that also empties the slot. -/
theorem depart_eq (t : HandleTable cfg) (d : HandleTransferRequest) : t.depart d =
    (t.shareNarrowed (.fromRaw d.handle) d.rights,
      if !d.shared && (t.shareNarrowed (.fromRaw d.handle) d.rights).isOk then
        t.vacate (Handle.fromRaw d.handle).index else t) := by
  unfold depart
  cases d.shared with
  | true => rfl
  | false => exact takeNarrowed_eq ..

theorem has_depart {e : HandleEntry} (has : (t.depart d).2.Has e) : t.Has e := by
  rw [depart_eq] at has
  split at has
  · exact has_vacate has
  · exact has

theorem delegable_of_depart (done : (t.depart d).1 = .ok (object, rights)) : t.Delegable ⟨object, rights⟩ := by
  rw [depart_eq] at done
  obtain ⟨same,held,has,mayTransfer,sub⟩ := shareNarrowed_eq_ok done
  subst same
  exact ⟨⟨object, held⟩,has,rfl,sub,mayTransfer⟩

/-- What sending can do: handles only leave the table, and each one the message
    gains was delegable in the table at the start. -/
structure Delegates (t : HandleTable cfg) (already : List TransferredHandle)
    (sent : Except KError (Message cfg × List (Option ObjectId)) × HandleTable cfg) : Prop where
  kept : ∀ e, sent.2.Has e → t.Has e
  carried : ∀ m gone, sent.1 = .ok (m, gone) → ∀ h ∈ m.handles.items, h ∈ already ∨ t.Delegable ⟨h.object, h.rights⟩

theorem Delegates.refused (shrinks : ∀ e, t'.Has e → t.Has e) : Delegates t already (.error e, t') :=
  ⟨shrinks,fun _ _ same => nomatch same⟩

theorem attachHandles_delegates (t : HandleTable cfg) (m : Message cfg) (departed : List (Option ObjectId))
    (ds : List (Except KError HandleTransferRequest)) :
    Delegates t m.handles.items (t.attachHandles m departed ds) := by
  induction ds generalizing t m departed with
  | nil =>
    constructor
    · intro e has
      exact has
    · intro m' gone same h mem
      cases same
      exact .inl mem
  | cons d ds ih =>
    cases d with
    | error => exact Delegates.refused fun _ has => has
    | ok d =>
      unfold attachHandles
      have shrinks : ∀ e, (t.depart d).2.Has e → t.Has e := fun e => has_depart
      split
      · rename_i left
        rw [left] at shrinks
        exact Delegates.refused shrinks
      rename_i object _ rest left
      have delegable := delegable_of_depart (congrArg Prod.fst left)
      rw [left] at shrinks
      split
      · exact Delegates.refused shrinks
      rename_i more added
      have onward := ih rest more (departed ++ [if !d.shared && !rest.holds object then some object else none])
      refine ⟨fun e has => shrinks e (onward.kept e has),fun m' gone same h mem => ?_⟩
      rcases onward.carried m' gone same h mem with before | later
      · rw [handles_of_addHandle added, mem_append, mem_singleton] at before
        rcases before with old | this
        · exact .inl old
        · subst this
          exact .inr delegable
      · obtain ⟨old,has,facts⟩ := later
        exact .inr ⟨old,shrinks old has,facts⟩

theorem buildMessageFromArgs_delegates (t : HandleTable cfg) (correlation : Nat) (args : ChannelMsgRequest)
    (transfer : Bool) : Delegates t [] (t.buildMessageFromArgs correlation args transfer) := by
  have unchanged : ∀ e, t.Has e → t.Has e := fun _ has => has
  unfold buildMessageFromArgs
  split
  · exact Delegates.refused unchanged
  split
  · exact Delegates.refused unchanged
  split
  · exact Delegates.refused unchanged
  rename_i m set
  have bare : m.handles.items = [] := by
    rw [Message.handles_of_setInline set]
    rfl
  split
  · split
    · exact Delegates.refused unchanged
    split
    · exact Delegates.refused unchanged
    rename_i ds _
    have attached := attachHandles_delegates t m [] (ds.take args.handleCount)
    rw [bare] at attached
    exact attached
  · refine ⟨unchanged,fun _ _ same _ mem => ?_⟩
    cases same
    rw [bare] at mem
    exact .inl mem

def arrived (hs : List TransferredHandle) (reports : List (Option Handle)) : List HandleEntry :=
  (hs.zip reports).filterMap fun (h, report) => report.map fun _ => ⟨h.object, h.rights⟩

theorem has_install_ok {x : HandleEntry} (done : t.install object rights = (.ok h, t')) :
    t'.Has x ↔ t.Has x ∨ x = ⟨object, rights⟩ := by
  constructor
  · intro has
    exact has_insert (by rw [show t.insert object rights = _ from done]; exact has)
  unfold install insert at done
  split at done
  · cases done
  rename_i index free
  obtain ⟨inside,empty⟩ := free?_eq_some free
  cases done
  rintro (⟨i,here⟩ | rfl)
  · exact ⟨i,cell_put_of_empty _ empty here _⟩
  · exact ⟨index,cell_put_self _ inside _⟩

theorem install_error (done : t.install object rights = (.error e, t')) : t' = t := by
  unfold install insert at done
  split at done <;> cases done
  rfl

theorem has_installTransferredHandles (done : t.installTransferredHandles hs = (reports, t'))
    (e : HandleEntry) : t'.Has e ↔ t.Has e ∨ e ∈ arrived hs reports := by
  induction hs generalizing t reports with
  | nil =>
    cases done
    simp [arrived]
  | cons h hs ih =>
    unfold installTransferredHandles at done
    split at done
    · rename_i mid installed
      cases rest : mid.installTransferredHandles hs with
      | mk =>
        rw [rest] at done
        cases done
        rw [ih rest, has_install_ok installed]
        simp [arrived, or_assoc]
    · rename_i mid installed
      cases rest : mid.installTransferredHandles hs with
      | mk =>
        rw [rest] at done
        cases done
        rw [ih rest, install_error installed]
        simp [arrived]

theorem mem_of_arrived {e : HandleEntry} (mem : e ∈ arrived hs reports) : ∃ h ∈ hs, e = ⟨h.object, h.rights⟩ := by
  obtain ⟨pair,inside,made⟩ := mem_filterMap.mp mem
  obtain ⟨_,_,same⟩ := Option.map_eq_some_iff.mp made
  exact ⟨pair.1,(of_mem_zip (show (pair.1, pair.2) ∈ hs.zip reports from inside)).1,same.symm⟩

theorem holds_installTransferredHandles (room : hs.length ≤ t.slots.vacancies)
    (done : t.installTransferredHandles hs = (reports, t')) (o : ObjectId) :
    t'.holds o = true ↔ t.holds o = true ∨ ∃ h ∈ hs, h.object = o := by
  induction hs generalizing t reports with
  | nil =>
    cases done
    simp
  | cons h hs ih =>
    unfold installTransferredHandles at done
    cases installed : t.install h.object h.rights with
    | mk result mid =>
      rw [installed] at done
      cases result with
      | error =>
        unfold install insert at installed
        split at installed
        · rename_i full
          rw [free?_eq_none] at full
          simp only [length_cons] at room
          omega
        · cases installed
      | ok =>
        cases rest : mid.installTransferredHandles hs with
        | mk =>
          have less : hs.length ≤ mid.slots.vacancies := by
            unfold install insert at installed
            split at installed
            · cases installed
            rename_i free
            obtain ⟨inside,empty⟩ := free?_eq_some free
            cases installed
            have used := vacancies_put inside empty ⟨h.object, h.rights⟩
            simp only [length_cons] at room
            dsimp only
            omega
          dsimp only at done
          rw [rest] at done
          cases done
          rw [ih less rest, holds_install_ok installed]
          simp only [mem_cons, exists_eq_or_imp]
          tauto

def handleNamed (d : HandleTransferRequest) : Handle := .fromRaw d.handle

def passes (t : HandleTable cfg) : Except KError HandleTransferRequest → Bool
  | .ok d => (t.shareNarrowed (handleNamed d) d.rights).isOk
  | .error _ => false

def handleNamed? : Except KError HandleTransferRequest → Option Handle
  | .ok d => some (handleNamed d)
  | .error _ => none

def Sendable (t : HandleTable cfg) (ds : List (Except KError HandleTransferRequest)) : Prop :=
  (∀ d ∈ ds, t.passes d = true) ∧ (ds.map handleNamed?).Nodup

instance (t : HandleTable cfg) (ds : List (Except KError HandleTransferRequest)) : Decidable (t.Sendable ds) :=
  inferInstanceAs (Decidable (_ ∧ _))

theorem passes_eq_true {d : Except KError HandleTransferRequest} (passes : t.passes d = true) :
    ∃ req found, d = .ok req ∧ t.shareNarrowed (handleNamed req) req.rights = .ok found := by
  cases d with
  | error => cases passes
  | ok req =>
    cases share : t.shareNarrowed (handleNamed req) req.rights with
    | error =>
      rw [HandleTable.passes, share] at passes
      cases passes
    | ok found => exact ⟨req,found,rfl,share⟩

theorem addHandle_of_room (room : m.handles.items.length < cfg.maxMsgHandles) : ∃ m', m.addHandle h = .ok m' := by
  unfold addHandle
  split
  · exact ⟨_,rfl⟩
  rename_i full
  rw [Bounded.push_eq_none] at full
  omega

theorem depart_of_share (allowed : t.shareNarrowed (handleNamed d) d.rights = .ok found) :
    ∃ t', t.depart d = (.ok found, t') ∧ (∀ o, t'.holds o = true → t.holds o = true) ∧
      (∀ o, t.holds o = true → t'.holds o = true ∨ d.shared = false ∧ o = found.1) ∧
      ∀ d', handleNamed d' ≠ handleNamed d → (∃ f, t.shareNarrowed (handleNamed d') d'.rights = .ok f) →
        ∃ f, t'.shareNarrowed (handleNamed d') d'.rights = .ok f := by
  unfold depart
  obtain ⟨taken,_,looked⟩ := takeNarrowed_of_share allowed
  cases kept : d.shared with
  | true => exact ⟨t,by rw [if_pos rfl]; exact Prod.ext allowed rfl,fun _ => id,fun _ => .inl,fun _ _ => id⟩
  | false =>
    refine ⟨t.vacate (handleNamed d).index,by rw [if_neg Bool.false_ne_true]; exact taken,?_,?_,?_⟩
    · intro o holds
      obtain ⟨i,e,here,same⟩ := holds_iff.mp holds
      exact holds_iff.mpr ⟨i,e,(cell_clear_cases here).2,same⟩
    · intro o holds
      by_cases same : o = found.1
      · exact .inr ⟨rfl,same⟩
      left
      rw [holds_vacate (cell_of_lookup looked) same]
      exact holds
    · rintro _ different ⟨f,allowed'⟩
      obtain ⟨_,_,looked'⟩ := takeNarrowed_of_share allowed'
      refine ⟨f,?_⟩
      rw [shareNarrowed_vacate]
      · exact allowed'
      intro index
      have first := generation_of_lookup looked
      have second := generation_of_lookup looked'
      rw [index, first] at second
      exact different (Handle.fromRaw_ext index second.symm)

theorem attachHandles_sendable (sendable : t.Sendable ds)
    (room : m.handles.items.length + ds.length ≤ cfg.maxMsgHandles) (departed : List (Option ObjectId)) :
    ∃ m' gone t', t.attachHandles m departed ds = (.ok (m', gone), t') ∧ (∀ h ∈ m.handles.items, h ∈ m'.handles.items) ∧
      (∀ o, t'.holds o = true → t.holds o = true) ∧
      ∀ o, t.holds o = true → t'.holds o = true ∨ ∃ h ∈ m'.handles.items, h.object = o ∧ h.shared = false := by
  induction ds generalizing t m departed with
  | nil => exact ⟨m,departed,t,rfl,fun _ => id,fun _ => id,fun _ => .inl⟩
  | cons descriptor rest ih =>
    obtain ⟨allowed,distinct⟩ := sendable
    obtain ⟨d,found,rfl,share⟩ := passes_eq_true (allowed descriptor mem_cons_self)
    obtain ⟨t₁,left,fewer,lost,others⟩ := depart_of_share share
    simp only [length_cons] at room
    obtain ⟨m₁,added⟩ := addHandle_of_room (h := ⟨found.1, found.2, d.shared⟩)
      (show m.handles.items.length < cfg.maxMsgHandles by omega)
    have items := handles_of_addHandle added
    rw [map_cons, nodup_cons] at distinct
    have good : t₁.Sendable rest := by
      refine ⟨fun d' mem => ?_,distinct.2⟩
      obtain ⟨req,f,rfl,share'⟩ := passes_eq_true (allowed d' (mem_cons_of_mem _ mem))
      obtain ⟨_,share''⟩ := others req
        (fun same => distinct.1 (mem_map.mpr ⟨_,mem,congrArg some same⟩)) ⟨f,share'⟩
      simp [passes, share'', Except.toBool]
    have less : m₁.handles.items.length + rest.length ≤ cfg.maxMsgHandles := by
      rw [items, length_append]
      simp only [length_cons, length_nil]
      omega
    obtain ⟨m',gone,t',built,kept,shrinks,moved⟩ := ih
      good less (departed ++ [if !d.shared && !t₁.holds found.1 then some found.1 else none])
    refine ⟨m',gone,t',?_,?_,fun o holds => fewer o (shrinks o holds),?_⟩
    · rw [attachHandles, left]
      dsimp only
      rw [added]
      exact built
    · intro _ mem
      apply kept
      rw [items]
      exact mem_append_left _ mem
    · intro o holds
      rcases lost o holds with still | ⟨away,same⟩
      · exact moved o still
      refine .inr ⟨⟨found.1, found.2, d.shared⟩,kept _ ?_,same.symm,away⟩
      rw [items]
      exact mem_append_right _ mem_cons_self

theorem buildMessageFromArgs_sendable
    (sendable : ∀ ds, args.descriptors = .ok ds → t.Sendable (ds.take args.handleCount)) (correlation : Nat)
    (transfer : Bool) : (∃ e, t.buildMessageFromArgs correlation args transfer = (.error e, t)) ∨
      ∃ m gone t', t.buildMessageFromArgs correlation args transfer = (.ok (m, gone), t') ∧
        (∀ o, t'.holds o = true → t.holds o = true) ∧
        ∀ o, t.holds o = true → t'.holds o = true ∨ ∃ h ∈ m.handles.items, h.object = o ∧ h.shared = false := by
  unfold buildMessageFromArgs
  split
  · exact .inl ⟨_,rfl⟩
  split
  · exact .inl ⟨_,rfl⟩
  split
  · exact .inl ⟨_,rfl⟩
  rename_i m set
  have bare : m.handles.items = [] := by
    rw [Message.handles_of_setInline set]
    rfl
  split
  · split
    · exact .inl ⟨_,rfl⟩
    split
    · exact .inl ⟨_,rfl⟩
    rename_i ds given
    right
    have room : m.handles.items.length + (ds.take args.handleCount).length ≤ cfg.maxMsgHandles := by
      rw [bare, length_take]
      simp only [length_nil]
      omega
    obtain ⟨m',gone,t',built,_,fewer,lost⟩ := attachHandles_sendable (sendable ds given) room []
    exact ⟨m',gone,t',built,fewer,lost⟩
  · exact .inr ⟨m,[],t,rfl,fun _ => id,fun _ => .inl⟩

end HandleTable
end Tessera
