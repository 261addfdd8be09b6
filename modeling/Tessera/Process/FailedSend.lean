import Tessera.Process.Process
import Tessera.Process.Transfer

/-!
What a refused message costs its sender. Descriptors take effect one by one: a move
empties the slot of its handle at once, and the register windows of a device go with the
last handle to it. The first descriptor that is refused ends the call where it stands.
-/
namespace Tessera
open List
variable {cfg : Config} {ds : List (Except KError HandleTransferRequest)} {m : Message cfg}

/-- The message gets as far as its descriptors. -/
structure ChannelMsgRequest.Reaches (cfg : Config) (args : ChannelMsgRequest) (transfer : Bool)
    (ds : List (Except KError HandleTransferRequest)) : Prop where
  short : args.inlineLen ≤ cfg.maxInlineBytes
  read : args.inlineBytes.isOk = true
  transfer : transfer = true
  few : 0 < args.handleCount ∧ args.handleCount ≤ cfg.maxMsgHandles
  given : args.descriptors = .ok ds

namespace HandleTable
variable {t t' : HandleTable cfg} {req other : HandleTransferRequest} {found : ObjectId × Rights} {index : Nat}

section
variable (t : HandleTable cfg) (ds : List (Except KError HandleTransferRequest))

def keeps : Except KError HandleTransferRequest → Bool
  | .ok d => d.shared
  | .error _ => true

/-- Every descriptor is good, and none names a handle that one before it moves. -/
def Departing : Prop :=
  (∀ d ∈ ds, t.passes d = true) ∧ ds.Pairwise fun a b => keeps a = true ∨ handleNamed? b ≠ handleNamed? a

/-- Either all of them go, or nothing is moved before the first that is not good. -/
def Spares : Prop :=
  t.Departing ds ∨ ∀ d ∈ ds.takeWhile t.passes, keeps d = true

end

theorem lookup_vacated (same : h.index = index) : (t.vacate index).lookup h ≠ .ok found := by
  intro looked
  have here := cell_of_lookup looked
  rw [cell_vacate, if_pos same] at here
  cases here

theorem passes_vacate (good : t.passes (.ok req) = true) (d : Except KError HandleTransferRequest) :
    (t.vacate (handleNamed req).index).passes d = true ↔
      t.passes d = true ∧ handleNamed? d ≠ some (handleNamed req) := by
  obtain ⟨_,_,⟨⟩,share⟩ := passes_eq_true good
  obtain ⟨_,_,looked⟩ := takeNarrowed_of_share share
  cases d with
  | error => simp [passes]
  | ok other =>
    by_cases same : (handleNamed other).index = (handleNamed req).index
    · constructor
      · intro passes
        obtain ⟨_,_,⟨⟩,share'⟩ := passes_eq_true passes
        obtain ⟨_,_,looked'⟩ := takeNarrowed_of_share share'
        exact absurd looked' (lookup_vacated same)
      · rintro ⟨passes,different⟩
        obtain ⟨_,_,⟨⟩,share'⟩ := passes_eq_true passes
        obtain ⟨_,_,looked'⟩ := takeNarrowed_of_share share'
        have generation := generation_of_lookup looked'
        rw [same, generation_of_lookup looked] at generation
        exact absurd (congrArg some (Handle.fromRaw_ext same generation.symm)) different
    · rw [passes, shareNarrowed_vacate same]
      refine ⟨fun passes => ⟨passes,?_⟩,And.left⟩
      intro named
      exact same (congrArg Handle.index (Option.some.inj named))

def next (t : HandleTable cfg) : Except KError HandleTransferRequest → HandleTable cfg
  | .ok d => if d.shared then t else t.vacate (handleNamed d).index
  | .error _ => t

theorem departing_cons (good : t.passes d = true) : t.Departing (d :: ds) ↔ (t.next d).Departing ds := by
  obtain ⟨req,_,rfl,_⟩ := passes_eq_true good
  unfold Departing next
  rw [List.forall_mem_cons, pairwise_cons]
  cases kept : req.shared with
  | true => simp [good, keeps, kept]
  | false =>
    simp only [keeps, kept, Bool.false_eq_true, if_false, passes_vacate good]
    constructor
    · rintro ⟨⟨_,rest⟩,apart,later⟩
      exact ⟨fun d mem => ⟨rest d mem,(apart d mem).resolve_left nofun⟩,later⟩
    · rintro ⟨rest,later⟩
      exact ⟨⟨good,fun d mem => (rest d mem).1⟩,fun d mem => .inr (rest d mem).2,later⟩

theorem cell_next (empty : t.slots.cell i = none) (d : Except KError HandleTransferRequest) :
    (t.next d).slots.cell i = none := by
  unfold next
  split
  · split
    · exact empty
    · rw [cell_vacate, empty, ite_self]
  · exact empty

end HandleTable

namespace Process
open HandleTable
variable {p : Process cfg}

/-- One descriptor, and whether its object has departed with it: the register windows of
    a device go with the last handle to it. -/
def depart (p : Process cfg) (d : HandleTransferRequest) : Except KError (ObjectId × Rights) × Bool × Process cfg :=
  match p.handles.depart d with
  | (.error e, handles) => (.error e, false, { p with handles })
  | (.ok (object, rights), handles) =>
    if d.shared then (.ok (object, rights), false, { p with handles })
    else (.ok (object, rights), { p with handles }.revokeDeviceWindowsUnlessHeld object)

def attachHandles (p : Process cfg) (m : Message cfg) (departed : List (Option ObjectId)) :
    List (Except KError HandleTransferRequest) → Except KError (Message cfg × List (Option ObjectId)) × Process cfg
  | [] => (.ok (m, departed), p)
  | .error e :: _ => (.error e, p)
  | .ok d :: rest =>
    match p.depart d with
    | (.error e, _, p) => (.error e, p)
    | (.ok (object, rights), gone, p) =>
      match m.addHandle ⟨object, rights, d.shared⟩ with
      | .error e => (.error e, p)
      | .ok m => p.attachHandles m (departed ++ [if gone then some object else none]) rest

def buildMessageFromArgs (p : Process cfg) (correlation : Nat) (args : ChannelMsgRequest)
    (transfer : Bool) : Except KError (Message cfg × List (Option ObjectId)) × Process cfg :=
  if args.inlineLen > cfg.maxInlineBytes then (.error .protocol, p) else
  match args.inlineBytes with
  | .error e => (.error e, p)
  | .ok bytes =>
    match (Stamped.setCorrelation (Message.new args.interfaceId args.methodId) correlation).setInline
        (bytes.take args.inlineLen) with
    | .error e => (.error e, p)
    | .ok m =>
      if transfer && decide (args.handleCount > 0) then
        if args.handleCount > cfg.maxMsgHandles then (.error .protocol, p) else
        match args.descriptors with
        | .error e => (.error e, p)
        | .ok ds => p.attachHandles m [] (ds.take args.handleCount)
      else (.ok (m, []), p)

theorem revokeDeviceWindows_handles (p : Process cfg) (obj : ObjectId) :
    (p.revokeDeviceWindowsUnlessHeld obj).1 = (!p.handles.holds obj) ∧
      (p.revokeDeviceWindowsUnlessHeld obj).2.handles = p.handles := by
  unfold revokeDeviceWindowsUnlessHeld
  split
  · rename_i held
    exact ⟨by rw [held]; rfl,rfl⟩
  · rename_i last
    exact ⟨by rw [Bool.eq_false_of_not_eq_true last]; rfl,rfl⟩

theorem depart_cases (p : Process cfg) (d : HandleTransferRequest) :
    (p.handles.passes (.ok d) ≠ true ∧ ∃ e, p.depart d = (.error e, false, p) ∧ p.handles.depart d = (.error e, p.handles)) ∨
      p.handles.passes (.ok d) = true ∧ ∃ found q,
        p.depart d = (.ok found, !d.shared && !q.handles.holds found.1, q) ∧
        p.handles.depart d = (.ok found, q.handles) ∧ q.handles = p.handles.next (.ok d) ∧ (d.shared = true → q = p) := by
  rw [show p.handles.passes (.ok d) = (p.handles.shareNarrowed (handleNamed d) d.rights).isOk from rfl,
    show p.handles.next (.ok d) = if d.shared then p.handles else p.handles.vacate (handleNamed d).index from rfl]
  unfold depart
  rw [depart_eq, show Handle.fromRaw d.handle = handleNamed d from rfl]
  cases p.handles.shareNarrowed (handleNamed d) d.rights with
  | error e =>
    rw [show (Except.error e : Except KError (ObjectId × Rights)).isOk = false from rfl, Bool.and_false]
    exact .inl ⟨nofun,e,rfl,rfl⟩
  | ok found =>
    refine .inr ⟨rfl,found,?_⟩
    cases d.shared with
    | true => exact ⟨p,rfl,rfl,rfl,fun _ => rfl⟩
    | false =>
      obtain ⟨gone,handles⟩ := revokeDeviceWindows_handles { p with handles := p.handles.vacate (handleNamed d).index } found.1
      have same := gone.trans (congrArg (fun t : HandleTable cfg => !t.holds found.1) handles.symm)
      exact ⟨_,Prod.ext rfl (Prod.ext same rfl),Prod.ext rfl handles.symm,handles,nofun⟩

section
variable (departed : List (Option ObjectId))

theorem attachHandles_cons (room : m.handles.items.length + (d :: ds).length ≤ cfg.maxMsgHandles) :
    (p.handles.passes d ≠ true ∧ ∃ e, p.attachHandles m departed (d :: ds) = (.error e, p)) ∨
      p.handles.passes d = true ∧ ∃ q m' departed', p.attachHandles m departed (d :: ds) = q.attachHandles m' departed' ds ∧
        m'.handles.items.length + ds.length ≤ cfg.maxMsgHandles ∧ q.handles = p.handles.next d ∧ (keeps d = true → q = p) := by
  cases d with
  | error e => exact .inl ⟨nofun,e,rfl⟩
  | ok d =>
    rw [attachHandles]
    rcases p.depart_cases d with ⟨bad,e,left,_⟩ | ⟨good,found,q,left,_,next,same⟩
    · rw [left]
      exact .inl ⟨bad,e,rfl⟩
    rw [length_cons] at room
    obtain ⟨m',added⟩ := addHandle_of_room (h := ⟨found.1, found.2, d.shared⟩)
      (show m.handles.items.length < cfg.maxMsgHandles by omega)
    refine .inr ⟨good,q,m',_,by rw [left]; dsimp only; rw [added],?_,next,same⟩
    rw [Message.handles_of_addHandle added, length_append, length_singleton]
    omega

theorem attachHandles_ok_iff (room : m.handles.items.length + ds.length ≤ cfg.maxMsgHandles) :
    (p.attachHandles m departed ds).1.isOk = true ↔ p.handles.Departing ds := by
  induction ds generalizing p m departed with
  | nil => exact iff_of_true rfl ⟨nofun,.nil⟩
  | cons d ds ih =>
    rcases attachHandles_cons departed room with ⟨bad,_,done⟩ | ⟨good,_,_,_,done,room',next,_⟩
    · rw [done]
      exact iff_of_false nofun fun departing => bad (departing.1 d mem_cons_self)
    · rw [done, departing_cons good, ← next]
      exact ih _ room'

theorem attachHandles_empty (empty : p.handles.slots.cell i = none)
    (room : m.handles.items.length + ds.length ≤ cfg.maxMsgHandles) :
    (p.attachHandles m departed ds).2.handles.slots.cell i = none := by
  induction ds generalizing p m departed with
  | nil => exact empty
  | cons d ds ih =>
    rcases attachHandles_cons departed room with ⟨_,_,done⟩ | ⟨_,_,_,_,done,room',next,_⟩
    · rw [done]
      exact empty
    · rw [done]
      exact ih _ (by rw [next]; exact cell_next empty d) room'

theorem attachHandles_spares (room : m.handles.items.length + ds.length ≤ cfg.maxMsgHandles) :
    (∀ e p', p.attachHandles m departed ds = (.error e, p') → p' = p) ↔ p.handles.Spares ds := by
  induction ds generalizing m departed with
  | nil => exact iff_of_true nofun (.inr nofun)
  | cons d ds ih =>
    unfold Spares
    rcases attachHandles_cons (p := p) departed room with ⟨bad,e,done⟩ | ⟨good,q,_,departed',done,room',next,same⟩
    · rw [done, takeWhile_cons_of_neg bad]
      refine iff_of_true ?_ (.inr nofun)
      rintro _ _ ⟨⟩
      rfl
    rw [takeWhile_cons_of_pos good, List.forall_mem_cons]
    by_cases kept : keeps d = true
    · obtain rfl := same kept
      rw [done, departing_cons good, ← next, ih _ room', and_iff_right kept]
      rfl
    rw [or_iff_left fun all => kept all.1, ← attachHandles_ok_iff departed room]
    cases result : p.attachHandles m departed (d :: ds) with
    | mk built p' =>
      cases built with
      | ok => exact iff_of_true nofun rfl
      | error e =>
        refine iff_of_false (fun spared => ?_) nofun
        obtain rfl := spared e p' rfl
        obtain ⟨req,_,rfl,share⟩ := passes_eq_true good
        obtain ⟨_,_,looked⟩ := takeNarrowed_of_share share
        have empty : q.handles.slots.cell (handleNamed req).index = none := by
          rw [next, HandleTable.next, if_neg (show ¬req.shared = true from kept), cell_vacate, if_pos rfl]
        have still := attachHandles_empty departed' empty room'
        rw [← done, result, cell_of_lookup looked] at still
        cases still

end

theorem buildMessageFromArgs_cases (p : Process cfg) (correlation : Nat) (args : ChannelMsgRequest) (transfer : Bool) :
    (∃ ds m, args.Reaches cfg transfer ds ∧ m.handles.items = [] ∧
        p.buildMessageFromArgs correlation args transfer = p.attachHandles m [] (ds.take args.handleCount)) ∨
      (∀ ds, ¬args.Reaches cfg transfer ds) ∧ (p.buildMessageFromArgs correlation args transfer).2 = p := by
  unfold buildMessageFromArgs
  split
  · rename_i long
    exact .inr ⟨fun _ reaches => absurd reaches.short (Nat.not_le.mpr long),rfl⟩
  rename_i short
  split
  · rename_i unread
    refine .inr ⟨fun _ reaches => ?_,rfl⟩
    have read := reaches.read
    rw [unread] at read
    cases read
  rename_i read
  split
  · rename_i unset
    unfold Message.setInline at unset
    split at unset
    · cases unset
    rename_i long
    rw [length_take] at long
    omega
  rename_i m set
  split
  · rename_i wanted
    simp only [Bool.and_eq_true, decide_eq_true_eq] at wanted
    split
    · rename_i many
      exact .inr ⟨fun _ reaches => absurd reaches.few.2 (Nat.not_le.mpr many),rfl⟩
    split
    · rename_i unread
      refine .inr ⟨fun _ reaches => ?_,rfl⟩
      cases unread.symm.trans reaches.given
    rename_i ds given
    refine .inl ⟨ds,m,⟨by omega,by rw [read]; rfl,wanted.1,⟨wanted.2,by omega⟩,given⟩,?_,rfl⟩
    rw [Message.handles_of_setInline set]
    rfl
  · rename_i unwanted
    refine .inr ⟨fun _ reaches => unwanted ?_,rfl⟩
    simp only [reaches.transfer, Bool.true_and, decide_eq_true_eq]
    exact reaches.few.1

/-- A refused message leaves the sender as it was exactly if, where it gets as far as its
    descriptors, nothing is moved before the first that is not good, or all of them go. -/
theorem refused_message_costs_nothing_iff (p : Process cfg) (correlation : Nat) (args : ChannelMsgRequest)
    (transfer : Bool) : (∀ e p', p.buildMessageFromArgs correlation args transfer = (.error e, p') → p' = p) ↔
      ∀ ds, args.Reaches cfg transfer ds → p.handles.Spares (ds.take args.handleCount) := by
  rcases p.buildMessageFromArgs_cases correlation args transfer with ⟨ds,m,reaches,bare,built⟩ | ⟨never,same⟩
  · have room : m.handles.items.length + (ds.take args.handleCount).length ≤ cfg.maxMsgHandles := by
      have few := reaches.few.2
      rw [bare, length_nil, length_take]
      omega
    rw [built, attachHandles_spares _ room]
    constructor
    · intro spares _ reaches'
      cases reaches.given.symm.trans reaches'.given
      exact spares
    · exact fun spares => spares ds reaches
  · refine iff_of_true (fun e p' failed => ?_) fun ds reaches => absurd reaches (never ds)
    rw [failed] at same
    exact same

/-- A driver with its device, object 9, whose registers it has mapped. -/
def driver : Process .minimal :=
  { Process.new ⟨1⟩ (AddressSpace.fromArch .bare) with
    handles := (HandleTable.new.insert ⟨9⟩ Rights.transfer).2
    deviceWindows := Slots.empty.put 0 ⟨⟨9⟩, 0x400000, 1, by decide⟩ }

/-- The device, to be moved, and a handle that the driver does not have. -/
def twoHandles : ChannelMsgRequest :=
  ⟨0, 0, 0, .ok [], 2, .ok [.ok ⟨0, Rights.transfer, false⟩, .ok ⟨1, Rights.transfer, false⟩]⟩

theorem refused_message_costs_the_device : ∃ p', driver.buildMessageFromArgs 0 twoHandles true = (.error .badHandle, p') ∧
    driver.handles.lookup (.fromRaw 0) = .ok (⟨9⟩, Rights.transfer) ∧ driver.deviceWindows.live.length = 1 ∧
    p'.handles.lookup (.fromRaw 0) = .error .badHandle ∧ p'.deviceWindows.live = [] :=
  ⟨_,rfl,by decide,by decide,by decide,by decide⟩

end Process
end Tessera
