import Tessera.Vm.FrameReturn
import Tessera.Vm.Shootdown

/-!
No stale translation outlives a revocation. An operation that tells the other
processors before it frees or returns leaves none of them a way to what it has
taken away, as long as every request is answered. The operations that tell nobody
are safe only where there is nobody to tell.
-/
namespace Tessera
open Function List Option ArchSpace Config Revoked TlbWorld VmProgram
variable {cfg : Config} {port : ArchPort}

namespace VmProgram

/-- The program frees, or reports success, only after it has told the other
    processors of everything it has taken away; it puts nothing back, and all the
    flags it sets agree on writing. -/
def Tidy (write : Bool) : (dirty : Bool) → VmProgram cfg → Prop
  | dirty, .translate _ next => ∀ entry, Tidy write dirty (next entry)
  | dirty, .unmap _ next => (∀ frame, Tidy write true (next (.ok frame))) ∧ ∀ e, Tidy write dirty (next (.error e))
  | dirty, .protect _ flags next =>
    flags.writable = write ∧ Tidy write true (next (.ok ())) ∧ ∀ e, Tidy write dirty (next (.error e))
  | _, .map _ _ _ _ => False
  | dirty, .alloc next => ∀ frame, Tidy write dirty (next frame)
  | dirty, .retain _ next => Tidy write dirty next
  | dirty, .free _ next => dirty = false ∧ Tidy write dirty next
  | dirty, .freeTables next => Tidy write dirty next
  | _, .shootDown next => Tidy write false next
  | dirty, .ret result _ => result.succeeded = true → dirty = false

variable {write : Bool}

theorem tidy_fail (dirty : Bool) (e : KError) : Tidy write dirty (fail e : VmProgram cfg) := by
  intro contra
  cases contra

theorem tidy_evictPage (va : Nat) : Tidy write false (evictPage va : VmProgram cfg) := by
  intro entry
  cases entry with
  | none => exact tidy_fail _ _
  | some => exact ⟨fun _ => ⟨rfl,fun _ => rfl⟩,fun e => tidy_fail _ e⟩

variable {dirty : Bool} {base : Nat} {next : VmProgram cfg} {batch : List PhysFrame}

theorem tidy_unmapPages {next : Except KError Unit → VmProgram cfg}
    (failed : ∀ dirty e, Tidy write dirty (next (.error e)))
    (done : ∀ dirty, Tidy write dirty (next (.ok ()))) (pages i : Nat) :
    Tidy write dirty (unmapPages base next pages i) := by
  induction pages generalizing dirty i with
  | zero => exact done dirty
  | succ pages ih => exact ⟨fun _ => ih (i + 1),fun e => failed dirty e⟩

theorem tidy_freeEach (tidy : Tidy write false next) : Tidy write false (freeEach frames next) := by
  induction frames with
  | nil => exact tidy
  | cons frame rest ih => exact ⟨rfl,ih⟩

theorem tidy_releaseBatch (tidy : Tidy write false next) (held : dirty = true → batch.length ≠ 0) :
    Tidy write dirty (releaseBatch batch next) := by
  unfold releaseBatch
  split
  · rename_i empty
    cases dirty with
    | false => exact tidy
    | true => exact absurd empty (held rfl)
  · exact tidy_freeEach tidy

theorem tidy_unmapAndFree {next : Nat → VmProgram cfg} (tidy : ∀ reclaimed, Tidy write false (next reclaimed))
    (held : dirty = true → batch.length ≠ 0) (pages i reclaimed : Nat) :
    Tidy write dirty (unmapAndFree base next pages i batch reclaimed) := by
  induction pages generalizing dirty i batch reclaimed with
  | zero => exact tidy_releaseBatch (tidy reclaimed) held
  | succ pages ih =>
    refine ⟨fun frame => ?_,fun _ => ih held (i + 1) reclaimed⟩
    have some : (batch ++ [frame]).length ≠ 0 := by simp
    split
    · apply tidy_releaseBatch
      · apply ih
        intro contra
        cases contra
      · exact fun _ => some
    · exact ih (fun _ => some) (i + 1) _

theorem tidy_closeWindow (done : ∀ dirty, Tidy write dirty next) (pages i : Nat) :
    Tidy write dirty (closeWindow va next pages i) := by
  induction pages generalizing dirty i with
  | zero => exact done dirty
  | succ pages ih => exact ⟨fun _ => ih (i + 1),fun _ => ih (i + 1)⟩

theorem tidy_unmapDevicePages (va pages : Nat) : Tidy write false (unmapDevicePages va pages : VmProgram cfg) := by
  apply tidy_closeWindow
  intro _ _
  rfl

theorem tidy_unmapDevicePage (va : Nat) : Tidy write false (unmapDevicePage va : VmProgram cfg) :=
  ⟨fun _ _ => rfl,fun e => tidy_fail _ e⟩

theorem tidy_protectPages {next : Except KError Unit → VmProgram cfg}
    (failed : ∀ dirty e, Tidy rights.writable dirty (next (.error e)))
    (done : ∀ dirty, Tidy rights.writable dirty (next (.ok ()))) (pages i : Nat) :
    Tidy rights.writable dirty (protectPages base rights next pages i) := by
  induction pages generalizing dirty i with
  | zero => exact done dirty
  | succ pages ih => exact ⟨rfl,ih (i + 1),fun e => failed dirty e⟩

section
variable (sp : AddressSpace cfg)

theorem tidy_unmapRange (base len : Nat) : Tidy write false (unmapRange sp base len) := by
  unfold unmapRange
  split
  · exact tidy_fail _ _
  split
  · exact tidy_fail _ _
  apply tidy_unmapPages
  · intro dirty e
    exact tidy_fail dirty e
  · intro _ _
    rfl

theorem tidy_reclaimRange (base len : Nat) : Tidy write false (reclaimRange sp base len) := by
  unfold reclaimRange
  split
  · exact tidy_fail _ _
  apply tidy_unmapAndFree
  · intro _ _
    rfl
  · intro contra
    cases contra

theorem tidy_teardown : Tidy write false (teardown sp) := by
  unfold teardown
  generalize List.range cfg.maxMappings = slots
  induction slots with
  | nil => exact fun _ => rfl
  | cons idx rest ih =>
    unfold teardownSlots
    split
    · exact ih
    apply tidy_unmapAndFree
    · exact fun _ => ih
    · intro contra
      cases contra

theorem tidy_protectRange (base len : Nat) (rights : PageFlags) :
    Tidy rights.writable false (protectRange sp base len rights) := by
  unfold protectRange
  split
  · exact tidy_fail _ _
  split
  · exact tidy_fail _ _
  apply tidy_protectPages
  · intro dirty e
    exact tidy_fail dirty e
  · intro _ _
    rfl

end

end VmProgram

theorem VmCall.tidy {call : VmCall cfg} (told : call.manner sp = .told) :
    ∃ write, (call.program sp).Tidy write false := by
  cases call with
  | evictPage va => exact ⟨false,tidy_evictPage va⟩
  | unmapRange base len => exact ⟨false,tidy_unmapRange sp base len⟩
  | reclaimRange base len => exact ⟨false,tidy_reclaimRange sp base len⟩
  | teardown => exact ⟨false,tidy_teardown sp⟩
  | unmapDevicePages va pages => exact ⟨false,tidy_unmapDevicePages va pages⟩
  | unmapDevicePage va => exact ⟨false,tidy_unmapDevicePage va⟩
  | protectRange base len rights => exact ⟨rights.writable,tidy_protectRange sp base len rights⟩
  | reprotectRo | snapshotCow | other => cases told
  | resolveFault =>
    simp only [VmCall.manner] at told
    split at told
    · cases told
    · cases told

namespace Revoked

def Withheld (arch : ArchSpace) (r : Revoked) : Prop :=
  ∀ p f fl, arch.pages p = some (f, fl) → r.usedBy ⟨p, f, fl⟩ = false

variable {arch after : ArchSpace} {r : Revoked} {va : Nat} {frame : PhysFrame} {flags : PageFlags}

theorem Withheld.unmap (withheld : r.Withheld arch) (done : arch.unmap va = (.ok frame, after)) :
    r.Withheld after := by
  intro p f fl there
  rw [pages_of_unmap done] at there
  split at there
  · cases there
  · exact withheld p f fl there

theorem withheld_unmapped (done : arch.unmap va = (.ok frame, after)) :
    (access (va / frameSize) frame).Withheld after := by
  intro _ _ _ there
  rw [pages_of_unmap done] at there
  split at there
  · cases there
  · rename_i apart
    simp [usedBy, apart]

theorem Withheld.protect (withheld : r.Withheld arch) (done : arch.protect port va flags = (.ok (), after))
    (writes : ∀ p f, r = .write p f → flags.writable = false) : r.Withheld after := by
  rcases protect_pages done with changed | failed
  · obtain ⟨_,_,_,_,was,pages⟩ := changed
    intro p f fl there
    rw [pages] at there
    by_cases same : p = va / frameSize
    · subst same
      rw [update_self] at there
      cases there
      have before := withheld _ _ _ was
      cases r with
      | access => simpa [usedBy] using before
      | write q g => simp [usedBy, writes q g rfl]
    · rw [update_of_ne same] at there
      exact withheld p f fl there
  · obtain ⟨⟨_,contra⟩,_⟩ := failed
    cases contra

theorem withheld_protected (done : arch.protect port va flags = (.ok (), after))
    (new : r ∈ revokedBy arch va flags) : r.Withheld after ∧ flags.writable = false := by
  rcases protect_pages done with changed | failed
  · obtain ⟨_,_,_,_,was,pages⟩ := changed
    unfold revokedBy at new
    rw [was] at new
    dsimp only at new
    split at new
    · rename_i narrowed
      rw [mem_singleton] at new
      subst new
      have barred : flags.writable = false := by
        simp only [Bool.and_eq_true, Bool.not_eq_true'] at narrowed
        exact narrowed.2
      refine ⟨fun p _ _ there => ?_,barred⟩
      rw [pages] at there
      by_cases same : p = va / frameSize
      · subst same
        rw [update_self] at there
        cases there
        simp [usedBy, barred]
      · simp [usedBy, same]
    · cases new
  · obtain ⟨⟨_,contra⟩,_⟩ := failed
    cases contra

end Revoked

namespace TlbWorld
variable {σ : Type} {w w' : TlbWorld cfg σ} {t : Task cfg}
open GenerationBarrier Transition

section
variable (w : TlbWorld cfg σ) (t : Task cfg)

def Clear (c : Fin cfg.maxCpus) : Prop :=
  ∀ r ∈ t.revoked, ∀ e ∈ (w.cpus c).cache, r.usedBy e = false

def Clearing (write : Bool) : Stage cfg → Prop
  | .run program => ∃ dirty, program.Tidy write dirty ∧ (dirty = false → ∀ c, c ≠ t.cpu → w.Clear t c)
  | .holders targets next => next.Tidy write false ∧ ∀ c, c ≠ t.cpu → c ∉ targets → w.Clear t c
  | .waiting generation targets remaining _ next =>
    next.Tidy write false ∧ (∀ c, c ≠ t.cpu → c ∉ targets → w.Clear t c) ∧
      (∀ c, c ≠ t.cpu → c ∉ remaining → w.Clear t c) ∧
      State.Answered (fun c => c ≠ t.cpu → w.Clear t c) generation w.barrier

structure Told (w : TlbWorld cfg σ) (t : Task cfg) : Prop where
  withheld : ∀ r ∈ t.revoked, r.Withheld w.space.arch
  clearing : ∃ write, (∀ p f, .write p f ∈ t.revoked → write = false) ∧ w.Clearing t write t.stage

def Unobserved : Prop :=
  ∀ c, c ≠ t.cpu → (w.cpus c).running = false ∧ (w.cpus c).cache = []

structure Sound (w : TlbWorld cfg σ) : Prop where
  bounded : w.barrier.Bounded
  counted : ∀ c, (w.cpus c).running = true ∨ (w.cpus c).cache ≠ [] → w.counted c = true
  told : ∀ t, w.task = some t → t.manner = .told → w.Told t
  untold : ∀ t, w.task = some t → t.manner = .untold → w.Unobserved t

end

theorem Told.keep (told : w.Told t) (arch : w'.space.arch = w.space.arch) (clear : ∀ c, w.Clear t c → w'.Clear t c)
    (answered : ∀ g, State.Answered (fun c => c ≠ t.cpu → w'.Clear t c) g w.barrier →
      State.Answered (fun c => c ≠ t.cpu → w'.Clear t c) g w'.barrier) : w'.Told t := by
  refine ⟨arch ▸ told.withheld,?_⟩
  obtain ⟨write,writes,clearing⟩ := told.clearing
  refine ⟨write,writes,?_⟩
  cases stage : t.stage with
  | run =>
    rw [stage] at clearing
    obtain ⟨dirty,tidy,cleared⟩ := clearing
    exact ⟨dirty,tidy,fun clean c other => clear c (cleared clean c other)⟩
  | holders =>
    rw [stage] at clearing
    exact ⟨clearing.1,fun c other outside => clear c (clearing.2 c other outside)⟩
  | waiting =>
    rw [stage] at clearing
    obtain ⟨tidy,outside,seen,acted⟩ := clearing
    refine ⟨tidy,fun c other none => clear c (outside c other none),fun c other done => clear c (seen c other done),?_⟩
    exact answered _ (acted.mono fun c cleared other => clear c (cleared other))

variable {c cpu : Fin cfg.maxCpus} {barrier : State (Fin cfg.maxCpus)} {f : PhysFrame} {call : VmCall cfg}
  {stage : Stage cfg} {program next : VmProgram cfg} {targets : List (Fin cfg.maxCpus)} {a : TlbAction cfg}
  {outcome : AddressSpace cfg × σ}

theorem Clear.fewer (clear : w.Clear t c) (fewer : ∀ e ∈ (w'.cpus c).cache, e ∈ (w.cpus c).cache) : w'.Clear t c :=
  fun r mem e cached => clear r mem e (fewer e cached)

theorem update_true (f : Fin cfg.maxCpus → Bool) (c d : Fin cfg.maxCpus) (h : f d = true) :
    update f c true d = true := by
  by_cases same : d = c
  · rw [same, update_self]
  · rwa [update_of_ne same]

theorem counted_mono (everywhere : w'.activeEverywhere = w.activeEverywhere)
    (cores : ∀ c, w.activeCores c = true → w'.activeCores c = true)
    (online : ∀ c, w.online c = true → w'.online c = true) (c : Fin cfg.maxCpus) (h : w.counted c = true) :
    w'.counted c = true := by
  unfold counted at *
  rw [everywhere]
  split at h
  · rename_i set
    rw [if_pos set]
    exact online c h
  rename_i unset
  rw [if_neg unset]
  exact cores c h

@[simp] theorem setCpu_same (w : TlbWorld cfg σ) (c : Fin cfg.maxCpus) (view : CpuView) :
    (w.setCpu c view).cpus c = view :=
  update_self ..

@[simp] theorem setCpu_other (w : TlbWorld cfg σ) (other : d ≠ c) (view : CpuView) :
    (w.setCpu c view).cpus d = w.cpus d :=
  update_of_ne other ..

theorem setCpu_fewer (fewer : ∀ e ∈ view.cache, e ∈ (w.cpus c).cache) (d : Fin cfg.maxCpus) :
    ∀ e ∈ ((w.setCpu c view).cpus d).cache, e ∈ (w.cpus d).cache := by
  by_cases same : d = c
  · subst same
    rwa [setCpu_same]
  · rw [setCpu_other _ same]
    exact fun _ => id

theorem setCpu_running (running : view.running = true → (w.cpus c).running = true)
    (d : Fin cfg.maxCpus) (runs : ((w.setCpu c view).cpus d).running = true) : (w.cpus d).running = true := by
  by_cases same : d = c
  · subst same
    rw [setCpu_same] at runs
    exact running runs
  · rwa [setCpu_other _ same] at runs

theorem not_mem_remoteHolders (noBroadcast : port.invalidateIsBroadcast = false)
    (outside : c ∉ w.remoteHolders port cpu) (other : c ≠ cpu) : w.counted c = false := by
  by_contra holds
  apply outside
  rw [remoteHolders, noBroadcast]
  simp only [Bool.false_eq_true, if_false, mem_filter, mem_finRange, true_and, Bool.and_eq_true, bne_iff_ne]
  exact ⟨Bool.eq_true_of_not_eq_false holds,other⟩

theorem invalidate_fewer (port : ArchPort) (w : TlbWorld cfg σ) (cpu : Fin cfg.maxCpus) (va : Nat) (c : Fin cfg.maxCpus) :
    ((w.invalidate port cpu va).cpus c).running = (w.cpus c).running ∧
      ∀ e ∈ ((w.invalidate port cpu va).cpus c).cache, e ∈ (w.cpus c).cache := by
  unfold invalidate
  dsimp only
  split
  · exact ⟨rfl,fun _ mem => mem_of_mem_filter mem⟩
  · exact ⟨rfl,fun _ => id⟩

theorem Sound.moves (sound : w.Sound) (there : w.task = some t) (task : w'.task = some t')
    (manner : t'.manner = t.manner) (cpu : t'.cpu = t.cpu) (barrier : w'.barrier = w.barrier)
    (counted : w'.counted = w.counted)
    (fewer : ∀ c, (w'.cpus c).running = (w.cpus c).running ∧ ∀ e ∈ (w'.cpus c).cache, e ∈ (w.cpus c).cache)
    (told : t.manner = .told → w.Told t → w'.Told t') : w'.Sound := by
  have empty (c : Fin cfg.maxCpus) (none : (w.cpus c).cache = []) : (w'.cpus c).cache = [] :=
    subset_nil.mp (none ▸ (fewer c).2)
  refine ⟨barrier ▸ sound.bounded,fun c held => ?_,fun _ same kind => ?_,fun _ same kind c other => ?_⟩
  · rw [counted]
    rw [(fewer c).1] at held
    exact sound.counted c (held.imp id fun cached none => cached (empty c none))
  · rw [task] at same
    cases same
    exact told (manner ▸ kind) (sound.told t there (manner ▸ kind))
  rw [task] at same
  cases same
  obtain ⟨idle,none⟩ := sound.untold t there (manner ▸ kind) c (cpu ▸ other)
  exact ⟨(fewer c).1.trans idle,empty c none⟩

section
variable (sound : w.Sound)
include sound

/-- The step lemma's frame: nothing about the operation, its page tables or the
    requests changes, and no processor caches more or starts to run. -/
theorem Sound.quieter (arch : w'.space.arch = w.space.arch) (task : w'.task = w.task)
    (barrier : w'.barrier = w.barrier) (counted : ∀ c, w.counted c = true → w'.counted c = true)
    (fewer : ∀ c, ∀ e ∈ (w'.cpus c).cache, e ∈ (w.cpus c).cache)
    (running : ∀ c, (w'.cpus c).running = true → (w.cpus c).running = true) : w'.Sound where
  bounded := barrier ▸ sound.bounded
  counted c held := by
    apply counted
    apply sound.counted
    exact held.imp (running c) fun cached empty => cached (subset_nil.mp (empty ▸ fewer c))
  told t there manner := by
    rw [task] at there
    exact (sound.told t there manner).keep arch (fun c clear => clear.fewer (fewer c)) fun _ h => barrier ▸ h
  untold t there manner c other := by
    rw [task] at there
    obtain ⟨idle,empty⟩ := sound.untold t there manner c other
    constructor
    · by_contra started
      rw [running c (Bool.eq_true_of_not_eq_false started)] at idle
      cases idle
    · exact subset_nil.mp (empty ▸ fewer c)

theorem Sound.answering (bounded : barrier.Bounded)
    (answered : ∀ {p g}, State.Answered p g w.barrier → State.Answered p g barrier) :
    ({ w with barrier } : TlbWorld cfg σ).Sound where
  bounded := bounded
  counted := sound.counted
  told t there manner := (sound.told t there manner).keep rfl (fun _ => id) fun _ => answered
  untold := sound.untold

theorem Sound.flush (acted : w.barrier.act c = some barrier) :
    (({ w with barrier } : TlbWorld cfg σ).setCpu c { w.cpus c with cache := [] }).Sound := by
  have fewer : ∀ d, ∀ e ∈ ((w.setCpu c { w.cpus c with cache := [] }).cpus d).cache, e ∈ (w.cpus d).cache :=
    setCpu_fewer nofun
  have quiet : (w.setCpu c { w.cpus c with cache := [] }).Sound :=
    sound.quieter rfl rfl rfl (fun _ => id) fewer (setCpu_running id)
  refine ⟨sound.bounded.act acted,quiet.counted,fun t there manner => ?_,quiet.untold⟩
  refine (sound.told t there manner).keep rfl (fun d clear => clear.fewer (fewer d)) fun _ answered => ?_
  refine answered.act acted fun _ _ _ _ _ _ _ mem => ?_
  rw [setCpu_same] at mem
  cases mem

theorem Sound.access (there : w.space.arch.pages p = some (f, fl)) (running : (w.cpus c).running = true) :
    (w.setCpu c { w.cpus c with cache := ⟨p, f, fl⟩ :: (w.cpus c).cache }).Sound where
  bounded := sound.bounded
  counted d held := by
    by_cases same : d = c
    · subst same
      exact sound.counted d (Or.inl running)
    · rw [setCpu_other _ same] at held
      exact sound.counted d held
  told t task manner := by
    have told := sound.told t task manner
    refine told.keep rfl (fun d clear => ?_) fun _ => id
    by_cases same : d = c
    · subst same
      intro r mem e cached
      rw [setCpu_same] at cached
      rcases mem_cons.mp cached with rfl | old
      · exact told.withheld r mem p f fl there
      · exact clear r mem e old
    refine clear.fewer ?_
    rw [setCpu_other _ same]
    exact fun _ => id
  untold t task manner d other := by
    have unobserved := sound.untold t task manner d other
    by_cases same : d = c
    · subst same
      rw [running] at unobserved
      cases unobserved.1
    · rwa [setCpu_other _ same]

/-- A processor may come to run on the space if it is counted among the holders and
    no operation that tells nobody is under way on another. -/
theorem Sound.runs (space : w'.space = w.space) (task : w'.task = w.task)
    (barrier : w'.barrier = w.barrier) (cpus : w'.cpus = (w.setCpu c { w.cpus c with running := true }).cpus)
    (counted : ∀ d, w.counted d = true → w'.counted d = true) (mine : w'.counted c = true)
    (noUntold : ∀ t, w.task = some t → t.manner = .untold → c = t.cpu) : w'.Sound where
  bounded := barrier ▸ sound.bounded
  counted d held := by
    by_cases same : d = c
    · exact same ▸ mine
    · rw [cpus, setCpu_other _ same] at held
      exact counted d (sound.counted d held)
  told t there manner := by
    rw [task] at there
    refine (sound.told t there manner).keep (by rw [space]) (fun d clear => clear.fewer ?_) fun _ h => barrier ▸ h
    rw [cpus]
    refine setCpu_fewer ?_ d
    exact fun _ => id
  untold t there manner d other := by
    rw [task] at there
    have apart : d ≠ c := fun same => other (same.trans (noUntold t there manner))
    rw [cpus, setCpu_other _ apart]
    exact sound.untold t there manner d other

theorem Sound.uncounted (outside : w.counted c = false) : (w.cpus c).running = false ∧ (w.cpus c).cache = [] := by
  constructor
  · by_contra started
    rw [sound.counted c (Or.inl (Bool.eq_true_of_not_eq_false started))] at outside
    cases outside
  · by_contra cached
    rw [sound.counted c (Or.inr cached)] at outside
    cases outside

theorem Sound.clear_outside (noBroadcast : port.invalidateIsBroadcast = false)
    (outside : c ∉ w.remoteHolders port cpu) (other : c ≠ cpu) (t : Task cfg) : w.Clear t c := by
  intro _ _ _ cached
  rw [(sound.uncounted (not_mem_remoteHolders noBroadcast outside other)).2] at cached
  cases cached

theorem Sound.start (noBroadcast : port.invalidateIsBroadcast = false)
    (alone : call.manner w.space = .untold → w.remoteHolders port cpu = []) :
    ({ w with task := some ⟨call.manner w.space, cpu, .run (call.program w.space), []⟩ } : TlbWorld cfg σ).Sound where
  bounded := sound.bounded
  counted := sound.counted
  told t there manner := by
    cases there
    obtain ⟨write,tidy⟩ := VmCall.tidy manner
    refine ⟨fun _ mem => (by cases mem),write,fun _ _ mem => (by cases mem),false,tidy,fun _ c _ => ?_⟩
    intro _ mem
    cases mem
  untold t there manner c other := by
    cases there
    refine sound.uncounted (not_mem_remoteHolders noBroadcast ?_ other)
    rw [alone manner]
    exact not_mem_nil

theorem Sound.onward (there : w.task = some t) (was : t.stage = old) {source : σ}
    (bounded : barrier.Bounded) (clearing : ∀ write, w.Clearing t write old →
      ({ w with source, barrier } : TlbWorld cfg σ).Clearing { t with stage } write stage) :
    (({ w with source, barrier } : TlbWorld cfg σ).setStage t stage).Sound where
  bounded := bounded
  counted := sound.counted
  told t' same manner := by
    cases same
    have told := sound.told t there manner
    obtain ⟨write,writes,before⟩ := told.clearing
    refine ⟨told.withheld,write,writes,?_⟩
    have after := clearing write (was ▸ before)
    cases stage with
    | run | holders | waiting => exact after
  untold t' same manner := by
    cases same
    exact sound.untold t there manner

theorem Sound.narrow (there : w.task = some t) (told : w.Told t → (∀ r ∈ revoked, r.Withheld arch) ∧
      ∃ write, (∀ p f, .write p f ∈ revoked → write = false) ∧ program.Tidy write true) :
    (({ w with space := w.space.setArch arch }.invalidate port t.cpu va).setStage
      { t with revoked } (.run program)).Sound := by
  refine sound.moves there rfl rfl rfl rfl rfl (fun c => invalidate_fewer port
    ({ w with space := w.space.setArch arch } : TlbWorld cfg σ) t.cpu va c) fun _ before => ?_
  obtain ⟨withheld,write,writes,tidy⟩ := told before
  exact ⟨withheld,write,writes,true,tidy,fun contra => by cases contra⟩

theorem Sound.request (there : w.task = some t) (stage : t.stage = .holders targets next) :
    (w.requestTask t targets next .sent).Sound := by
  refine sound.onward there stage sound.bounded.request fun _ clearing => ?_
  obtain ⟨tidy,outside⟩ := clearing
  exact ⟨tidy,outside,outside,sound.bounded.answered _⟩

/-- The wait is over when each target has been seen with an answer at least as high
    as the request; then it has dropped everything since. -/
theorem Sound.poll (there : w.task = some t) (stage : t.stage = .waiting generation targets remaining left next)
    (inTime : ∀ c rest, remaining = c :: rest → left = 0 → generation ≤ (w.barrier.party c).acked) :
    (w.pollTask t generation targets left next remaining).Sound := by
  cases remaining with
  | nil =>
    refine sound.onward there stage sound.bounded fun _ clearing => ?_
    obtain ⟨tidy,_,seen,_⟩ := clearing
    exact ⟨false,tidy,fun _ c other => seen c other not_mem_nil⟩
  | cons c rest =>
    simp only [pollTask]
    split
    · rename_i acked
      refine sound.onward there stage sound.bounded fun _ clearing => ?_
      obtain ⟨tidy,outside,seen,answered⟩ := clearing
      refine ⟨tidy,outside,fun d other done => ?_,answered⟩
      by_cases same : d = c
      · subst same
        exact (answered d).1 acked other
      apply seen d other
      intro mem
      rcases mem_cons.mp mem with here | later
      · exact same here
      · exact done later
    · rename_i missing
      split
      · rename_i out
        exact absurd (inTime c rest rfl out) missing
      refine sound.onward there stage sound.bounded fun _ clearing => ?_
      obtain ⟨tidy,outside,_,answered⟩ := clearing
      exact ⟨tidy,outside,outside,answered⟩

end

variable [FrameSource σ]

theorem Sound.execute (sound : w.Sound) (noBroadcast : port.invalidateIsBroadcast = false)
    (there : w.task = some t) (stage : t.stage = .run program) : (w.execute port t program).Sound := by
  -- a step to another program that is as tidy, with nothing else changed
  have step : ∀ {next : VmProgram cfg} {source : σ},
      (∀ write dirty, program.Tidy write dirty → next.Tidy write dirty) →
      (({ w with source } : TlbWorld cfg σ).setStage t (.run next)).Sound := by
    intro next _ tidy
    refine sound.onward there stage sound.bounded fun write clearing => ?_
    obtain ⟨dirty,before,cleared⟩ := clearing
    exact ⟨dirty,tidy write dirty before,cleared⟩
  cases program with
  | translate | alloc => exact step fun _ _ tidy => tidy _
  | unmap =>
    simp only [execute]
    split
    · exact step fun _ _ tidy => tidy.2 _
    rename_i frame _ done
    refine sound.narrow there fun told => ⟨fun r mem => ?_,?_⟩
    · rcases mem_cons.mp mem with rfl | old
      · exact withheld_unmapped done
      · exact (told.withheld r old).unmap done
    obtain ⟨write,writes,clearing⟩ := told.clearing
    rw [stage] at clearing
    obtain ⟨dirty,tidy,_⟩ := clearing
    refine ⟨write,fun p f mem => ?_,tidy.1 frame⟩
    rcases mem_cons.mp mem with contra | old
    · cases contra
    · exact writes p f old
  | protect =>
    simp only [execute]
    split
    · exact step fun _ _ tidy => tidy.2.2 _
    rename_i done
    refine sound.narrow there fun told => ?_
    obtain ⟨write,writes,clearing⟩ := told.clearing
    rw [stage] at clearing
    obtain ⟨dirty,⟨agrees,tidy,_⟩,_⟩ := clearing
    refine ⟨fun r mem => ?_,write,fun p f mem => ?_,tidy⟩
    · rcases mem_append.mp mem with new | old
      · exact (withheld_protected done new).1
      · refine (told.withheld r old).protect done fun p f same => ?_
        rw [agrees]
        exact writes p f (same ▸ old)
    · rcases mem_append.mp mem with new | old
      · exact agrees.symm.trans (withheld_protected done new).2
      · exact writes p f old
  | map va =>
    -- no operation that tells the others puts anything back
    have never : w.Told t → False := by
      intro told
      obtain ⟨write,_,clearing⟩ := told.clearing
      rw [stage] at clearing
      obtain ⟨dirty,tidy,_⟩ := clearing
      exact tidy
    simp only [execute]
    split
    · exact sound.moves there rfl rfl rfl rfl rfl (fun _ => ⟨rfl,fun _ => id⟩) fun _ told => (never told).elim
    · exact sound.moves there rfl rfl rfl rfl rfl (fun c => invalidate_fewer port _ t.cpu va c)
        fun _ told => (never told).elim
  | retain | freeTables => exact step fun _ _ tidy => tidy
  | free => exact step fun _ _ tidy => tidy.2
  | shootDown next =>
    have tidyNext : ∀ {write dirty}, (shootDown next).Tidy write dirty → next.Tidy write false := id
    simp only [execute]
    split
    · rename_i nobody
      refine sound.onward there stage sound.bounded fun _ clearing => ?_
      obtain ⟨_,tidy,_⟩ := clearing
      refine ⟨false,tidyNext tidy,fun _ _ other => sound.clear_outside noBroadcast ?_ other t⟩
      rw [List.isEmpty_iff.mp nobody]
      exact not_mem_nil
    · refine sound.onward there stage sound.bounded fun _ clearing => ?_
      obtain ⟨_,tidy,_⟩ := clearing
      exact ⟨tidyNext tidy,fun _ other outside => sound.clear_outside noBroadcast outside other t⟩
  | ret =>
    exact ⟨sound.bounded,sound.counted,fun _ none => (by cases none),fun _ none => (by cases none)⟩

/-- The discipline: every request goes out and is answered in time, an operation that
    tells nobody runs only where there is nobody to tell, and a processor comes to run
    on the space only where the space counts it. -/
def Answers (port : ArchPort) (w : TlbWorld cfg σ) : TlbAction cfg → Prop
  | .start cpu call => call.manner w.space = .untold → w.remoteHolders port cpu = []
  | .request how => how = .sent
  | .poll => ∀ t generation targets c rest next, w.task = some t →
      t.stage = .waiting generation targets (c :: rest) 0 next → generation ≤ (w.barrier.party c).acked
  | .activate cpu => (w.activeEverywhere = true → w.online cpu = true) ∧
      ∀ t, w.task = some t → t.manner = .untold → cpu = t.cpu
  | .resume cpu => w.counted cpu = true ∧ ∀ t, w.task = some t → t.manner = .untold → cpu = t.cpu
  | _ => True

theorem Sound.perform (sound : w.Sound) (noBroadcast : port.invalidateIsBroadcast = false)
    (answers : w.Answers port a) (done : w.perform port a = some w') : w'.Sound := by
  cases a with simp only [perform] at done
  | start =>
    split at done
    · cases done
      exact sound.start noBroadcast answers
    · cases done
  | advance =>
    split at done
    · rename_i there
      cases done
      exact sound.execute noBroadcast there rfl
    · cases done
  | request =>
    split at done
    · rename_i there
      cases done
      cases answers
      exact sound.request there rfl
    · cases done
  | poll =>
    split at done
    · rename_i next _ there
      cases done
      refine sound.poll there rfl fun c rest first out => ?_
      subst first out
      exact answers _ _ _ c rest next there rfl
    · cases done
  | access =>
    split at done
    · rename_i there
      split at done
      · rename_i running
        cases done
        exact sound.access there running
      · cases done
    · cases done
  | load cpu =>
    cases done
    exact sound.answering (sound.bounded.load cpu) (·.load cpu)
  | flush =>
    obtain ⟨_,acted,rfl⟩ := map_eq_some_iff.mp done
    exact sound.flush acted
  | acknowledge =>
    obtain ⟨_,published,rfl⟩ := map_eq_some_iff.mp done
    exact sound.answering (sound.bounded.publish published) (·.publish published)
  | activate cpu =>
    cases done
    refine sound.runs rfl rfl rfl rfl ?_ ?_ answers.2
    · refine counted_mono rfl (fun d => ?_) fun _ => id
      exact update_true w.activeCores cpu d
    · cases everywhere : w.activeEverywhere with
      | true => simpa [TlbWorld.counted, setCpu] using answers.1 everywhere
      | false => simp [TlbWorld.counted, setCpu]
  | resume =>
    cases done
    exact sound.runs rfl rfl rfl rfl (fun _ => id) answers.1 answers.2
  | leave =>
    cases done
    exact sound.quieter rfl rfl rfl (fun _ => id) (setCpu_fewer fun _ => id) (setCpu_running nofun)
  | bringOnline cpu =>
    cases done
    refine sound.quieter rfl rfl rfl ?_ (fun _ _ => id) fun _ => id
    refine counted_mono rfl (fun _ => id) fun d => ?_
    exact update_true w.online cpu d
  | requestElsewhere =>
    cases done
    exact sound.answering sound.bounded.request id

structure Quiet (w : TlbWorld cfg σ) : Prop where
  task : w.task = none
  cache : ∀ c, (w.cpus c).cache = []
  counted : ∀ c, (w.cpus c).running = true → w.counted c = true
  bounded : w.barrier.Bounded

omit [FrameSource σ] in
theorem Quiet.sound (quiet : w.Quiet) : w.Sound where
  bounded := quiet.bounded
  counted c held := held.elim (quiet.counted c) fun cached => absurd (quiet.cache c) cached
  told t there := by
    rw [quiet.task] at there
    cases there
  untold t there := by
    rw [quiet.task] at there
    cases there

def rest : Stage cfg → VmProgram cfg
  | .run program => program
  | .holders _ next | .waiting _ _ _ _ next => next

/-- The operation under way will leave the space and the frames like this, or has done so. -/
def Heads (port : ArchPort) (outcome : AddressSpace cfg × σ) (w : TlbWorld cfg σ) : Prop :=
  match w.task with
  | some t => ((rest t.stage).alone port w.space w.source).2 = outcome
  | none => (w.space, w.source) = outcome

theorem heads_execute (heads : (program.alone port w.space w.source).2 = outcome) :
    Heads port outcome (w.execute port t program) := by
  fun_cases w.execute port t program with
  | case2 | case3 | case4 | case5 | case6 | case7 =>
    simp_all only [unmap_alone, protect_alone, map_alone]
    exact heads
  | case8 _ _ _ allocated =>
    rw [alone, allocated] at heads
    exact heads
  | _ => exact heads

/-- A call does all it does where it starts, and nothing else does anything. -/
def sequel (port : ArchPort) (outcome : AddressSpace cfg × σ) : TlbAction cfg → AddressSpace cfg × σ
  | .start _ call => (call.carryOut port outcome.1 outcome.2).2
  | _ => outcome

theorem heads_step (heads : Heads port outcome w) (step : Step port w a w') : Heads port (sequel port outcome a) w' := by
  -- the processors' steps leave the operation, its space and its frames alone
  have aside : ∀ {v : TlbWorld cfg σ}, v.task = w.task → v.space = w.space → v.source = w.source →
      Heads port outcome v := by
    intro _ task space src
    unfold Heads
    rw [task, space, src]
    exact heads
  unfold Step at step
  cases a with simp only [perform] at step
  | start cpu call =>
    split at step
    · rename_i idle
      cases step
      rw [Heads, idle] at heads
      subst heads
      exact congrArg Prod.snd (call.program_alone port w.space w.source)
    · cases step
  | advance =>
    split at step
    · rename_i there
      cases step
      rw [Heads, there] at heads
      exact heads_execute heads
    · cases step
  | request how =>
    split at step
    · rename_i there
      cases step
      rw [Heads, there] at heads
      cases how <;> exact heads
    · cases step
  | poll =>
    split at step
    · rename_i remaining _ _ _ there
      cases step
      rw [Heads, there] at heads
      cases remaining with
      | nil => exact heads
      | cons =>
        simp only [pollTask]
        split
        · exact heads
        · split <;> exact heads
    · cases step
  | access =>
    split at step
    · split at step
      · cases step
        exact aside rfl rfl rfl
      · cases step
    · cases step
  | load | activate | resume | leave | bringOnline | requestElsewhere =>
    cases step
    exact aside rfl rfl rfl
  | flush | acknowledge =>
    obtain ⟨_,_,rfl⟩ := map_eq_some_iff.mp step
    exact aside rfl rfl rfl

/-- Whatever the other processors do in between, the calls made on a space take effect
    one after the other, each as a whole. -/
theorem calls_take_effect_in_order (idle : v.task = none) (run : Run (Step port) v history w) (ended : w.task = none) :
    (w.space, w.source) = history.foldl (sequel port) (v.space, v.source) := by
  have heads : Heads port (history.foldl (sequel port) (v.space, v.source)) w := by
    refine Disciplined.invariant (fun as => Heads port (as.foldl (sequel port) (v.space, v.source))) ?_ ?_ run
    · intro _ _ _ _ heads _ step
      rw [foldl_concat]
      exact heads_step heads step
    · rw [Heads, idle]
      rfl
  rw [Heads, ended] at heads
  exact heads

/-- In every state that a run with answered requests leads to: when an operation
    that takes something away is about to give a frame back, or to report success, no
    other processor has a cached way to the frame through what was taken away, or to
    anything the operation has taken away. -/
theorem no_stale_translation_after_revocation {start : TlbWorld cfg σ} {history : List (TlbAction cfg)}
    (noBroadcast : port.invalidateIsBroadcast = false) (quiet : start.Quiet)
    (run : Disciplined (fun _ => Answers port) (Step port) start history w) (there : w.task = some t)
    (takes : t.manner ≠ .keeps) :
    (∀ f next, t.stage = .run (.free f next) → ∀ c, c ≠ t.cpu → ∀ r ∈ t.revoked, r.frame = f →
      ∀ e ∈ (w.cpus c).cache, r.usedBy e = false) ∧
    (∀ result finish, t.stage = .run (.ret result finish) → result.succeeded = true →
      ∀ c, c ≠ t.cpu → ∀ r ∈ t.revoked, ∀ e ∈ (w.cpus c).cache, r.usedBy e = false) := by
  have sound : w.Sound := by
    refine Disciplined.invariant (fun _ => Sound) ?_ quiet.sound run
    intro _ _ _ _ before answers step
    exact before.perform noBroadcast answers step
  cases manner : t.manner with
  | keeps => exact absurd manner takes
  | untold =>
    have empty : ∀ c, c ≠ t.cpu → (w.cpus c).cache = [] := fun c other => (sound.untold t there manner c other).2
    constructor
    · intro _ _ _ c other r _ _ _ cached
      rw [empty c other] at cached
      cases cached
    · intro _ _ _ _ c other r _ _ cached
      rw [empty c other] at cached
      cases cached
  | told =>
    obtain ⟨_,_,clearing⟩ := (sound.told t there manner).clearing
    constructor
    · intro _ _ stage c other r mem _
      rw [stage] at clearing
      obtain ⟨_,tidy,cleared⟩ := clearing
      exact cleared tidy.1 c other r mem
    · intro _ _ stage succeeded c other
      rw [stage] at clearing
      obtain ⟨_,tidy,cleared⟩ := clearing
      exact cleared (tidy succeeded) c other

def answers (port : ArchPort) (w : TlbWorld cfg σ) : TlbAction cfg → Bool
  | .start cpu call => call.manner w.space ≠ .untold || (w.remoteHolders port cpu).isEmpty
  | .request how => how = .sent
  | .poll =>
    match w.task with
    | some ⟨_, _, .waiting generation _ (c :: _) 0 _, _⟩ => generation ≤ (w.barrier.party c).acked
    | _ => true
  | .activate cpu => (!w.activeEverywhere || w.online cpu) && w.task.all fun t => t.manner ≠ .untold || cpu = t.cpu
  | .resume cpu => w.counted cpu && w.task.all fun t => t.manner ≠ .untold || cpu = t.cpu
  | _ => true

omit [FrameSource σ] in
theorem answers_eq_true (h : w.answers port a = true) : w.Answers port a := by
  cases a with
  | start =>
    intro untold
    simpa [answers, untold] using h
  | request how =>
    show how = .sent
    simpa [answers] using h
  | poll =>
    intro t _ _ _ _ _ there stage
    obtain ⟨_,_,_,_⟩ := t
    cases stage
    simpa [answers, there] using h
  | activate =>
    simp only [answers, Bool.and_eq_true, Option.all_eq_true] at h
    refine ⟨fun everywhere => by simpa [everywhere] using h.1,fun t there untold => ?_⟩
    simpa [untold] using h.2 t there
  | resume =>
    simp only [answers, Bool.and_eq_true, Option.all_eq_true] at h
    refine ⟨h.1,fun t there untold => ?_⟩
    simpa [untold] using h.2 t there
  | _ => trivial

def cpu0 : Fin default.maxCpus := ⟨0, Config.boot_cpu⟩

def cpu1 : Fin default.maxCpus := ⟨1, Config.next_cpu⟩

def machine : TlbWorld default (BumpFrameAllocator default) :=
  let (made, source) := AddressSpace.new (BumpFrameAllocator.new VmWorld.machineMemory)
  let empty : AddressSpace default :=
    match made with
    | .ok sp => sp
    | .error _ => .fromArch ⟨VmWorld.registers, [], fun _ => none⟩
  let (_, space, source) := empty.mapAnonymous .x8664 0x40000000 4096 PageFlags.rw.user source
  { space, source, activeEverywhere := false, activeCores := fun _ => false, online := fun _ => true, spins := 2
    barrier := ⟨0, fun _ => ⟨0, []⟩⟩, cpus := fun _ => ⟨false, []⟩, task := none }

theorem machine_quiet : machine.Quiet where
  task := rfl
  cache _ := rfl
  counted _ contra := by cases contra
  bounded _ := ⟨Nat.le_refl 0,fun _ mem => by cases mem⟩

def answeredEviction : List (TlbAction default) :=
  [.activate cpu1, .access cpu1 0x40000, .start cpu0 (.evictPage 0x40000000), .advance, .advance, .advance,
    .request .sent, .poll, .load cpu1, .flush cpu1, .acknowledge cpu1, .poll, .poll]

def freeing (page : Nat) (t : Task cfg) : Option PhysFrame :=
  match t.stage with
  | .run (.free f _) => if .access page f ∈ t.revoked then some f else none
  | _ => none

theorem freeing_eq_some (h : freeing page t = some f) :
    (∃ next, t.stage = .run (.free f next)) ∧ .access page f ∈ t.revoked := by
  unfold freeing at h
  split at h
  · rename_i next stage
    split at h
    · rename_i mem
      cases h
      exact ⟨⟨next,stage⟩,mem⟩
    · cases h
  · cases h

/-- The eviction is about to give the frame back, and the other processor, which had
    the page cached, has no way to it any more. -/
theorem evicted_page_is_out_of_reach :
    ∃ w t f next, Disciplined (fun _ => Answers .x8664) (Step .x8664) machine answeredEviction w ∧
      w.task = some t ∧ t.stage = .run (.free f next) ∧ .access 0x40000 f ∈ t.revoked ∧
      ∀ e ∈ (w.cpus cpu1).cache, (access 0x40000 f).usedBy e = false := by
  have done : (performAll (fun _ w a => w.answers .x8664 a = true) (perform .x8664) [] machine answeredEviction).any
      (fun w => w.task.any fun t => t.manner ≠ .keeps && cpu1 ≠ t.cpu && (freeing 0x40000 t).isSome) = true := by
    decide +kernel
  obtain ⟨w,performed,busy⟩ := (any_eq_true _ _).mp done
  obtain ⟨t,there,checked⟩ := (any_eq_true _ _).mp busy
  simp only [Bool.and_eq_true, decide_eq_true_eq] at checked
  obtain ⟨⟨takes,other⟩,freed⟩ := checked
  obtain ⟨f,releasing⟩ := isSome_iff_exists.mp freed
  obtain ⟨⟨next,stage⟩,mem⟩ := freeing_eq_some releasing
  have run := (Disciplined.start.performAll performed).mono fun _ _ _ => answers_eq_true
  refine ⟨w,t,f,next,run,there,stage,mem,?_⟩
  exact (no_stale_translation_after_revocation rfl machine_quiet run there takes).1 f next stage cpu1 other _ mem rfl

/-- The eviction among the other processor's steps leaves what it leaves alone. -/
theorem eviction_takes_effect : ∃ w, Run (Step .x8664) machine (answeredEviction ++ [.advance, .advance]) w ∧
    w.task = none ∧ (w.space, w.source) = (machine.space.evictPage 0x40000000 machine.source).2 :=
  Disciplined.reaches_also (by decide +kernel) fun _ run => calls_take_effect_in_order rfl run

/-- An operation takes something away and gives the frame back, or reports success,
    while another processor still has a cached way to it. -/
def Stale (w : TlbWorld cfg σ) : Prop :=
  ∃ t, w.task = some t ∧ t.manner ≠ .keeps ∧ ∃ c, c ≠ t.cpu ∧ ∃ r ∈ t.revoked, ∃ e ∈ (w.cpus c).cache,
    r.usedBy e = true ∧
    ((∃ f next, t.stage = .run (.free f next) ∧ r.frame = f) ∨
      ∃ result finish, t.stage = .run (.ret result finish) ∧ result.succeeded = true)

def released (r : Revoked) : Stage cfg → Bool
  | .run (.free f _) => r.frame = f
  | .run (.ret result _) => result.succeeded
  | _ => false

theorem released_eq_true (h : released r stage = true) : (∃ f next, stage = .run (.free f next) ∧ r.frame = f) ∨
      ∃ result finish, stage = .run (.ret result finish) ∧ result.succeeded = true := by
  unfold released at h
  split at h
  · rename_i f next
    exact .inl ⟨f,next,rfl,of_decide_eq_true h⟩
  · rename_i result finish
    exact .inr ⟨result,finish,rfl,h⟩
  · cases h

def stale (w : TlbWorld cfg σ) : Bool :=
  w.task.any fun t => t.manner ≠ .keeps && (List.finRange cfg.maxCpus).any fun c =>
    c ≠ t.cpu && t.revoked.any fun r => released r t.stage && (w.cpus c).cache.any r.usedBy

omit [FrameSource σ] in
theorem stale_eq_true (h : w.stale = true) : w.Stale := by
  obtain ⟨t,there,found⟩ := (any_eq_true _ _).mp h
  simp only [Bool.and_eq_true, decide_eq_true_eq, List.any_eq_true] at found
  obtain ⟨takes,c,_,other,r,mem,point,e,cached,used⟩ := found
  exact ⟨t,there,takes,c,other,r,mem,e,cached,used,released_eq_true point⟩

def LeadsToStale (history : List (TlbAction default)) : Prop :=
  ∃ w, Run (Step .x8664) machine history w ∧ w.Stale

/-- With the page cached on the second processor: a write-back protection and a
    snapshot that tell nobody, a copy that frees the shared frame, an eviction whose
    request is not answered in time or cannot be sent, and an eviction after the
    scheduler has put a thread of the space on the second processor. -/
theorem revoked_page_stays_in_reach :
    LeadsToStale [.activate cpu1, .access cpu1 0x40000, .start cpu0 (.reprotectRo 0x40000000), .advance] ∧
    LeadsToStale [.activate cpu1, .access cpu1 0x40000, .start cpu0 (.snapshotCow 0x40000000 0x50000000 4096),
      .advance, .advance, .advance, .advance] ∧
    LeadsToStale [.start cpu0 (.snapshotCow 0x40000000 0x50000000 4096), .advance, .advance, .advance, .advance,
      .advance, .activate cpu1, .access cpu1 0x40000, .start cpu0 (.resolveFault 0x40000000 true), .advance,
      .advance, .advance, .advance] ∧
    LeadsToStale [.activate cpu1, .access cpu1 0x40000, .start cpu0 (.evictPage 0x40000000), .advance, .advance,
      .advance, .request .sent, .poll, .poll, .poll] ∧
    LeadsToStale [.activate cpu1, .access cpu1 0x40000, .start cpu0 (.evictPage 0x40000000), .advance, .advance,
      .advance, .request .noSender] ∧
    LeadsToStale [.resume cpu1, .access cpu1 0x40000, .start cpu0 (.evictPage 0x40000000), .advance, .advance,
      .advance] := by
  refine ⟨?_,?_,?_,?_,?_,?_⟩ <;>
    exact Disciplined.reaches_then (·.stale = true) (by decide +kernel) fun _ _ => stale_eq_true

end TlbWorld
end Tessera
