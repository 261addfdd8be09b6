import Tessera.Config
import Tessera.Lib.Transition

/-!
The machine lock under threads that park. The depth belongs to a CPU, a hold to the
thread that took it, and a hold names the CPU it was taken on; parking puts the whole
depth down and picks it up where the thread runs again. A CPU that waits for the owner
word takes no step. A thread is switched out only while its CPU holds nothing.
-/
namespace Tessera
open Function Transition

structure LockThread (cfg : Config) where
  holds : List (Fin cfg.maxCpus)
  /-- The depth a thread inside `park` has put down. -/
  saved : Option Nat
  deriving DecidableEq

structure LockState (cfg : Config) where
  owner : Option (Fin cfg.maxCpus)
  depth : Fin cfg.maxCpus → Nat
  current : Fin cfg.maxCpus → Option Nat
  thread : Nat → LockThread cfg

inductive LockAction (cfg : Config) where
  | hold (cpu : Fin cfg.maxCpus)
  | drop (cpu hold : Fin cfg.maxCpus)
  | park (cpu : Fin cfg.maxCpus)
  | switch (cpu : Fin cfg.maxCpus) (next : Option Nat)
  | unpark (cpu : Fin cfg.maxCpus)

namespace LockState
variable {cfg : Config}

def new : LockState cfg := ⟨none, fun _ => 0, fun _ => none, fun _ => ⟨[], none⟩⟩

section
variable (s : LockState cfg) (cpu : Fin cfg.maxCpus)

def acquire : Option (LockState cfg) := if s.owner = none then some { s with owner := some cpu } else none

def release : LockState cfg := { s with owner := none }

def setDepth (depth : Nat) : LockState cfg := { s with depth := update s.depth cpu depth }

def setThread (t : Nat) (thread : LockThread cfg) : LockState cfg := { s with thread := update s.thread t thread }

def hold : Option (LockState cfg) :=
  (if s.depth cpu = 0 then s.acquire cpu else some s).map (·.setDepth cpu (s.depth cpu + 1))

/-- The drop of a hold acts on the CPU the hold names. -/
def dropHold : LockState cfg :=
  if s.depth cpu - 1 = 0 then (s.setDepth cpu 0).release else s.setDepth cpu (s.depth cpu - 1)

def putDown : LockState cfg := if 0 < s.depth cpu then (s.setDepth cpu 0).release else s

def pickUp (depth : Nat) : Option (LockState cfg) :=
  if 0 < depth then (s.acquire cpu).map (·.setDepth cpu depth) else some s

/-- The thread that runs on the CPU, unless it is inside `park`. -/
def running : Option Nat := (s.current cpu).filter fun t => (s.thread t).saved = none

def perform : LockAction cfg → Option (LockState cfg)
  | .hold cpu => (s.running cpu).bind fun t =>
    (s.hold cpu).map (·.setThread t ⟨cpu :: (s.thread t).holds, none⟩)
  | .drop cpu hold => (s.running cpu).bind fun t =>
    if hold ∈ (s.thread t).holds then some ((s.dropHold hold).setThread t ⟨(s.thread t).holds.erase hold, none⟩)
    else none
  | .park cpu => (s.running cpu).map fun t =>
    (s.putDown cpu).setThread t ⟨(s.thread t).holds, some (s.depth cpu)⟩
  | .switch cpu next =>
    if s.depth cpu = 0 ∧ ∀ c, s.current c = next → next = none then
      some { s with current := update s.current cpu next }
    else none
  | .unpark cpu => (s.current cpu).bind fun t => (s.thread t).saved.bind fun depth =>
    (s.pickUp cpu depth).map (·.setThread t ⟨(s.thread t).holds, none⟩)

/-- The CPU that stores the free owner word in the step. -/
def clears : LockAction cfg → Option (Fin cfg.maxCpus)
  | .drop cpu hold => if s.depth hold - 1 = 0 then some cpu else none
  | .park cpu => if 0 < s.depth cpu then some cpu else none
  | _ => none

/-- A thread that parked with holds comes back where it took them. -/
def Home : LockAction cfg → Prop
  | .unpark cpu => ∀ t ∈ s.current cpu, ∀ c ∈ (s.thread t).holds, c = cpu
  | _ => True

instance (a : LockAction cfg) : Decidable (s.Home a) := by
  cases a <;> unfold Home <;> infer_instance

end

abbrev Runs (allowed : LockState cfg → LockAction cfg → Prop) : LockState cfg → List (LockAction cfg) →
    LockState cfg → Prop :=
  Disciplined (fun _ => allowed) fun s a s' => s.perform a = some s'

/-- A thread and the depth of the CPU it is on. -/
def Fits (cpu : Fin cfg.maxCpus) (depth : Nat) (t : LockThread cfg) : Prop :=
  match t.saved with
  | none => depth = t.holds.length ∧ ∀ c ∈ t.holds, c = cpu
  | some n => depth = 0 ∧ n = t.holds.length

structure Exclusive (s : LockState cfg) : Prop where
  owned : ∀ c, s.owner = some c ↔ s.depth c ≠ 0
  alone : ∀ c d t, s.current c = some t → s.current d = some t → c = d
  fits : ∀ c t, s.current c = some t → Fits c (s.depth c) (s.thread t)
  idle : ∀ c, s.current c = none → s.depth c = 0
  away : ∀ t, (∀ c, s.current c ≠ some t) → ∀ c, Fits c 0 (s.thread t)

variable {s s' : LockState cfg} {cpu : Fin cfg.maxCpus} {t depth : Nat} {a : LockAction cfg}

theorem fits_zero {th : LockThread cfg} (fits : Fits cpu 0 th) (c : Fin cfg.maxCpus) : Fits c 0 th := by
  unfold Fits at fits ⊢
  split
  · rename_i none
    rw [none] at fits
    refine ⟨fits.1,?_⟩
    rw [List.length_eq_zero_iff.mp fits.1.symm]
    simp
  · rename_i some
    rwa [some] at fits

/-- What a thread does on its own CPU keeps the lock exclusive if the owner word follows the depth. -/
theorem Exclusive.change (ex : s.Exclusive) (runs : s.current cpu = some t) {th : LockThread cfg}
    {owner : Option (Fin cfg.maxCpus)} (others : ∀ c, c ≠ cpu → (owner = some c ↔ s.owner = some c))
    (own : owner = some cpu ↔ depth ≠ 0) (fits : Fits cpu depth th) :
    Exclusive { s with owner, depth := update s.depth cpu depth, thread := update s.thread t th } := by
  refine ⟨fun c => ?_,ex.alone,fun c u here => ?_,fun c idle => ?_,fun u gone c => ?_⟩
  · by_cases same : c = cpu
    · simpa [same] using own
    · simpa [same] using (others c same).trans (ex.owned c)
  · by_cases same : c = cpu
    · subst same
      cases runs.symm.trans here
      simpa using fits
    · have apart : u ≠ t := fun other => same (ex.alone c cpu t (other ▸ here) runs)
      simpa [same, apart] using ex.fits c u here
  · have apart : c ≠ cpu := fun same => by cases (same ▸ idle).symm.trans runs
    simpa [apart] using ex.idle c idle
  · have apart : u ≠ t := fun same => gone cpu (same ▸ runs)
    simpa [apart] using ex.away u gone c

theorem only_cpu {owner later : Option (Fin cfg.maxCpus)} (before : owner = none ∨ owner = some cpu)
    (after : later = none ∨ later = some cpu) (c : Fin cfg.maxCpus) (apart : c ≠ cpu) :
    later = some c ↔ owner = some c := by
  rcases before with rfl | rfl <;> rcases after with rfl | rfl <;> simp [Ne.symm apart]

theorem running_eq_some (runs : s.running cpu = some t) : s.current cpu = some t ∧ (s.thread t).saved = none := by
  obtain ⟨here,awake⟩ := Option.filter_eq_some_iff.mp runs
  exact ⟨here,of_decide_eq_true awake⟩

theorem Exclusive.running (ex : s.Exclusive) (runs : s.running cpu = some t) :
    s.depth cpu = (s.thread t).holds.length ∧ ∀ c ∈ (s.thread t).holds, c = cpu := by
  obtain ⟨here,awake⟩ := running_eq_some runs
  have fits := ex.fits cpu t here
  rwa [Fits, awake] at fits

theorem Exclusive.owner_of_mem (ex : s.Exclusive) (runs : s.running cpu = some t) {hold : Fin cfg.maxCpus}
    (mem : hold ∈ (s.thread t).holds) : s.owner = some cpu := by
  have positive : 0 < s.depth cpu := (ex.running runs).1 ▸ List.length_pos_of_mem mem
  exact (ex.owned cpu).mpr (Nat.ne_of_gt positive)

theorem Exclusive.hold (ex : s.Exclusive) {z : LockState cfg} (held : s.hold cpu = some z) :
    (s.owner = none ∨ s.owner = some cpu) ∧
      z = { s with owner := some cpu, depth := update s.depth cpu (s.depth cpu + 1) } := by
  obtain ⟨y,got,rfl⟩ := Option.map_eq_some_iff.mp held
  split at got
  · obtain ⟨free,made⟩ := Option.ite_none_right_eq_some.mp got
    cases made
    exact ⟨.inl free,rfl⟩
  · rename_i level
    have own := (ex.owned cpu).mpr level
    cases got
    exact ⟨.inr own,by simp [setDepth, own]⟩

/-- Putting a nonzero depth down, or the last level of it. -/
theorem Exclusive.lowers (ex : s.Exclusive) (here : s.current cpu = some t) {th : LockThread cfg}
    (held : s.depth cpu ≠ 0) (fits : Fits cpu 0 th) :
    Exclusive (((s.setDepth cpu 0).release).setThread t th) :=
  ex.change here (only_cpu (.inr ((ex.owned cpu).mpr held)) (.inl rfl)) (by simp [release]) fits

theorem Exclusive.perform (ex : s.Exclusive) (home : s.Home a) (step : s.perform a = some s') : s'.Exclusive := by
  cases a with
  | hold cpu =>
    obtain ⟨t,runs,rest⟩ := Option.bind_eq_some_iff.mp step
    obtain ⟨counted,taken⟩ := ex.running runs
    obtain ⟨z,held,rfl⟩ := Option.map_eq_some_iff.mp rest
    obtain ⟨before,rfl⟩ := ex.hold held
    exact ex.change (running_eq_some runs).1 (only_cpu before (.inr rfl)) (by simp)
      ⟨by simp [counted],List.forall_mem_cons.mpr ⟨rfl,taken⟩⟩
  | drop cpu hold =>
    obtain ⟨t,runs,rest⟩ := Option.bind_eq_some_iff.mp step
    obtain ⟨counted,taken⟩ := ex.running runs
    obtain ⟨mem,made⟩ := Option.ite_none_right_eq_some.mp rest
    cases made
    cases taken hold mem
    have here := (running_eq_some runs).1
    have own := ex.owner_of_mem runs mem
    have held := (ex.owned cpu).mp own
    have left : Fits cpu (s.depth cpu - 1) ⟨(s.thread t).holds.erase cpu, none⟩ :=
      ⟨by rw [counted, List.length_erase_of_mem mem],fun c other => taken c (List.mem_of_mem_erase other)⟩
    unfold dropHold
    split
    · rename_i last
      exact ex.lowers here held (last ▸ left)
    · rename_i more
      exact ex.change here (fun _ _ => Iff.rfl) (iff_of_true own more) left
  | park cpu =>
    obtain ⟨t,runs,rfl⟩ := Option.map_eq_some_iff.mp step
    have here := (running_eq_some runs).1
    have counted := (ex.running runs).1
    unfold putDown
    split
    · rename_i held
      exact ex.lowers here (Nat.ne_of_gt held) ⟨rfl,counted⟩
    · rename_i level
      have zero : s.depth cpu = 0 := Nat.eq_zero_of_not_pos level
      have same := ex.change here (fun _ _ => Iff.rfl) (ex.owned cpu)
        (show Fits cpu _ ⟨(s.thread t).holds, some (s.depth cpu)⟩ from ⟨zero,counted⟩)
      rwa [update_eq_self] at same
  | switch cpu next =>
    obtain ⟨⟨level,absent⟩,made⟩ := Option.ite_none_right_eq_some.mp step
    cases made
    refine ⟨ex.owned,fun c d t here there => ?_,fun c t here => ?_,fun c idle => ?_,fun t gone c => ?_⟩
    · by_cases first : c = cpu <;> by_cases second : d = cpu
      · rw [first, second]
      · simp_all
      · simp_all
      · exact ex.alone c d t (by simpa [first] using here) (by simpa [second] using there)
    · by_cases same : c = cpu
      · subst same
        have new : next = some t := by simpa using here
        have apart : ∀ c, s.current c ≠ some t := fun c old => by cases (new ▸ absent c (old.trans new.symm))
        simpa [level] using ex.away t apart c
      · exact ex.fits c t (by simpa [same] using here)
    · by_cases same : c = cpu
      · exact same ▸ level
      · exact ex.idle c (by simpa [same] using idle)
    · by_cases left : s.current cpu = some t
      · have fits := ex.fits cpu t left
        exact fits_zero (level ▸ fits) c
      · refine ex.away t (fun d => ?_) c
        by_cases same : d = cpu
        · exact same ▸ left
        · simpa [same] using gone d
  | unpark cpu =>
    obtain ⟨t,here,rest⟩ := Option.bind_eq_some_iff.mp step
    obtain ⟨n,saved,rest⟩ := Option.bind_eq_some_iff.mp rest
    obtain ⟨z,picked,rfl⟩ := Option.map_eq_some_iff.mp rest
    obtain ⟨level,counted⟩ : s.depth cpu = 0 ∧ n = (s.thread t).holds.length := by
      have fits := ex.fits cpu t here
      rwa [Fits, saved] at fits
    have back : Fits cpu n ⟨(s.thread t).holds, none⟩ := ⟨counted,home t here⟩
    unfold pickUp at picked
    split at picked
    · rename_i deep
      obtain ⟨y,got,rfl⟩ := Option.map_eq_some_iff.mp picked
      obtain ⟨free,made⟩ := Option.ite_none_right_eq_some.mp got
      cases made
      exact ex.change here (only_cpu (.inl free) (.inr rfl)) (iff_of_true rfl (Nat.ne_of_gt deep)) back
    · rename_i flat
      cases picked
      have zero : n = s.depth cpu := (Nat.eq_zero_of_not_pos flat).trans level.symm
      have same := ex.change here (fun _ _ => Iff.rfl) (ex.owned cpu) (zero ▸ back)
      rwa [update_eq_self] at same

theorem Exclusive.clears (ex : s.Exclusive) (step : s.perform a = some s') (cleared : s.clears a = some cpu) :
    s.owner = some cpu := by
  cases a with
  | drop c hold =>
    obtain ⟨t,runs,rest⟩ := Option.bind_eq_some_iff.mp step
    obtain ⟨mem,_⟩ := Option.ite_none_right_eq_some.mp rest
    obtain ⟨_,same⟩ := Option.ite_none_right_eq_some.mp cleared
    cases same
    exact ex.owner_of_mem runs mem
  | park c =>
    obtain ⟨held,same⟩ := Option.ite_none_right_eq_some.mp cleared
    cases same
    exact (ex.owned _).mpr (Nat.ne_of_gt held)
  | hold | switch | unpark => cases cleared

/-- If every thread that parked with holds comes back to its CPU, the lock is held by at most one CPU,
    the owner word and the depth say so, and nobody else frees it. -/
theorem machine_lock_is_exclusive {history : List (LockAction cfg)} (run : Runs Home new history s) :
    (∀ c d, s.depth c ≠ 0 → s.depth d ≠ 0 → c = d) ∧ (∀ c, s.owner = some c ↔ s.depth c ≠ 0) ∧
    (∀ c t, s.running c = some t → s.depth c = (s.thread t).holds.length) ∧
    (∀ c, s.running c = none → s.depth c = 0) ∧
    (∀ a s' cpu, s.perform a = some s' → s.clears a = some cpu → s.owner = some cpu) := by
  have start : Exclusive (new : LockState cfg) := ⟨by simp [new],nofun,nofun,fun _ _ => rfl,fun _ _ _ => ⟨rfl,nofun⟩⟩
  have ex : s.Exclusive := by
    induction run with
    | start => exact start
    | more _ home step ih => exact ih.perform home step
  refine ⟨fun c d held other => ?_,ex.owned,fun c t runs => (ex.running runs).1,fun c none => ?_,
    fun a s' cpu step cleared => ex.clears step cleared⟩
  · exact Option.some.inj (((ex.owned c).mpr held).symm.trans ((ex.owned d).mpr other))
  · cases here : s.current c with
    | none => exact ex.idle c here
    | some t =>
      have fits := ex.fits c t here
      cases asleep : (s.thread t).saved with
      | none => simp [running, here, asleep] at none
      | some n =>
        rw [Fits, asleep] at fits
        exact fits.1

def boot : Fin Config.minimal.maxCpus := ⟨0, by decide⟩

def other : Fin Config.minimal.maxCpus := ⟨1, by decide⟩

theorem hold_takes_the_owner_word : ∃ s, Runs Home new [.switch boot (some 0), .hold boot] s ∧
    s.depth boot ≠ 0 ∧ s.owner = some boot :=
  Disciplined.reaches_also (by decide +kernel) fun _ run held => ((machine_lock_is_exclusive run).2.1 boot).mpr held

/-- A thread that parked on one CPU and came back on another one drops its hold: the word is freed
    under the CPU it runs on, which keeps its depth. -/
theorem moved_thread_frees_the_lock : ∃ s, Runs (fun _ _ => True) new [.switch boot (some 0), .hold boot, .park boot,
    .switch boot none, .switch other (some 0), .unpark other, .drop other boot] s ∧
    s.depth other = 1 ∧ s.owner = none ∧ s.running other = some 0 ∧ (s.thread 0).holds = [] :=
  Disciplined.reaches (by decide +kernel)

end LockState
end Tessera
