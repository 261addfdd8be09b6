import Mathlib.Data.List.Count
import Tessera.Config
import Tessera.Lib.Transition

/-!
Epochs: when nobody can still be looking at something. A reader raises a depth of
its own CPU and the drop of its guard lowers it. A CPU reports the global number as
seen only at depth zero, and a writer waits until every CPU that is online has seen
the number it raised. One call is one step; a guard keeps the number it was taken at.
-/
namespace Tessera
open Function Transition

structure ReadGuard (cfg : Config) where
  index : Fin cfg.maxCpus
  opened : Nat
  deriving DecidableEq

structure Epoch (cfg : Config) where
  global : Nat
  seen : Fin cfg.maxCpus → Nat
  depth : Fin cfg.maxCpus → Nat
  online : Fin cfg.maxCpus → Bool
  guards : List (ReadGuard cfg)

inductive EpochCall (cfg : Config) where
  | markOnline (index : Fin cfg.maxCpus)
  | attach (index : Fin cfg.maxCpus)
  | read (cpu : Fin cfg.maxCpus)
  | drop (guard : ReadGuard cfg)
  | quiesce (cpu : Fin cfg.maxCpus)
  | advance

namespace Epoch
variable {cfg : Config}

def new : Epoch cfg := ⟨1, fun _ => 0, fun _ => 0, fun _ => false, []⟩

section
variable (e : Epoch cfg) (cpu : Fin cfg.maxCpus)

/-- Whether the CPU is inside a read-side section is not looked at. -/
def attach : Epoch cfg := { e with seen := update e.seen cpu e.global }

def read : Epoch cfg :=
  { e with
    depth := update e.depth cpu (e.depth cpu + 1)
    guards := ⟨cpu, e.global⟩ :: e.guards }

def drop (guard : ReadGuard cfg) : Epoch cfg :=
  { e with
    depth := update e.depth guard.index (e.depth guard.index - 1)
    guards := e.guards.erase guard }

def quiesce : Epoch cfg :=
  if e.depth cpu ≠ 0 then e else { e with seen := update e.seen cpu e.global }

def advance : Nat × Epoch cfg := (e.global + 1, { e with global := e.global + 1 })

def graceReached (epoch : Nat) : Bool := decide (∀ index, e.online index = true → epoch ≤ e.seen index)

def perform : EpochCall cfg → Option (Epoch cfg)
  | .markOnline index => some { e with online := update e.online index true }
  | .attach index => some (e.attach index)
  | .read cpu => some (e.read cpu)
  | .drop guard => if guard ∈ e.guards then some (e.drop guard) else none
  | .quiesce cpu => some (e.quiesce cpu)
  | .advance => some e.advance.2

/-- A CPU attaches as it comes online, with no section open. -/
def Arrives : EpochCall cfg → Prop
  | .attach index => e.depth index = 0
  | _ => True

instance (a : EpochCall cfg) : Decidable (e.Arrives a) := by
  cases a <;> unfold Arrives <;> infer_instance

end

abbrev Runs (allowed : Epoch cfg → EpochCall cfg → Prop) : Epoch cfg → List (EpochCall cfg) → Epoch cfg → Prop :=
  Disciplined (fun _ => allowed) fun e a e' => e.perform a = some e'

/-- What a CPU has seen does not pass the number its guards were taken at. -/
structure Sound (e : Epoch cfg) : Prop where
  counted : ∀ i, e.depth i = e.guards.countP (·.index = i)
  seen_le : ∀ i, e.seen i ≤ e.global
  opened : ∀ g ∈ e.guards, e.seen g.index ≤ g.opened ∧ g.opened ≤ e.global

variable {before after e e' : Epoch cfg} {a : EpochCall cfg} {cpu : Fin cfg.maxCpus} {history : List (EpochCall cfg)}

/-- At depth zero no guard of the CPU is left, so what it has seen is free to move. -/
theorem Sound.attach (sound : e.Sound) (level : e.depth cpu = 0) : (e.attach cpu).Sound := by
  have unguarded : ∀ g ∈ e.guards, g.index ≠ cpu := by
    rw [sound.counted] at level
    simpa using level
  refine ⟨sound.counted,fun i => ?_,fun g held => ?_⟩
  · by_cases same : i = cpu
    · simp [Epoch.attach, same]
    · simpa [Epoch.attach, same] using sound.seen_le i
  · simpa [Epoch.attach, unguarded g held] using sound.opened g held

theorem Sound.perform (sound : e.Sound) (arrives : e.Arrives a) (step : e.perform a = some e') : e'.Sound := by
  cases a with try cases step
  | markOnline => exact ⟨sound.counted,sound.seen_le,sound.opened⟩
  | attach => exact sound.attach arrives
  | read cpu =>
    refine ⟨fun i => ?_,sound.seen_le,fun g held => ?_⟩
    · by_cases same : i = cpu
      · simp [read, same, sound.counted]
      · simp [read, same, Ne.symm same, sound.counted]
    · rcases List.mem_cons.mp held with rfl | old
      · exact ⟨sound.seen_le cpu,Nat.le_refl _⟩
      · exact sound.opened g old
  | drop guard =>
    obtain ⟨live,made⟩ := Option.ite_none_right_eq_some.mp step
    cases made
    refine ⟨fun i => ?_,sound.seen_le,fun g held => sound.opened g (List.mem_of_mem_erase held)⟩
    have split := (sound.counted i).trans ((List.perm_cons_erase live).countP_eq (·.index = i))
    by_cases same : i = guard.index
    · subst same
      simp [drop, split]
    · simp [drop, same, Ne.symm same, split]
  | quiesce =>
    unfold quiesce
    split
    · exact sound
    · rename_i level
      exact sound.attach (not_not.mp level)
  | advance =>
    exact ⟨sound.counted,fun i => Nat.le_succ_of_le (sound.seen_le i),
      fun g held => (sound.opened g held).imp_right Nat.le_succ_of_le⟩

theorem online_perform (up : e.online cpu = true) (step : e.perform a = some e') : e'.online cpu = true := by
  cases a with
  | markOnline index =>
    cases step
    by_cases same : cpu = index <;> simp [same, up]
  | drop =>
    obtain ⟨_,made⟩ := Option.ite_none_right_eq_some.mp step
    cases made
    exact up
  | quiesce =>
    cases step
    unfold quiesce
    split <;> exact up
  | _ =>
    cases step
    exact up

theorem Sound.run (sound : e.Sound) (run : Runs Arrives e history e') :
    e'.Sound ∧ ∀ i, e.online i = true → e'.online i = true := by
  induction run with
  | start => exact ⟨sound,fun _ => id⟩
  | more _ arrives step ih => exact ⟨ih.1.perform arrives step,fun i up => online_perform (ih.2 i up) step⟩

/-- A grace period that was reached outlasts every section that was open when it was begun. -/
theorem grace_outlasts_open_sections {later : List (EpochCall cfg)} (run : Runs Arrives new history before)
    (onward : Runs Arrives before.advance.2 later after) (reached : after.graceReached before.advance.1 = true)
    (guard : ReadGuard cfg) (held : guard ∈ before.guards) (online : before.online guard.index = true) :
    guard ∉ after.guards := by
  intro left
  have fresh : Sound (new : Epoch cfg) := ⟨fun _ => rfl,fun _ => Nat.zero_le 1,nofun⟩
  have sound := (fresh.run run).1
  have begun : Sound before.advance.2 := sound.perform (a := .advance) trivial rfl
  obtain ⟨kept,up⟩ := begun.run onward
  have early : guard.opened < before.advance.1 := Nat.lt_succ_of_le (sound.opened guard held).2
  have seen : before.advance.1 ≤ after.seen guard.index := of_decide_eq_true reached guard.index (up _ online)
  exact Nat.not_lt.mpr (Nat.le_trans seen (kept.opened guard left).1) early

def boot : Fin Config.minimal.maxCpus := ⟨0, Config.only_cpu⟩

def reading : Epoch Config.minimal := { new with online := update new.online boot true }.read boot

theorem reading_is_reached : Runs Arrives new [.markOnline boot, .read boot] reading :=
  Disciplined.start.performAll rfl

theorem dropped_reader_is_waited_for : ∃ after, Runs Arrives reading.advance.2 [.drop ⟨boot, 1⟩, .quiesce boot] after ∧
    after.graceReached reading.advance.1 = true ∧ ⟨boot, 1⟩ ∉ after.guards :=
  Disciplined.reaches_also (by decide +kernel) fun _ run reached =>
    grace_outlasts_open_sections reading_is_reached run reached _ (by decide) rfl

/-- A reader that attaches its CPU ends the grace period that waits for it. -/
theorem attached_reader_is_not_waited_for : Runs (fun _ _ => True) new [.markOnline boot, .read boot] reading ∧
    Runs (fun _ _ => True) reading.advance.2 [.attach boot] (reading.advance.2.attach boot) ∧
    (reading.advance.2.attach boot).graceReached reading.advance.1 = true ∧ reading.online boot = true ∧
    ⟨boot, 1⟩ ∈ reading.guards ∧ ⟨boot, 1⟩ ∈ (reading.advance.2.attach boot).guards :=
  ⟨Disciplined.start.performAll rfl,Disciplined.start.performAll rfl,by decide +kernel⟩

end Epoch
end Tessera
