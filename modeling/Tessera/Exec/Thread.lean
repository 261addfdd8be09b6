import Mathlib.Algebra.Group.Nat.Defs
import Tessera.Config

/-!
Threads and their identities. An identity carries the processor that minted it
above a sequence number of that processor. A thread is generic in its saved
context; its stacks, address space and exception slot are not part of the model.
-/
namespace Tessera

structure ThreadId where
  raw : Nat
  deriving DecidableEq

namespace ThreadId

def cpuShift : Nat := 48

def unassigned : ThreadId := ⟨0⟩

def cpu (id : ThreadId) : Nat := id.raw / 2 ^ cpuShift

def mint (cpu sequence : Nat) : ThreadId := ⟨cpu * 2 ^ cpuShift + sequence⟩

theorem mint_cpu {cpu sequence : Nat} (fits : sequence < 2 ^ cpuShift) : (mint cpu sequence).cpu = cpu := by
  have positive : 0 < 2 ^ cpuShift := Nat.two_pow_pos _
  rw [ThreadId.cpu, mint, Nat.mul_comm, Nat.mul_add_div positive, Nat.div_eq_of_lt fits, Nat.add_zero]

theorem mint_injective {cpu a b : Nat} (same : mint cpu a = mint cpu b) : a = b :=
  Nat.add_left_cancel (ThreadId.mk.inj same)

theorem mint_ne_unassigned {cpu sequence : Nat} (positive : 0 < sequence) : mint cpu sequence ≠ unassigned := by
  intro same
  have zero : cpu * 2 ^ cpuShift + sequence = 0 := ThreadId.mk.inj same
  omega

end ThreadId

inductive ThreadState where
  | ready | running | blocked | exited
  deriving DecidableEq

structure Thread (C : Type) where
  id : ThreadId
  context : C
  state : ThreadState
  priority : Nat
  correlation : Nat
  blockedDeadline : Option Nat
  deriving DecidableEq

end Tessera
