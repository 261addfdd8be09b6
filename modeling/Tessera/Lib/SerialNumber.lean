import Mathlib.Data.BitVec

/-!
Serial numbers: numbers of a fixed width that wrap around. Of two of them it can only
be said how far the one lies ahead of the other, going forward. Measured from a common
base, such distances behave like ordinary numbers modulo the width.
-/
namespace SerialNumber
variable {w : Nat} {a b c : BitVec w}

def ahead (a b : BitVec w) : Nat := (b - a).toNat

theorem ahead_lt (a b : BitVec w) : ahead a b < 2 ^ w := (b - a).isLt

@[simp] theorem ahead_self (a : BitVec w) : ahead a a = 0 := by simp [ahead]

theorem ahead_via (a b c : BitVec w) : ahead b c = (ahead a c + (2 ^ w - ahead a b)) % 2 ^ w := by
  rw [ahead, ← sub_sub_sub_cancel_right c b a, Nat.add_comm]
  rfl

theorem ahead_add (a b : BitVec w) (n : Nat) : ahead a (b + BitVec.ofNat w n) = (ahead a b + n) % 2 ^ w := by
  rw [ahead, add_sub_right_comm, BitVec.toNat_add, BitVec.toNat_ofNat, Nat.add_mod_mod]
  rfl

end SerialNumber
