import Mathlib.Data.Nat.Basic

/-!
The budget of frames the page cache may hold. A part of it is set aside for writing
dirty pages back, and the ordinary path may not draw on that part.
-/
namespace Tessera

structure WriteBackReservation where
  capacity : Nat
  reserved : Nat
  ordinaryInUse : Nat
  writebackInUse : Nat
  deriving DecidableEq

namespace WriteBackReservation

def new (capacity reserved : Nat) : WriteBackReservation := ⟨capacity, min reserved capacity, 0, 0⟩

def allocOrdinary (b : WriteBackReservation) : Option WriteBackReservation :=
  if b.ordinaryInUse < b.capacity - b.reserved then some { b with ordinaryInUse := b.ordinaryInUse + 1 }
  else none

def freeOrdinary (b : WriteBackReservation) : WriteBackReservation :=
  { b with ordinaryInUse := b.ordinaryInUse - 1 }

end WriteBackReservation

def cacheFrameBudget : Nat := 8

def cacheWriteBackReserve : Nat := 2

end Tessera
