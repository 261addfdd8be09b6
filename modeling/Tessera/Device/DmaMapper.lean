import Tessera.Arch
import Tessera.Object

/-!
A translation unit for DMA, as the two ports that have one implement it. It knows
which devices send their transactions through it; to each of them it gives the same
range of device addresses for the time of a lease, with a page table of its own that
starts empty. An entry is written over without being looked at.
-/
namespace Tessera
open Function

structure DmaMapper where
  translates : ObjectId → Bool
  leaseBase : Nat
  leaseLen : Nat
  lease : ObjectId → Option (Nat × Nat)
  table : ObjectId → Nat → Option Nat

namespace DmaMapper

section
variable (m : DmaMapper) (device : ObjectId)

def beginLease : Except KError (Nat × Nat) × DmaMapper :=
  if m.translates device then
    (.ok (m.leaseBase, m.leaseLen), { m with
      lease := update m.lease device (some (m.leaseBase, m.leaseLen))
      table := update m.table device fun _ => none })
  else (.error .invalidMapping, m)

def endLease : DmaMapper :=
  if m.translates device then
    { m with
      lease := update m.lease device none
      table := update m.table device fun _ => none }
  else m

def bounded (iova len : Nat) : Except KError Unit :=
  if !m.translates device then .error .invalidMapping
  else
    match m.lease device with
    | none => .error .invalidMapping
    | some (base, span) =>
      if len = 0 ∨ len % frameSize ≠ 0 ∨ iova % frameSize ≠ 0 then .error .unaligned
      else if iova < base ∨ base + span < iova + len then .error .invalidMapping
      else .ok ()

def setEntries (iova len : Nat) (entry : Nat → Option Nat) : DmaMapper :=
  { m with table := update m.table device fun page =>
      if iova / frameSize ≤ page ∧ page < iova / frameSize + len / frameSize then entry (page - iova / frameSize)
      else m.table device page }

def map (iova phys len : Nat) : Except KError Unit × DmaMapper :=
  match m.bounded device iova len with
  | .error e => (.error e, m)
  | .ok () =>
    if phys % frameSize ≠ 0 then (.error .unaligned, m)
    else (.ok (), m.setEntries device iova len fun page => some (phys + page * frameSize))

def unmap (iova len : Nat) : Except KError Unit × DmaMapper :=
  match m.bounded device iova len with
  | .error e => (.error e, m)
  | .ok () => (.ok (), m.setEntries device iova len fun _ => none)

end

end DmaMapper
end Tessera
