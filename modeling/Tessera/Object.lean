import Mathlib.Data.BitVec

/-!
Names and authority: kernel error codes, object ids and the rights mask that a
handle carries.
-/
namespace Tessera

inductive KError where
  | outOfMemory | unaligned | wxViolation | alreadyMapped | notMapped | invalidMapping
  | badHandle | accessDenied | wrongType | protocol | wouldBlock | peerClosed | limitExceeded
  | notSupported | invalidArgument | policyRefused | timedOut | resultTooLarge | outOfFrameSlots
  deriving DecidableEq

structure ObjectId where
  raw : Nat
  deriving DecidableEq

structure Rights where
  bits : BitVec 64
  deriving DecidableEq

namespace Rights

def bit (i : Nat) : Rights := ⟨BitVec.ofNat 64 (2 ^ i)⟩

def read : Rights := bit 0
def write : Rights := bit 1
def map : Rights := bit 2
def transfer : Rights := bit 7
def configure : Rights := bit 8

def createProcess : Rights := bit 16
def createJob : Rights := bit 17
def kill : Rights := bit 21
def supply : Rights := bit 24
def derive : Rights := bit 32

def protectedDma : Rights := bit 39

def union (a b : Rights) : Rights := ⟨a.bits ||| b.bits⟩

def contains (a b : Rights) : Bool := a.bits &&& b.bits == b.bits

def isSubsetOf (a b : Rights) : Bool := a.bits &&& b.bits == a.bits

theorem contains_of_subset {a b r : Rights} (sub : a.isSubsetOf b = true) (holds : a.contains r = true) :
    b.contains r = true := by
  simp only [isSubsetOf, contains, beq_iff_eq] at *
  rw [← holds, BitVec.and_comm b.bits, BitVec.and_assoc, BitVec.and_comm r.bits, ← BitVec.and_assoc, sub]

end Rights
end Tessera
