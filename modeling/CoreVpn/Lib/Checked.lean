import CoreVpn.Lib.Computation

namespace Lib.Checked

open Lib.Computation

variable {ε : Type} {n w : Nat}

/-- Fixed-width subtraction that panics where the result does not fit. -/
def sub (a b : BitVec n) : Outcome ε (BitVec n) :=
  if b ≤ a then .ok (a - b) else .error .panic

/-- A shift by at least the width of the shifted word panics. -/
def shl (a : BitVec w) (b : BitVec n) : Outcome ε (BitVec w) :=
  if b.toNat < w then .ok (a <<< b.toNat) else .error .panic

/-- Lengths and offsets are numbers of a machine word. A sum that does not fit
panics, and so does a difference below zero. -/
def addUsize (a b : Nat) : Outcome ε Nat := if a + b < 2 ^ 64 then .ok (a + b) else .error .panic

def subUsize (a b : Nat) : Outcome ε Nat := if b ≤ a then .ok (a - b) else .error .panic

theorem addUsize_of_lt {a b : Nat} (h : a + b < 2 ^ 64) : (addUsize a b : Outcome ε Nat) = .ok (a + b) :=
  if_pos h

theorem subUsize_of_le {a b : Nat} (h : b ≤ a) : (subUsize a b : Outcome ε Nat) = .ok (a - b) := if_pos h

theorem sub_of_le {a b : BitVec n} (h : b ≤ a) :
    (sub a b : Outcome ε (BitVec n)) = .ok (a - b) := if_pos h

end Lib.Checked
