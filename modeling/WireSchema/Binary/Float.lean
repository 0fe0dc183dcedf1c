import WireSchema.Binary.Format

/-!
# Single and double precision

Floating-point numbers are kept as the words that hold them, so that two of them are equal exactly
when their bits are. Conversions round to nearest; a not-a-number stays one, becomes quiet and keeps
the leading bits of its payload.

A decimal is read with two roundings: its digits become a double, which is then multiplied or
divided by a power of ten. With up to fifteen digits and a small exponent the result is the nearest
double; otherwise it may be a neighbour of that one. A decimal too large for a double becomes
infinite.
-/
namespace WireSchema.Binary

structure Binary32 where
  bits : UInt32
deriving DecidableEq, Repr, Inhabited

structure Binary64 where
  bits : UInt64
deriving DecidableEq, Repr, Inhabited

namespace Binary32

variable (x : Binary32)

def isNegative : Bool := 0x80000000 ≤ x.bits.toNat

def magnitude : Nat := x.bits.toNat % 0x80000000

def ofParts (negative : Bool) (magnitude : Nat) : Binary32 :=
  ⟨UInt32.ofNat (if negative then 0x80000000 + magnitude else magnitude)⟩

def isNaN : Bool := binary32.infinity < x.magnitude

def isInfinite : Bool := x.magnitude = binary32.infinity

end Binary32

namespace Binary64

variable (x : Binary64)

def isNegative : Bool := 0x8000000000000000 ≤ x.bits.toNat

def magnitude : Nat := x.bits.toNat % 0x8000000000000000

def ofParts (negative : Bool) (magnitude : Nat) : Binary64 :=
  ⟨UInt64.ofNat (if negative then 0x8000000000000000 + magnitude else magnitude)⟩

def zero : Binary64 := ⟨0⟩

def isNaN : Bool := binary64.infinity < x.magnitude

def isInfinite : Bool := x.magnitude = binary64.infinity

def isFinite : Bool := x.magnitude < binary64.infinity

/-- The double nearest to an integer. -/
def ofInt (v : Int) : Binary64 := ofParts (v < 0) (binary64.nearest v.natAbs 1)

/-- The single nearest to a double. -/
def narrow : Binary32 :=
  .ofParts x.isNegative <|
    if x.isNaN then
      binary32.infinity + (x.magnitude % binary64.hidden / 0x20000000 ||| binary32.quiet)
    else if x.isInfinite then binary32.infinity
    else binary32.nearest (binary64.units x.magnitude) binary64.unitsPerOne

end Binary64

def Binary32.widen (x : Binary32) : Binary64 :=
  .ofParts x.isNegative <|
    if x.isNaN then
      binary64.infinity + (x.magnitude % binary32.hidden * 0x20000000 ||| binary64.quiet)
    else if x.isInfinite then binary64.infinity
    else binary64.nearest (binary32.units x.magnitude) binary32.unitsPerOne

/-- The largest power of ten that a double holds. -/
def maxPower : Nat := 308

def power (e : Nat) : Nat := binary64.nearest (Nat.pow 10 e) 1

/-- Divides a magnitude by a power of ten, in several steps if no double holds the power. -/
def scaleDown (magnitude e : Nat) : Nat :=
  if e ≤ maxPower then binary64.div magnitude (power e)
  else if magnitude = 0 then 0
  else scaleDown (binary64.div magnitude (power maxPower)) (e - maxPower)
termination_by e
decreasing_by
  have : maxPower = 308 := rfl
  omega

def scaleUp (magnitude e : Nat) : Nat :=
  if magnitude = 0 then 0
  else if e ≤ maxPower then binary64.mul magnitude (power e)
  else binary64.infinity

/-- The double for `digits * 10 ^ exponent`, infinite if that is too large. -/
def Binary64.ofScaled (negative : Bool) (digits : Nat) (exponent : Int) : Binary64 :=
  let start := binary64.nearest digits 1
  .ofParts negative <|
    if 0 ≤ exponent then scaleUp start exponent.toNat else scaleDown start (-exponent).toNat

end WireSchema.Binary
