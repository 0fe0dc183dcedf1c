import WireSchema.Binary.Float

/-!
# The fewest digits that read back

A finite double is written with as few significant decimal digits as reading it back allows. For
each number of digits only the two decimals next to the value are tried; if both read back the
nearer one is taken, and of two equally near ones the larger.
-/
namespace WireSchema.Binary

/-- The decimal `digits * 10 ^ exponent`. -/
structure Decimal where
  digits : Nat
  exponent : Int
deriving DecidableEq, Repr

namespace Decimal

def ratio (d : Decimal) : Nat × Nat :=
  if 0 ≤ d.exponent then (d.digits * Nat.pow 10 d.exponent.toNat, 1)
  else (d.digits, Nat.pow 10 (-d.exponent).toNat)

end Decimal

def digitCount (n : Nat) : Nat := (Nat.toDigits 10 n).length

/-- The exponent of the leading decimal digit of a positive quotient. -/
def leadingExponent (num den : Nat) : Int :=
  if den ≤ num then (digitCount (num / den) - 1 : Nat)
  else
    let inverse := den / num
    let count := digitCount inverse
    if inverse = Nat.pow 10 (count - 1) ∧ den % num = 0 then -((count - 1 : Nat) : Int)
    else -(count : Int)

def readsBack (magnitude : Nat) (d : Decimal) : Bool :=
  binary64.nearest d.ratio.1 d.ratio.2 == magnitude

/-- The decimal with `count` digits that reads back, if there is one next to the value. -/
def candidate? (magnitude count : Nat) : Option Decimal :=
  let num := binary64.units magnitude
  let den := binary64.unitsPerOne
  let exponent := leadingExponent num den - (count : Int) + 1
  let num := if 0 ≤ exponent then num else num * Nat.pow 10 (-exponent).toNat
  let den := if 0 ≤ exponent then den * Nat.pow 10 exponent.toNat else den
  let below : Decimal := ⟨num / den, exponent⟩
  let above : Decimal := ⟨num / den + 1, exponent⟩
  match readsBack magnitude below, readsBack magnitude above with
  | true, true => some (if 2 * (num % den) < den then below else above)
  | true, false => some below
  | false, true => some above
  | false, false => none

/-- The shortest decimal of a positive finite magnitude. Seventeen digits always read back. -/
def shortest (magnitude : Nat) : Decimal :=
  ((List.range 17).findSome? (fun n => candidate? magnitude (n + 1))).getD ⟨0, 0⟩

end WireSchema.Binary
