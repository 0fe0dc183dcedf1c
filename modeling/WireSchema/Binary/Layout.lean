import WireSchema.Binary.Shortest

/-!
# Written forms of doubles

A layout says which decimal exponents are written positionally and whether an integral value keeps a
fraction digit. Exponents outside the positional range are written after the letter `e`.
-/
namespace WireSchema.Binary

structure Layout where
  /-- Exponents of the leading digit that are written positionally, all of them if absent. -/
  positional : Option (Int × Int)
  /-- Whether an integral value is followed by a point and a zero. -/
  keepsFraction : Bool

/-- Literals: positional from one ten-thousandth up to ten to the sixteenth, always with a fraction
or an exponent. -/
def literalLayout : Layout := ⟨some (-4, 15), true⟩

/-- Messages: always positional, an integral value without a fraction. -/
def plainLayout : Layout := ⟨none, false⟩

namespace Layout

variable (l : Layout)

def isPositional (lead : Int) : Bool :=
  match l.positional with
  | none => true
  | some (low, high) => low ≤ lead && lead ≤ high

def zeros (n : Nat) : List Char := List.replicate n '0'

/-- Digits around a point that stands `point` places after the first digit. -/
def positionalText (digits : List Char) (point : Int) : List Char :=
  if point ≤ 0 then '0' :: '.' :: zeros (-point).toNat ++ digits
  else if point < digits.length then digits.take point.toNat ++ '.' :: digits.drop point.toNat
  else
    digits ++ zeros (point.toNat - digits.length) ++ (if l.keepsFraction then ['.', '0'] else [])

def scientificText (digits : List Char) (lead : Int) : List Char :=
  let fraction := digits.drop 1
  digits.take 1 ++ (if fraction.isEmpty then [] else '.' :: fraction) ++
    'e' :: (toString lead).toList

def dropTrailingZeros (digits : List Char) : List Char :=
  (digits.reverse.dropWhile (· == '0')).reverse

def decimalText (d : Decimal) : List Char :=
  let digits := Nat.toDigits 10 d.digits
  let lead := d.exponent + digits.length - 1
  let significant := dropTrailingZeros digits
  if l.isPositional lead then l.positionalText significant (lead + 1)
  else scientificText significant lead

def text (x : Binary64) : String :=
  let sign := if x.isNegative then "-" else ""
  if x.isNaN then "NaN"
  else if x.isInfinite then sign ++ "inf"
  else if x.magnitude = 0 then sign ++ (if l.keepsFraction then "0.0" else "0")
  else sign ++ String.ofList (l.decimalText (shortest x.magnitude))

end Layout
end WireSchema.Binary
