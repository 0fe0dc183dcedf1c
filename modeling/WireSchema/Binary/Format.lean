/-!
# Binary floating-point formats

A format fixes how many bits hold the fraction and the exponent. The bits below the sign are read as
one natural number, the magnitude. Finite magnitudes denote multiples of the format's smallest
positive value, and `nearest` gives the magnitude closest to a quotient, a tie going to the even
magnitude.
-/
namespace WireSchema.Binary

structure Format where
  fractionBits : Nat
  exponentBits : Nat

def binary32 : Format := ⟨23, 8⟩

def binary64 : Format := ⟨52, 11⟩

/-- Rounds a quotient to the nearest natural number, a tie to the even one. -/
def roundDiv (num den : Nat) : Nat :=
  let q := num / den
  let r := num % den
  if 2 * r < den then q
  else if den < 2 * r then q + 1
  else if q % 2 = 0 then q else q + 1

namespace Format

variable (f : Format)

/-- The smallest positive value is two to the power of minus this. -/
def scale : Nat := Nat.pow 2 (f.exponentBits - 1) + f.fractionBits - 2

/-- The magnitude of infinity. Larger ones are no numbers. -/
def infinity : Nat := (Nat.pow 2 f.exponentBits - 1) * Nat.pow 2 f.fractionBits

/-- The magnitude bit that marks a quiet not-a-number. -/
def quiet : Nat := Nat.pow 2 (f.fractionBits - 1)

/-- The largest value a magnitude's fraction can have, plus one. -/
def hidden : Nat := Nat.pow 2 f.fractionBits

/-- How many units of the smallest positive value a finite magnitude denotes. -/
def units (magnitude : Nat) : Nat :=
  let exponent := magnitude / f.hidden
  let fraction := magnitude % f.hidden
  if exponent = 0 then fraction else (f.hidden + fraction) * Nat.pow 2 (exponent - 1)

/-- The value of a finite magnitude is `units / unitsPerOne`. -/
def unitsPerOne : Nat := Nat.pow 2 f.scale

/-- The magnitude nearest to `num / den`, infinite if the quotient is too large. -/
def nearest (num den : Nat) : Nat :=
  let scaled := num * f.unitsPerOne
  let shift := Nat.log2 (scaled / den) - f.fractionBits
  min (shift * f.hidden + roundDiv scaled (den * Nat.pow 2 shift)) f.infinity

def mul (a b : Nat) : Nat := f.nearest (f.units a * f.units b) (f.unitsPerOne * f.unitsPerOne)

def div (a b : Nat) : Nat := f.nearest (f.units a) (f.units b)

end Format

theorem nearest_le_infinity (f : Format) (num den : Nat) : f.nearest num den ≤ f.infinity :=
  Nat.min_le_right _ _

end WireSchema.Binary
