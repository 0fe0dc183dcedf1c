import WireSchema.Binary.Float
import WireSchema.Json.Value

/-!
# Tokens of JSON texts

The strict grammar: no comments, no signs or zeros in front of numbers beyond the minus sign, no raw
control characters in strings, no lone surrogates among the escapes. An integer that fits 64 bits,
with or without sign, is an integer; every other number is a double, made from the digits that fit
64 bits and a power of ten. A number too large for a double is refused.
-/
namespace WireSchema.Json

open Binary

inductive Token where
  | openArr
  | closeArr
  | openObj
  | closeObj
  | comma
  | colon
  | scalar (j : Json)

def isBlank (c : Char) : Bool :=
  c = ' ' || c = '\t' || c = '\n' || c = '\r'

def hexValue? (c : Char) : Option Nat :=
  if '0' ≤ c ∧ c ≤ '9' then some (c.toNat - '0'.toNat)
  else if 'a' ≤ c ∧ c ≤ 'f' then some (c.toNat - 'a'.toNat + 10)
  else if 'A' ≤ c ∧ c ≤ 'F' then some (c.toNat - 'A'.toNat + 10)
  else none

def hexQuad? (a b c d : Char) : Option Nat := do
  let a ← hexValue? a
  let b ← hexValue? b
  let c ← hexValue? c
  let d ← hexValue? d
  return ((a * 16 + b) * 16 + c) * 16 + d

def isHighSurrogate (n : Nat) : Bool := 0xD800 ≤ n && n < 0xDC00

def isLowSurrogate (n : Nat) : Bool := 0xDC00 ≤ n && n < 0xE000

def shortEscape? : Char → Option Char
  | '"' => some '"'
  | '\\' => some '\\'
  | '/' => some '/'
  | 'b' => some '\x08'
  | 'f' => some '\x0c'
  | 'n' => some '\n'
  | 'r' => some '\r'
  | 't' => some '\t'
  | _ => none

/-- Reads a string after its opening quote, up to and including the closing one. `done` holds the
characters read so far, last one first. -/
def stringBody (done : List Char) : List Char → Option (String × List Char)
  | [] => none
  | '"' :: cs => some (String.ofList done.reverse, cs)
  | '\\' :: 'u' :: a :: b :: c :: d :: cs =>
    match hexQuad? a b c d with
    | none => none
    | some high =>
      if isHighSurrogate high then
        match cs with
        | '\\' :: 'u' :: e :: f :: g :: h :: cs =>
          match hexQuad? e f g h with
          | none => none
          | some low =>
            if isLowSurrogate low then
              let code := 0x10000 + (high - 0xD800) * 0x400 + (low - 0xDC00)
              stringBody (Char.ofNat code :: done) cs
            else none
        | _ => none
      else if isLowSurrogate high then none
      else stringBody (Char.ofNat high :: done) cs
  | '\\' :: c :: cs =>
    match shortEscape? c with
    | none => none
    | some e => stringBody (e :: done) cs
  | c :: cs => if c.toNat < 0x20 then none else stringBody (c :: done) cs

/-- The longest run of digits at the front, and what follows it. -/
def digits (cs : List Char) : List Char × List Char :=
  (cs.takeWhile Char.isDigit, cs.dropWhile Char.isDigit)

def digitsValue (ds : List Char) : Nat :=
  ds.foldl (fun n c => n * 10 + (c.toNat - '0'.toNat)) 0

/-- The fraction digits after a point, none if there is no point. -/
def fraction? : List Char → Option (List Char × List Char)
  | '.' :: cs =>
    match digits cs with
    | ([], _) => none
    | (ds, rest) => some (ds, rest)
  | cs => some ([], cs)

/-- The exponent after its mark, absent if there is no mark. -/
def exponent? : List Char → Option (Option Int × List Char)
  | c :: cs =>
    if c = 'e' ∨ c = 'E' then
      let (negative, cs) :=
        match cs with
        | '-' :: cs => (true, cs)
        | '+' :: cs => (false, cs)
        | cs => (false, cs)
      match digits cs with
      | ([], _) => none
      | (ds, rest) =>
        let e : Int := digitsValue ds
        some (some (if negative then -e else e), rest)
    else some (none, c :: cs)
  | [] => some (none, [])

/-- Appends digits to a number while it fits 64 bits, and gives the digits that are left. -/
def appendDigits (n : Nat) : List Char → Nat × List Char
  | [] => (n, [])
  | c :: cs =>
    let next := n * 10 + (c.toNat - '0'.toNat)
    if next < UInt64.size then appendDigits next cs else (n, c :: cs)

/-- The value of an integer literal of 64 bits. A negative zero is not an integer. -/
def integerLiteral? (negative : Bool) (n : Nat) : Option Json :=
  if !negative then some (.int n)
  else if 0 < n ∧ n ≤ 0x8000000000000000 then some (.int (-(n : Int)))
  else ofDouble? (.ofScaled true n 0)

/-- The value of a number, given its digits in front of the point and after it. Digits that do not
fit count only by their place. -/
def numberLiteral? (negative : Bool) (whole frac : List Char) (exp : Option Int) : Option Json :=
  let (n, beyond) := appendDigits 0 whole
  if frac = [] ∧ exp = none ∧ beyond = [] then integerLiteral? negative n
  else
    let (n, unread) := appendDigits n frac
    let places : Int := beyond.length - (frac.length - unread.length : Int)
    ofDouble? (.ofScaled negative n (places + exp.getD 0))

/-- Reads a number whose sign has been read. -/
def number? (negative : Bool) (cs : List Char) : Option (Json × List Char) :=
  let (whole, rest) :=
    match cs with
    | '0' :: rest => (['0'], rest)
    | cs => digits cs
  if whole.isEmpty then none
  else do
    let (frac, rest) ← fraction? rest
    let (exp, rest) ← exponent? rest
    return (← numberLiteral? negative whole frac exp, rest)

/-- The token at the front of a text that starts with no blank. -/
def token? : List Char → Option (Token × List Char)
  | '[' :: cs => some (.openArr, cs)
  | ']' :: cs => some (.closeArr, cs)
  | '\x7b' :: cs => some (.openObj, cs)
  | '\x7d' :: cs => some (.closeObj, cs)
  | ',' :: cs => some (.comma, cs)
  | ':' :: cs => some (.colon, cs)
  | 'n' :: 'u' :: 'l' :: 'l' :: cs => some (.scalar .null, cs)
  | 't' :: 'r' :: 'u' :: 'e' :: cs => some (.scalar (.bool true), cs)
  | 'f' :: 'a' :: 'l' :: 's' :: 'e' :: cs => some (.scalar (.bool false), cs)
  | '"' :: cs => (stringBody [] cs).map fun (s, rest) => (.scalar (.str s), rest)
  | '-' :: cs => (number? true cs).map fun (j, rest) => (.scalar j, rest)
  | cs => (number? false cs).map fun (j, rest) => (.scalar j, rest)

/-- Cuts a text into tokens. Every token takes at least one character, so as many rounds as there
are characters are enough. `done` holds the tokens read so far, last one first. -/
def tokensWithin (rounds : Nat) (done : List Token) (cs : List Char) : Option (List Token) :=
  match cs.dropWhile isBlank, rounds with
  | [], _ => some done.reverse
  | _, 0 => none
  | cs, rounds + 1 =>
    match token? cs with
    | none => none
    | some (t, rest) => tokensWithin rounds (t :: done) rest

def tokens? (s : String) : Option (List Token) :=
  tokensWithin s.length [] s.toList

end WireSchema.Json
