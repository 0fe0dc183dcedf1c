/-!
# Numbers on the command line

A number may have a plus sign. Base programs are decimal, or hexadecimal after `0x`, and may have
underscores anywhere; other numbers are plain decimal.
-/
namespace WireSchema.Command

def digit? (base : Nat) (c : Char) : Option Nat :=
  let value? :=
    if '0' ≤ c ∧ c ≤ '9' then some (c.toNat - '0'.toNat)
    else if 'a' ≤ c ∧ c ≤ 'f' then some (c.toNat - 'a'.toNat + 10)
    else if 'A' ≤ c ∧ c ≤ 'F' then some (c.toNat - 'A'.toNat + 10)
    else none
  value?.filter (· < base)

def digits? (base : Nat) (cs : List Char) : Option Nat := do
  let values ← cs.mapM (digit? base)
  guard (values ≠ [])
  return values.foldl (fun n d => base * n + d) 0

def word? (n : Nat) : Option UInt32 := if n < UInt32.size then some (.ofNat n) else none

/-- A decimal word. Zero may have a minus sign. -/
def decimal? (text : String) : Option UInt32 :=
  match text.toList with
  | '+' :: cs => (digits? 10 cs).bind word?
  | '-' :: cs => ((digits? 10 cs).filter (· = 0)).bind word?
  | cs => (digits? 10 cs).bind word?

def unsigned? (base : Nat) : List Char → Option UInt32
  | '+' :: cs => (digits? base cs).bind word?
  | cs => (digits? base cs).bind word?

/-- A decimal or hexadecimal word. -/
def program? (text : String) : Option UInt32 :=
  match text.toList with
  | '0' :: 'x' :: cs => unsigned? 16 (cs.filter (· ≠ '_'))
  | '0' :: 'X' :: cs => unsigned? 16 (cs.filter (· ≠ '_'))
  | cs => unsigned? 10 (cs.filter (· ≠ '_'))

end WireSchema.Command
