import WireSchema.Json.Value
import WireSchema.Binary.Layout

/-!
# Writing JSON texts

The compact form on one line. Strings escape what has to be escaped and nothing else.
-/
namespace WireSchema.Json

open Binary

/-- Four hexadecimal digits of a code point below 65536. -/
def hexQuad (n : Nat) : List Char :=
  let ds := Nat.toDigits 16 n
  List.replicate (4 - ds.length) '0' ++ ds

def escapeChar (c : Char) : List Char :=
  if c = '"' then ['\\', '"']
  else if c = '\\' then ['\\', '\\']
  else if c.toNat < 0x20 then ['\\', 'u'] ++ hexQuad c.toNat
  else [c]

def renderString (s : String) : String :=
  String.ofList ('"' :: s.toList.flatMap escapeChar ++ ['"'])

mutual

def render : Json → String
  | .null => "null"
  | .bool true => "true"
  | .bool false => "false"
  | .int v => toString v
  | .float x _ => literalLayout.text x
  | .str s => renderString s
  | .arr items => "[" ++ ",".intercalate (renderItems items) ++ "]"
  | .obj fields => "\x7b" ++ ",".intercalate (renderFields fields) ++ "\x7d"

def renderItems : List Json → List String
  | [] => []
  | j :: items => render j :: renderItems items

def renderFields : List (String × Json) → List String
  | [] => []
  | (key, j) :: fields => (renderString key ++ ":" ++ render j) :: renderFields fields

end

end WireSchema.Json
