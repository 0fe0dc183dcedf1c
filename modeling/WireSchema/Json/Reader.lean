import WireSchema.Json.Token

/-!
# Reading JSON texts

Tokens are put together with a stack of the containers that are still open. A limit bounds how many
of them can be open at once.
-/
namespace WireSchema.Json

/-- An open container, the key it stands under and what it holds so far, last entry first. -/
inductive Frame where
  | arr (key : Option String) (items : List Json)
  | obj (key : Option String) (fields : List (String × Json))

/-- What the next token has to be. -/
inductive Awaited where
  | value (key : Option String)
  | itemOrEnd
  | keyOrEnd
  | key
  | colon (key : String)
  | separator
  | nothing (result : Json)

structure Reading where
  stack : List Frame
  awaited : Awaited

namespace Reading

def start : Reading := ⟨[], .value none⟩

/-- Puts a complete value where it belongs: at the top, into an array, or under a key. -/
def place? (key : Option String) (j : Json) : List Frame → Option Reading
  | [] => some ⟨[], .nothing j⟩
  | .arr k items :: stack =>
    match key with
    | none => some ⟨.arr k (j :: items) :: stack, .separator⟩
    | some _ => none
  | .obj k fields :: stack =>
    match key with
    | none => none
    | some key => some ⟨.obj k ((key, j) :: fields) :: stack, .separator⟩

/-- A token at a place where a value can stand. -/
def value? (limit : Nat) (key : Option String) (stack : List Frame) : Token → Option Reading
  | .scalar j => place? key j stack
  | .openArr => if stack.length < limit then some ⟨.arr key [] :: stack, .itemOrEnd⟩ else none
  | .openObj => if stack.length < limit then some ⟨.obj key [] :: stack, .keyOrEnd⟩ else none
  | _ => none

/-- A token after a complete entry of the innermost container. -/
def separator? : List Frame → Token → Option Reading
  | .arr k items :: stack, .comma => some ⟨.arr k items :: stack, .value none⟩
  | .arr k items :: stack, .closeArr => place? k (.arr items.reverse) stack
  | .obj k fields :: stack, .comma => some ⟨.obj k fields :: stack, .key⟩
  | .obj k fields :: stack, .closeObj => place? k (.obj fields.reverse) stack
  | _, _ => none

def step? (limit : Nat) (r : Reading) (t : Token) : Option Reading :=
  match r.awaited, t with
  | .value key, t => value? limit key r.stack t
  | .itemOrEnd, .closeArr => separator? r.stack .closeArr
  | .itemOrEnd, t => value? limit none r.stack t
  | .keyOrEnd, .closeObj => separator? r.stack .closeObj
  | .keyOrEnd, .scalar (.str key) => some ⟨r.stack, .colon key⟩
  | .key, .scalar (.str key) => some ⟨r.stack, .colon key⟩
  | .colon key, .colon => some ⟨r.stack, .value (some key)⟩
  | .separator, t => separator? r.stack t
  | _, _ => none

def result? (r : Reading) : Option Json :=
  match r.awaited with
  | .nothing j => some j
  | _ => none

end Reading

/-- Reads a text as one value with at most `limit` containers inside each other. -/
def read? (limit : Nat) (s : String) : Option Json := do
  let r ← (← tokens? s).foldlM (Reading.step? limit) Reading.start
  r.result?

/-- Documents and configurations nest at most this deep. -/
def nestingLimit : Nat := 127

end WireSchema.Json
