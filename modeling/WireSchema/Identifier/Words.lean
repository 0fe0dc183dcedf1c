import WireSchema.Text.Alphanumeric
import WireSchema.Text.LetterCase
import WireSchema.Text.Split

/-!
# Words of a name

A name is cut into words at every character that is neither a letter nor a digit, and inside the
remaining runs where the letter case shows a boundary: after a lower-case letter before an
upper-case one, and before the last upper-case letter of a group that a lower-case letter follows.
So `readDir` has the words `read`, `Dir` and `HTTPServer` the words `HTTP`, `Server`.
-/
namespace WireSchema.Identifier

open WireSchema.Text

/-- The case of the last cased letter since the previous boundary. -/
inductive WordMode where
  | boundary
  | lower
  | upper
deriving DecidableEq

/-- The mode after a character that ends no word. Digits and uncased letters keep the mode. -/
def WordMode.after (mode : WordMode) (c : Char) : WordMode :=
  if isLowercase c then .lower else if isUppercase c then .upper else mode

/-- Cuts a run of letters and digits at its case boundaries. `pending` holds the characters of the
word that is being read, last one first. -/
def humps : WordMode → (pending : List Char) → List Char → List (List Char)
  | _, [], [] => []
  | _, pending, [] => [pending.reverse]
  | _, pending, [c] => [(c :: pending).reverse]
  | mode, pending, c :: next :: rest =>
    if mode.after c = .lower && isUppercase next then
      (c :: pending).reverse :: humps .boundary [] (next :: rest)
    else if mode = .upper && isUppercase c && isLowercase next then
      pending.reverse :: humps .boundary [c] (next :: rest)
    else
      humps (mode.after c) (c :: pending) (next :: rest)

def words (name : List Char) : List (List Char) :=
  (splitWhere (fun c => !isAlphanumeric c) name).flatMap (humps .boundary [])

/-- A word in lower case. A capital sigma takes its final form at the end of the word. -/
def lowerWord : List Char → List Char
  | [] => []
  | [c] => if c = 'Σ' then ['ς'] else toLowercase c
  | c :: cs => toLowercase c ++ lowerWord cs

def upperWord (word : List Char) : List Char :=
  word.flatMap toUppercase

/-- A word with its first character in upper case and the others in lower case. -/
def capitalWord : List Char → List Char
  | [] => []
  | c :: cs => toUppercase c ++ lowerWord cs

end WireSchema.Identifier
