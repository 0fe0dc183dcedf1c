import WireSchema.Text.Split

/-!
# Locations

A location is what is written, cut at its slashes. It starts at the root of the tree if a slash
comes first, and at the working directory otherwise. Empty pieces and single dots lead nowhere, two
dots lead to the directory above, and every other piece is a name. The pieces that lead nowhere are
kept, since the length of a location counts them.
-/
namespace WireSchema.Files

def above : String := ".."

/-- Whether a piece of a location leads anywhere. -/
def isStep (piece : String) : Bool := piece ≠ "" ∧ piece ≠ "."

structure Location where
  /-- What stands between the slashes. -/
  pieces : List String
deriving DecidableEq, Repr

namespace Location

def ofText (text : String) : Location :=
  ⟨(Text.splitWhere (· == '/') text.toList).map String.ofList⟩

variable (l : Location)

def text : String := "/".intercalate l.pieces

/-- Whether the location starts at the root, by a slash in front. -/
def absolute : Bool :=
  match l.pieces with
  | "" :: _ :: _ => true
  | _ => false

/-- The names on the way, `above` among them. -/
def steps : List String := l.pieces.filter isStep

/-- Whether the location asks for a directory, by a slash or a dot at its end. -/
def asDirectory : Bool := l.pieces.getLast?.any fun piece => !isStep piece

/-- What lies below, reached by the names. A slash at the end serves as the one before the names. -/
def join : List String → Location
  | [] => l
  | names => ⟨(if l.pieces.getLast? = some "" then l.pieces.dropLast else l.pieces) ++ names⟩

@[simp]
theorem join_nil : l.join [] = l := rfl

theorem steps_join {names : List String} (h : ∀ name ∈ names, isStep name = true) :
    (l.join names).steps = l.steps ++ names := by
  have kept : names.filter isStep = names := List.filter_eq_self.2 h
  cases names with
  | nil => simp
  | cons name names =>
    simp only [join, steps, List.filter_append, kept]
    split
    · rename_i last
      obtain ⟨front, shape⟩ := List.getLast?_eq_some_iff.1 last
      simp [shape, isStep]
    · rfl

end Location
end WireSchema.Files
