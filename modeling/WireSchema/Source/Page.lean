import WireSchema.Text.Split

/-!
# Indented source text

Source is described by a tree of steps and laid out line by line. A line remembers the depth at
which it was written; empty lines are never indented, and `blank` separates without piling up empty
lines.
-/
namespace WireSchema.Source

inductive Step where
  /-- A text, each of its lines at the current depth. -/
  | line (text : String)
  /-- An empty line, unless the page is empty or already ends in one. -/
  | blank
  | indent
  | dedent
  /-- A header with an opening brace, the body one level deeper, a closing brace. -/
  | block (header : String) (body : List Step)
deriving Inhabited

structure Line where
  depth : Nat
  text : List Char
deriving DecidableEq, Repr

/-- Four spaces for each level. An empty line has no indentation. -/
def Line.render (l : Line) : List Char :=
  if l.text.isEmpty then ['\n'] else List.replicate (4 * l.depth) ' ' ++ l.text ++ ['\n']

/-- The lines written so far, last one first, and the depth of the next one. -/
structure Page where
  lines : List Line
  depth : Nat
deriving DecidableEq, Repr

namespace Page

def empty : Page := ⟨[], 0⟩

variable (p : Page)

def push (text : List Char) : Page := { p with lines := ⟨p.depth, text⟩ :: p.lines }

def write (text : String) : Page :=
  (Text.splitWhere (· == '\n') text.toList).foldl push p

/-- Whether the text so far ends in an empty line that some other line precedes. -/
def endsBlank : Bool :=
  match p.lines with
  | last :: _ :: _ => last.text.isEmpty
  | _ => false

def blank : Page :=
  if p.lines.isEmpty || p.endsBlank then p else p.push []

def indent : Page := { p with depth := p.depth + 1 }

def dedent : Page := { p with depth := p.depth - 1 }

def chars : List Char := p.lines.reverse.flatMap Line.render

def text : String := String.ofList p.chars

end Page

mutual

def Step.run (p : Page) : Step → Page
  | .line text => p.write text
  | .blank => p.blank
  | .indent => p.indent
  | .dedent => p.dedent
  | .block header body => (runAll (p.write (header ++ " \x7b")).indent body).dedent.write "\x7d"

def runAll (p : Page) : List Step → Page
  | [] => p
  | s :: steps => runAll (s.run p) steps

end

def render (steps : List Step) : String := (runAll .empty steps).text

@[simp]
theorem runAll_nil (p : Page) : runAll p [] = p := rfl

@[simp]
theorem runAll_cons (p : Page) (s : Step) (steps : List Step) :
    runAll p (s :: steps) = runAll (s.run p) steps := rfl

theorem runAll_append (p : Page) (before after : List Step) :
    runAll p (before ++ after) = runAll (runAll p before) after := by
  induction before generalizing p with
  | nil => rfl
  | cons s steps ih => exact ih (s.run p)

end WireSchema.Source
