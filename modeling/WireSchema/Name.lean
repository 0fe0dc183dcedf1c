/-!
# Qualified names

A declaration is known by the path of identifiers that leads to it from the root of the document.
The root itself has the empty path.
-/
namespace WireSchema

structure QualifiedName where
  segments : List String
deriving DecidableEq, Repr, Inhabited

namespace QualifiedName

def root : QualifiedName := ⟨[]⟩

def top (name : String) : QualifiedName := ⟨[name]⟩

variable (q : QualifiedName)

def child (name : String) : QualifiedName := ⟨q.segments ++ [name]⟩

/-- The last identifier, empty for the root. -/
def name : String := q.segments.getLast?.getD ""

/-- Everything but the last identifier. -/
def scope : QualifiedName := ⟨q.segments.dropLast⟩

/-- The declaration beside `q` that has another last identifier. -/
def sibling (name : String) : QualifiedName := q.scope.child name

def joined (separator : String) : String := separator.intercalate q.segments

/-- The written form: identifiers joined by two colons. -/
def text : String := q.joined "::"

@[simp]
theorem child_name (name : String) : (q.child name).name = name := by
  simp [child, QualifiedName.name]

@[simp]
theorem child_scope (name : String) : (q.child name).scope = q := by
  simp [child, scope]

@[simp]
theorem segments_child (name : String) : (q.child name).segments = q.segments ++ [name] := rfl

end QualifiedName
end WireSchema
