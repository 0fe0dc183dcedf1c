import WireSchema.Identifier.Words
import WireSchema.Name

/-!
# Identifiers and paths of the emitted source

Names of a document become Rust identifiers: snake case for modules and fields, camel case for types
and variants, shouty case for constants. A spelling that the language reserves is escaped.

The emitted tree is mounted under a root path. A module is reached through the snake-case spellings
of its segments, a type through its module and its camel-case spelling.
-/
namespace WireSchema.Identifier

/-- Reserved words that can be used as raw identifiers. -/
def keywords : List String := [
  "abstract", "as", "async", "await", "become", "box", "break", "const", "continue", "do", "dyn",
  "else", "enum", "extern", "false", "final", "fn", "for", "gen", "if", "impl", "in", "let", "loop",
  "macro", "match", "mod", "move", "mut", "override", "priv", "pub", "ref", "return", "static",
  "struct", "trait", "true", "try", "type", "typeof", "unsafe", "unsized", "use", "virtual",
  "where", "while", "yield"]

/-- Reserved words that no raw identifier can spell. -/
def pathWords : List String := ["self", "Self", "super", "crate"]

/-- Types in scope everywhere, which an emitted type must not hide. -/
def preludeTypes : List String := ["Box", "Option", "Result", "String", "Vec", "Self"]

def startsWithDigit (s : String) : Bool :=
  match s.toList with
  | c :: _ => c.isDigit
  | [] => false

/-- Makes a reserved or digit-led spelling usable as an identifier. -/
def escaped (spelling : String) : String :=
  if spelling ∈ pathWords then spelling ++ "_"
  else if spelling ∈ keywords then "r#" ++ spelling
  else if startsWithDigit spelling then "_" ++ spelling
  else spelling

def joinWords (form : List Char → List Char) (separator : List Char) (name : String) : String :=
  String.ofList (separator.intercalate ((words name.toList).map form))

def snakeCase (name : String) : String := joinWords lowerWord ['_'] name

def camelCase (name : String) : String := joinWords capitalWord [] name

def shoutyCase (name : String) : String := joinWords upperWord ['_'] name

-- Emitted text is reasoned about with the spellings in it as they stand, whatever they come to.

/-- Identifier of a module, field or parameter. -/
@[irreducible]
def snake (name : String) : String := escaped (snakeCase name)

/-- Identifier of a type or variant. -/
@[irreducible]
def camel (name : String) : String :=
  if camelCase name ∈ preludeTypes then camelCase name ++ "_" else escaped (camelCase name)

/-- Identifier of a constant. -/
def shouty (name : String) : String := escaped (shoutyCase name)

def dropRawMarks : List Char → List Char
  | 'r' :: '#' :: cs => dropRawMarks cs
  | cs => cs

/-- File name, without its extension, of what is declared under `name`. -/
def stem (name : String) : String := String.ofList (dropRawMarks (snake name).toList)

def modulePath (rootPath : String) (module : QualifiedName) : String :=
  "::".intercalate (rootPath :: module.segments.map snake)

def typePath (rootPath : String) (type : QualifiedName) : String :=
  modulePath rootPath type.scope ++ "::" ++ camel type.name

/-- Directories from the root of the emitted tree to that of a module. Names without letters and
digits have no directory of their own. -/
def directory (module : QualifiedName) : List String :=
  (module.segments.map stem).filter (· ≠ "")

end WireSchema.Identifier
