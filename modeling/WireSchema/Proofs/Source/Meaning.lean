import Mathlib.Algebra.GroupWithZero.Nat
import Mathlib.Data.List.Basic
import WireSchema.Proofs.Text.Literal
import WireSchema.Source.Container
import WireSchema.Source.Enumeration
import WireSchema.Source.Record
import WireSchema.Value.Decode

/-!
# What emitted codecs do

The functions of an emitted codec are read off the text of their statements and run one statement
after the other. Calls of the writer and the reader are the functions of the wire, calls of another
codec are the coding of its type, and a statement that is not understood has no meaning: nothing is
assumed of the text but what stands in it.
-/
namespace WireSchema.Source

open Command Identifier Schema Text Wire

def between? (before after : String) (text : List Char) : Option (List Char) :=
  (text.dropPrefix? before.toList).bind (·.dropSuffix? after.toList)

theorem dropPrefix?_append (before rest : List Char) :
    (before ++ rest).dropPrefix? before = some rest :=
  List.dropPrefix?_eq_some_iff.mpr ⟨before, rfl, beq_self_eq_true before⟩

theorem dropSuffix?_append (mid after : List Char) : (mid ++ after).dropSuffix? after = some mid :=
  List.dropSuffix?_eq_some_iff.mpr ⟨after, rfl, beq_self_eq_true after⟩

theorem between?_append (before after : String) (mid : List Char) :
    between? before after (before.toList ++ (mid ++ after.toList)) = some mid := by
  rw [between?, dropPrefix?_append, Option.bind_some, dropSuffix?_append]

theorem between?_eq_none {before after : String} {text : List Char}
    (h : text.dropPrefix? before.toList = none) : between? before after text = none := by
  rw [between?, h, Option.bind_none]

theorem takeWhile_append_of_notMem {c : Char} {word : List Char} (h : c ∉ word) (rest : List Char) :
    (word ++ c :: rest).takeWhile (· != c) = word := by
  induction word with
  | nil => simp
  | cons d word ih =>
    simp only [List.mem_cons, not_or] at h
    simp [ih h.2, Ne.symm h.1]

theorem dropWhile_append_of_notMem {c : Char} {word : List Char} (h : c ∉ word) (rest : List Char) :
    (word ++ c :: rest).dropWhile (· != c) = c :: rest := by
  induction word with
  | nil => simp
  | cons d word ih =>
    simp only [List.mem_cons, not_or] at h
    simp [ih h.2, Ne.symm h.1]

theorem space_notMem_toString (n : Nat) : ' ' ∉ (toString n).toList := by
  rw [show (toString n).toList = Nat.toDigits 10 n from Nat.toList_repr]
  intro h
  have hdigit := Nat.isDigit_of_mem_toDigits (by decide) (by decide) h
  exact absurd hdigit (by decide)

/-- A place of which a statement speaks, with the type and the value of what is there. -/
structure Binding where
  place : List Char
  type : TypeId
  value : Value

abbrev Scope := List Binding

/-- What is at a place. -/
def Scope.at? (scope : Scope) (place : List Char) : Option Binding :=
  scope.find? (·.place == place)

/-- What `self` is: its places, and for a container the bindings of each of its entries, with the
pattern that introduces them. -/
structure Frame where
  scope : Scope
  entries : Option (String × List Scope)

def asBool : Value → Option Bool
  | .bool b => some b
  | _ => none

def asText : Value → Option String
  | .text t => some t
  | _ => none

def asBlob : Value → Option (List UInt8)
  | .blob data => some data
  | _ => none

def asOrdinal : Value → Option Int32
  | .ordinal v => some v
  | _ => none

namespace Target

variable (t : Target)

/-- The greatest number of entries of a container. -/
def cap : Nat := t.config.maxElements.toNat

def writeMethod (self : Frame) (method : String) (argument : List Char) : Option Output :=
  match method with
  | "bool" => do return .bool (← asBool (← self.scope.at? argument).value)
  | "string" => do
    let place ← argument.dropPrefix? "&".toList
    return .text (← asText (← self.scope.at? place).value)
  | "opaque" => do
    let place ← argument.dropPrefix? "&".toList
    return .blob (← asBlob (← self.scope.at? place).value)
  | "enum" => do
    let place ← between? "i32::from(" ")" argument
    return .number .int32 (← asOrdinal (← self.scope.at? place).value)
  | "count" => do
    guard (argument = "self.0.len()".toList)
    let (_, entries) ← self.entries
    return .count entries.length
  | keyword => do
    let n ← Numeric.ofKeyword? keyword
    return .number n (← n.ofValue? (← self.scope.at? argument).value)

def writeStatement (self : Frame) (text : List Char) : Option Output :=
  match between? "Xdr::serialize(&" ", ser)?;" text with
  | some place => do
    let x ← self.scope.at? place
    return t.schema.encode t.cap x.type x.value
  | none => do
    let call ← between? "ser.write_" ")?;" text
    let method := call.takeWhile (· != '(')
    writeMethod self (String.ofList method) (call.drop (method.length + 1))

def writeLines (self : Frame) : List Step → Option Output
  | [] => some .done
  | .line text :: steps => do
    let o ← t.writeStatement self text.toList
    return o ++ (← writeLines self steps)
  | _ => none

/-- The body of the function that writes. It ends with its result. -/
def runWrite (self : Frame) : List Step → Option Output
  | [] => none
  | .line text :: steps =>
    match t.writeStatement self text.toList with
    | some o => do return o ++ (← runWrite self steps)
    | none => if text = "Ok(())" ∧ steps.isEmpty then some .done else none
  | .block header body :: steps => do
    let (pattern, entries) ← self.entries
    guard (header = "for " ++ pattern ++ " in &self.0")
    let outputs ← entries.mapM fun scope => t.writeLines { self with scope } body
    return outputs.foldr (· ++ ·) .done ++ (← runWrite self steps)
  | _ => none

def sizeTerm (scope : Scope) (term : List Char) : Option Nat :=
  match digits? 10 term, between? "string_size(&" ")" term, between? "opaque_size(&" ")" term with
  | some n, _, _ => some n
  | none, some place, _ => do return textSize (← asText (← scope.at? place).value)
  | none, none, some place => do return blobSize (← asBlob (← scope.at? place).value).length
  | none, none, none => do
    let x ← scope.at? (← between? "Xdr::size(&" ")" term)
    (t.schema.size x.type x.value).toOption

/-- A sum, cut at its blanks. -/
def sizeSum (scope : Scope) : List (List Char) → Option Nat
  | [term] => t.sizeTerm scope term
  | term :: ['+'] :: terms => do return (← t.sizeTerm scope term) + (← sizeSum scope terms)
  | _ => none

def sizeExpression (self : Frame) (text : List Char) : Option Nat :=
  match self.entries with
  | none => t.sizeSum self.scope (splitWhere (· == ' ') text)
  | some (pattern, entries) =>
    match text.dropPrefix? "4 + self.0.len() * ".toList with
    | some factor => do return 4 + entries.length * (← digits? 10 factor)
    | none => do
      let sum ← between? ("4 + self.0.iter().map(|" ++ pattern ++ "| ") ").sum::<usize>()" text
      let sizes ← entries.mapM fun scope => t.sizeSum scope (splitWhere (· == ' ') sum)
      return 4 + sizes.sum

def runSize (self : Frame) : List Step → Option Nat
  | [.line text] => t.sizeExpression self text.toList
  | _ => none

/-- A read whose statement may have no meaning. -/
abbrev Reading := OptionT Decoder

/-- Whether an enumerator is declared with a number. -/
def declares (declarations : List Step) (variant : List Char) (number : Int) : Bool :=
  declarations.any fun
    | .line text => text.toList == variant ++ " = ".toList ++ (toString number).toList ++ [',']
    | _ => false

/-- The match that gives a number its enumerator. Arms are tried in their order, and every one of
them has to name a declared enumerator. -/
def runMatch (ident : String) (declarations : List Step) (v : Int32) :
    List Step → Option (Except WireError Value)
  | .line text :: arms => do
    let pattern := text.toList.takeWhile (· != ' ')
    let result := text.toList.drop pattern.length
    match integer? pattern with
    | some number =>
      let variant ← between? (" => Ok(" ++ ident ++ "::") ")," result
      guard (declares declarations variant number)
      if number = v.toInt then return .ok (.ordinal (.ofInt number))
      else runMatch ident declarations v arms
    | none =>
      guard (pattern = ['_'])
      let error := t.runtime "Error::InvalidEnumValue " ++ "\x7b type_name: "
      let name ← unquote? (← between? (" => Err(" ++ error) ".to_owned(), value \x7d)," result)
      return .error (.invalidEnumValue name v.toInt)
  | _ => none

/-- Reads a number and gives the enumerator that a match finds for it. -/
def readOrdinal (ident : String) (declarations arms : List Step) : Reading Value := do
  let v ← OptionT.lift (Decoder.number .int32)
  match t.runMatch ident declarations v arms with
  | some (.ok x) => pure x
  | some (.error e) => OptionT.lift (.fail e)
  | none => failure

def readMethod (method : String) : Reading Value :=
  match method with
  | "bool" => do return .bool (← OptionT.lift Decoder.bool)
  | "string" => do return .text (← OptionT.lift Decoder.text)
  | "opaque" => do return .blob (← OptionT.lift Decoder.blob)
  | keyword =>
    match Numeric.ofKeyword? keyword with
    | some n => do return n.toValue (← OptionT.lift (Decoder.number n))
    | none => failure

/-- An expression that reads a value of a type. The type is named by its path. -/
def readExpression (id : TypeId) (text : List Char) : Reading Value :=
  match text.dropSuffix? "::try_from(de.read_enum()?)?".toList with
  | some path =>
    match t.schema.type id with
    | .enumeration e =>
      if path = (t.path e.name).toList then
        t.readOrdinal (camel e.name.name) (enumeratorLines e) (t.ordinalArms e)
      else failure
    | _ => failure
  | none =>
    match between? "<" " as Xdr>::deserialize(de)?" text with
    | some path =>
      match (t.schema.type id).name? with
      | some name =>
        if path = (t.path name).toList then OptionT.lift (t.schema.decode t.cap id) else failure
      | none => failure
    | none =>
      match between? "de.read_" "()?" text with
      | some method => readMethod (String.ofList method)
      | none => failure

/-- The fields of a record, read in their order, and the end of the record. -/
def readFields : List Member → List Step → Reading (List (String × Value))
  | [], [.dedent, .line text] => if text = "\x7d)" then pure [] else failure
  | m :: members, .line text :: steps =>
    match between? (snake m.name ++ ": ") "," text.toList with
    | some expression => do
      let v ← t.readExpression m.type expression
      return (m.name, v) :: (← readFields members steps)
    | none => failure
  | _, _ => failure

def runReadRecord (r : RecordType) : List Step → Reading Value
  | [.line text] =>
    if text = "Ok(Self \x7b\x7d)" ∧ r.members = [] then pure (.record r.name.text []) else failure
  | .line text :: .indent :: steps => do
    guard (text = "Ok(Self \x7b")
    return .record r.name.text (← t.readFields r.members steps)
  | _ => failure

structure Locals where
  count : Option Nat
  values : Option (List Value)
  value : Option Value

/-- A statement of the function that reads a list of at most `max` elements. -/
def readStatement (element : TypeId) (max : Nat) (l : Locals) (text : List Char) : Reading Locals :=
  match between? "let count = de.read_count(" ", Self::MAX_ELEMS)?;" text with
  | some literal =>
    match unquote? literal with
    | some typeName => do
      return { l with count := some (← OptionT.lift (Decoder.count typeName max)) }
    | none => failure
  | none =>
    match between? "let value = " ";" text with
    | some expression => do return { l with value := some (← t.readExpression element expression) }
    | none =>
      if text = "let mut values = Vec::with_capacity(count.min(de.remaining().len()));".toList then
        match l.count with
        | some _ => pure { l with values := some [] }
        | none => failure
      else if text = "values.push(value);".toList then
        match l.values, l.value with
        | some values, some v => pure { l with values := some (values ++ [v]), value := none }
        | _, _ => failure
      else failure

def readLines (element : TypeId) (max : Nat) : Locals → List Step → Reading Locals
  | l, [] => pure l
  | l, .line text :: steps => do
    readLines element max (← t.readStatement element max l text.toList) steps
  | _, _ => failure

def repeatReading (body : Locals → Reading Locals) : Nat → Locals → Reading Locals
  | 0, l => pure l
  | n + 1, l => do repeatReading body n (← body l)

def runReadList (element : TypeId) (max : Nat) : Locals → List Step → Reading Value
  | l, [.line text] =>
    match l.values with
    | some values => if text = "Ok(Self(values))" then pure (.sequence values) else failure
    | none => failure
  | l, .line text :: steps => do
    runReadList element max (← t.readStatement element max l text.toList) steps
  | l, .block header body :: steps =>
    match l.count with
    | some n => do
      guard (header = "for _ in 0..count")
      let l ← repeatReading (t.readLines element max · body) n l
      runReadList element max l steps
    | none => failure
  | _, _ => failure

end Target

/-- The body of the first block whose header is selected. -/
def block? (selected : String → Bool) : List Step → Option (List Step)
  | [] => none
  | .block header body :: steps => if selected header then some body else block? selected steps
  | _ :: steps => block? selected steps

/-- The body of the function of a codec whose header starts as given. -/
def codecFunction? (file : List Step) (ident start : String) : Option (List Step) := do
  let codec ← block? (· == "impl Xdr for " ++ ident) file
  block? (fun header => start.toList.isPrefixOf header.toList) codec

def maxElements? (file : List Step) (ident : String) : Option Nat := do
  let items ← block? (· == "impl " ++ ident) file
  items.findSome? fun
    | .line text => (between? "pub const MAX_ELEMS: u32 = " ";" text.toList).bind (digits? 10)
    | _ => none

/-- What the three functions of an emitted codec do. -/
structure Behaviour where
  write : Value → Option Output
  read : Target.Reading Value
  size : Value → Option Nat

namespace Target

variable (t : Target)

/-- What the codec of a file does to the values that a frame is found for. -/
def behaviour (file : List Step) (ident : String) (frame : Value → Option Frame)
    (read : List Step → Reading Value) : Behaviour where
  write v := do
    let body ← codecFunction? file ident "fn serialize<W: std::io::Write>(&self, "
    t.runWrite (← frame v) body
  read :=
    match codecFunction? file ident "fn deserialize(" with
    | some body => read body
    | none => failure
  size v := do
    let body ← codecFunction? file ident "fn size(&self) -> usize"
    t.runSize (← frame v) body

/-- The fields of a record under the names they have in emitted source. -/
def recordFrame (r : RecordType) : Value → Option Frame
  | .record _ fields =>
    if r.fits fields then
      some {
        scope := List.zipWith (fun m f => ⟨("self." ++ snake m.name).toList, m.type, f.2⟩) r.members
          fields
        entries := none }
    else none
  | _ => none

def recordBehaviour (r : RecordType) (file : List Step) : Behaviour :=
  t.behaviour file (camel r.name.name) (recordFrame r) (t.runReadRecord r)

/-- The elements of a list, each of them bound when its turn comes. -/
def listFrame (q : SequenceType) : Value → Option Frame
  | .sequence elements =>
    some {
      scope := []
      entries := some ("value", elements.map fun v => [⟨"*value".toList, q.element, v⟩]) }
  | _ => none

def sequenceBehaviour (q : SequenceType) (file : List Step) : Behaviour :=
  let ident := camel q.name.name
  t.behaviour file ident (listFrame q) fun body =>
    match maxElements? file ident with
    | some max => t.runReadList q.element max ⟨none, none, none⟩ body
    | none => failure

def ordinalFrame (id : TypeId) : Value → Option Frame
  | .ordinal v => some { scope := [⟨"*self".toList, id, .ordinal v⟩], entries := none }
  | _ => none

/-- The body of the function that reads an enumerator. The match stands in another function of the
file. -/
def runReadOrdinal (ident : String) (file : List Step) : List Step → Reading Value
  | [.line text] =>
    let arms := do
      let conversion ← block? (· == "impl TryFrom<i32> for " ++ ident) file
      let function ← block?
        (fun header => "fn try_from(value: i32) -> ".toList.isPrefixOf header.toList) conversion
      block? (· == "match value") function
    match block? (· == "pub enum " ++ ident) file, arms with
    | some declarations, some arms =>
      if text = "Self::try_from(de.read_enum()?)" then t.readOrdinal ident declarations arms
      else failure
    | _, _ => failure
  | _ => failure

def enumerationBehaviour (id : TypeId) (e : EnumType) (file : List Step) : Behaviour :=
  let ident := camel e.name.name
  t.behaviour file ident (ordinalFrame id) (t.runReadOrdinal ident file)

end Target

/-- An emitted codec agrees with a coding of values: it writes what the coding writes and computes
the same size wherever the coding succeeds, and it reads what the coding reads from every input,
with the same failures and the same bytes left. -/
structure Behaviour.Agrees (b : Behaviour) (encode : Value → Output) (decode : Decoder Value)
    (size : Value → Except WireError Nat) : Prop where
  write : ∀ v bytes, Sink.unbounded.drain (encode v) = (.ok (), ⟨none, bytes⟩) →
    b.write v = some (encode v)
  size : ∀ v bytes, Sink.unbounded.drain (encode v) = (.ok (), ⟨none, bytes⟩) →
    ∃ n, size v = .ok n ∧ b.size v = some n
  read : b.read.run = some <$> decode

end WireSchema.Source
