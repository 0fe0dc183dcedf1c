import WireSchema.Proofs.Identifier.Capital
import WireSchema.Proofs.Source.Exports

/-!
# Names of types in a file

The outermost items of a file bring names into its scope that stand for types or modules: imported
types, structures and enumerations, modules, and re-exported types. They are read off the steps of a
file, and this module says which ones the file of each declaration holds.
-/
namespace WireSchema.Source

open Identifier Schema Text

/-- An identifier without the mark of a raw one, with or without which it is the same. -/
def bare (ident : List Char) : String := String.ofList (dropRawMarks ident)

/-- The types among the items that a line imports, which are those with a capital. -/
def importedTypes (line : List Char) : List String :=
  ((between? "use " "\x7d;" line).map fun path =>
    ((splitWhere (fun c => c == ',' || c == ' ')
        (path.reverse.takeWhile (· != '\x7b')).reverse).filter
      fun item => item.head?.any Char.isUpper).map String.ofList).getD []

def exportedName? (line : List Char) : Option String :=
  ((between? "pub use " ";" line).map fun path =>
    (path.reverse.takeWhile (· != ':')).reverse).filter (· ≠ ['*']) |>.map bare

/-- The structure or enumeration that a text declares. The fields of a structure may follow. -/
def declaredName? (text : List Char) : Option String :=
  ((text.dropPrefix? "pub struct ".toList).or (text.dropPrefix? "pub enum ".toList)).map
    fun rest => bare (rest.takeWhile (· != '('))

/-- The name that a public item has among types and modules. -/
def itemName? (text : List Char) : Option String :=
  (((between? "pub mod " ";" text).map bare).or (exportedName? text)).or (declaredName? text)

/-- The names of types and modules that an outermost step brings into scope. -/
def Step.typeNames : Step → List String
  | .line text => importedTypes text.toList ++ (itemName? text.toList).toList
  | .block header _ => (itemName? header.toList).toList
  | _ => []

def SourceFile.typeNames (f : SourceFile) : List String := f.steps.flatMap Step.typeNames

def itemMarks : List String := ["pub mod ", "pub use ", "pub struct ", "pub enum "]

/-- A text has another character than a mark at a place that both have. -/
def Unlike (mark text : String) : Prop :=
  ∃ k < mark.toList.length, k < text.toList.length ∧ text.toList[k]? ≠ mark.toList[k]?

instance (mark text : String) : Decidable (Unlike mark text) :=
  inferInstanceAs (Decidable (∃ k < mark.toList.length, _))

theorem Unlike.append {mark text : String} (h : Unlike mark text) (rest : String) :
    Unlike mark (text ++ rest) := by
  obtain ⟨k, hk, hlength, hne⟩ := h
  rw [Unlike, String.toList_append]
  refine ⟨k, hk, ?_, ?_⟩
  · rw [List.length_append]
    omega
  · rwa [List.getElem?_append_left hlength]

theorem Unlike.dropPrefix?_eq_none {mark text : String} (h : Unlike mark text) :
    text.toList.dropPrefix? mark.toList = none := by
  obtain ⟨k, hk, -, hne⟩ := h
  exact dropPrefix?_of_ne k hk hne

theorem Unlike.between?_eq_none {mark text : String} (h : Unlike mark text) (after : String) :
    between? mark after text.toList = none :=
  Source.between?_eq_none h.dropPrefix?_eq_none

theorem itemName?_eq_none {text : String} (h : ∀ mark ∈ itemMarks, Unlike mark text) :
    itemName? text.toList = none := by
  have hmod := h "pub mod " (by decide)
  have huse := h "pub use " (by decide)
  have hstruct := h "pub struct " (by decide)
  have henum := h "pub enum " (by decide)
  rw [itemName?, exportedName?, declaredName?, hmod.between?_eq_none, huse.between?_eq_none,
    hstruct.dropPrefix?_eq_none, henum.dropPrefix?_eq_none]
  rfl

theorem importedTypes_eq_nil {text : String} (h : Unlike "use " text) :
    importedTypes text.toList = [] := by
  rw [importedTypes, h.between?_eq_none]
  rfl

/-- A text that brings no name into scope, whatever follows. -/
def Silent (text : String) : Prop := ∀ mark ∈ "use " :: itemMarks, Unlike mark text

instance (text : String) : Decidable (Silent text) :=
  inferInstanceAs (Decidable (∀ mark ∈ "use " :: itemMarks, _))

namespace Silent

variable {text : String}

theorem append (h : Silent text) (rest : String) : Silent (text ++ rest) :=
  fun mark hmark => (h mark hmark).append rest

theorem line (h : Silent text) : (Step.line text).typeNames = [] := by
  rw [Step.typeNames, importedTypes_eq_nil (h _ List.mem_cons_self),
    itemName?_eq_none fun mark hmark => h mark (.tail _ hmark)]
  rfl

theorem block (h : Silent text) (body : List Step) : (Step.block text body).typeNames = [] := by
  rw [Step.typeNames, itemName?_eq_none fun mark hmark => h mark (.tail _ hmark)]
  rfl

end Silent

theorem silent_impl : Silent "impl " := by decide

section Items

variable {step : Step} {steps steps' : List Step} {name : String} {names names' : List String}

/-- The outermost steps bring these names into scope. -/
def Introduces (steps : List Step) (names : List String) : Prop :=
  steps.flatMap Step.typeNames = names

namespace Introduces

theorem nil : Introduces [] [] := rfl

theorem silent (h : step.typeNames = []) (hrest : Introduces steps names) :
    Introduces (step :: steps) names := by
  rw [Introduces, List.flatMap_cons, h, hrest, List.nil_append]

theorem item (h : step.typeNames = [name]) (hrest : Introduces steps names) :
    Introduces (step :: steps) (name :: names) := by
  rw [Introduces, List.flatMap_cons, h, hrest, List.singleton_append]

theorem append (h : Introduces steps names) (h' : Introduces steps' names') :
    Introduces (steps ++ steps') (names ++ names') := by
  rw [Introduces, List.flatMap_append, h, h']

theorem append_silent (h : Introduces steps names) (h' : Introduces steps' []) :
    Introduces (steps ++ steps') names := by
  rw [← List.append_nil names]
  exact h.append h'

end Introduces

end Items

theorem bare_of_notMem {ident : String} (h : '#' ∉ ident.toList) : bare ident.toList = ident := by
  rw [bare, dropRawMarks_of_notMem h, String.ofList_toList]

theorem typeNames_moduleLine (module : String) :
    (moduleLine module).typeNames = [moduleStem module] := by
  have himport : Unlike "use " "pub mod " := by decide
  have htext : ("pub mod " ++ module ++ ";").toList =
      "pub mod ".toList ++ (module.toList ++ ";".toList) := by
    rw [String.toList_append, String.toList_append, List.append_assoc]
  change importedTypes ("pub mod " ++ module ++ ";").toList ++
    (itemName? ("pub mod " ++ module ++ ";").toList).toList = _
  rw [importedTypes_eq_nil ((himport.append _).append _), itemName?, htext, between?_append]
  rfl

theorem typeNames_useLine {module type : String} (hcolon : ':' ∉ type.toList) (hstar : "*" ≠ type)
    (hraw : '#' ∉ type.toList) : (useLine module type).typeNames = [type] := by
  have himport : Unlike "use " "pub use " := by decide
  have hmod : Unlike "pub mod " "pub use " := by decide
  have htext : ("pub use " ++ (module ++ "::" ++ type) ++ ";").toList =
      "pub use ".toList ++ ((module ++ "::" ++ type).toList ++ ";".toList) := by
    rw [String.toList_append, String.toList_append, List.append_assoc]
  have hlast : ((module ++ "::" ++ type).toList.reverse.takeWhile (· != ':')).reverse =
      type.toList := by
    rw [← String.toList_ofList (l := List.reverse _)]
    exact congrArg String.toList (lastIdentifier_append hcolon)
  have hglob : type.toList ≠ ['*'] := fun heq => hstar (String.toList_injective heq).symm
  rw [useLine_eq]
  change importedTypes ("pub use " ++ (module ++ "::" ++ type) ++ ";").toList ++
    (itemName? ("pub use " ++ (module ++ "::" ++ type) ++ ";").toList).toList = _
  rw [importedTypes_eq_nil ((himport.append _).append _), itemName?,
    ((hmod.append _).append _).between?_eq_none, exportedName?, htext, between?_append,
    Option.map_some, hlast, Option.filter_some, if_pos (decide_eq_true hglob), Option.map_some,
    bare_of_notMem hraw]
  rfl

def typeMarks : List String := ["pub struct ", "pub enum "]

section Declared

variable {mark ident tail : String} (hmark : mark ∈ typeMarks) (hopen : '(' ∉ ident.toList)
  (hraw : '#' ∉ ident.toList)
include hmark hopen hraw

/-- The identifier ends with the text or where the fields start. -/
theorem itemName?_declaration (htail : tail.toList.takeWhile (· != '(') = []) :
    itemName? (mark ++ ident ++ tail).toList = some ident := by
  have hothers : ∀ mark ∈ typeMarks, Unlike "pub mod " mark ∧ Unlike "pub use " mark := by decide
  have hplain : ∀ c ∈ ident.toList, (c != '(') = true :=
    fun c hc => bne_iff_ne.mpr (ne_of_mem_of_not_mem hc hopen)
  have hident : bare ((ident.toList ++ tail.toList).takeWhile (· != '(')) = ident := by
    rw [List.takeWhile_append_of_pos hplain, htail, List.append_nil, bare_of_notMem hraw]
  have htext : (mark ++ ident ++ tail).toList = mark.toList ++ (ident.toList ++ tail.toList) := by
    rw [String.toList_append, String.toList_append, List.append_assoc]
  have hdeclared : declaredName? (mark ++ ident ++ tail).toList = some ident := by
    have hcases : mark = "pub struct " ∨ mark = "pub enum " := by simpa [typeMarks] using hmark
    rcases hcases with rfl | rfl
    · rw [declaredName?, htext, dropPrefix?_append, Option.some_or, Option.map_some, hident]
    · have hstruct : Unlike "pub struct " "pub enum " := by decide
      rw [declaredName?, ((hstruct.append _).append _).dropPrefix?_eq_none, Option.none_or, htext,
        dropPrefix?_append, Option.map_some, hident]
  obtain ⟨hmod, huse⟩ := hothers mark hmark
  rw [itemName?, exportedName?, ((hmod.append _).append _).between?_eq_none,
    ((huse.append _).append _).between?_eq_none, hdeclared]
  rfl

theorem typeNames_declarationBlock (body : List Step) :
    (Step.block (mark ++ ident) body).typeNames = [ident] := by
  have hitem : itemName? (mark ++ ident ++ "").toList = some ident :=
    itemName?_declaration hmark hopen hraw (by decide)
  rw [String.append_empty] at hitem
  rw [Step.typeNames, hitem]
  rfl

theorem typeNames_declarationLine (htail : tail.toList.takeWhile (· != '(') = []) :
    (Step.line (mark ++ ident ++ tail)).typeNames = [ident] := by
  have himport : ∀ mark ∈ typeMarks, Unlike "use " mark := by decide
  rw [Step.typeNames, importedTypes_eq_nil (((himport mark hmark).append _).append _),
    itemName?_declaration hmark hopen hraw htail]
  rfl

end Declared

/-- The types that every file with codecs imports. -/
def imports : List String := ["Deserializer", "Serializer", "Xdr"]

theorem introduces_header (name : QualifiedName) : Introduces (header name) [] := by
  have hgenerated : Silent "// Generated by xdr-idlc" := by decide
  have hallow : Silent "#![allow(unused_imports, unused_variables, clippy::all)]" := by decide
  exact .silent ((hgenerated.append _).append _).line (.silent hallow.line (.silent rfl .nil))

def importedItems : List Char := "Deserializer, Serializer, Xdr, opaque_size, string_size".toList

def Target.importLine (t : Target) : String :=
  "use " ++ t.runtime "\x7bDeserializer, Serializer, Xdr, opaque_size, string_size\x7d" ++ ";"

theorem codecHeader_eq (t : Target) (name : QualifiedName) :
    t.codecHeader name = header name ++ [.line t.importLine, .blank] := rfl

theorem typeNames_importLine (t : Target) : (Step.line t.importLine).typeNames = imports := by
  have hmarks : ∀ mark ∈ itemMarks, Unlike mark "use " := by decide
  have hitem : itemName? t.importLine.toList = none :=
    itemName?_eq_none fun mark hmark => ((hmarks mark hmark).append _).append _
  have htext : t.importLine.toList = "use ".toList ++
      ((t.config.runtimeCrate ++ "::").toList ++ '\x7b' :: importedItems ++ "\x7d;".toList) := by
    have hbraces : "\x7bDeserializer, Serializer, Xdr, opaque_size, string_size\x7d".toList ++
        ";".toList = '\x7b' :: importedItems ++ "\x7d;".toList := by decide
    rw [Target.importLine, Target.runtime, String.toList_append, String.toList_append,
      String.toList_append, List.append_assoc, List.append_assoc, hbraces, List.append_assoc]
  have hitems : ∀ path : List Char,
      ((path ++ '\x7b' :: importedItems).reverse.takeWhile (· != '\x7b')).reverse =
        importedItems := by
    intro path
    rw [List.reverse_append, List.reverse_cons, List.append_assoc, List.singleton_append,
      takeWhile_append_of_notMem (by decide), List.reverse_reverse]
  rw [Step.typeNames, hitem, importedTypes, htext, between?_append, Option.map_some, hitems]
  decide

theorem introduces_codecHeader (t : Target) (name : QualifiedName) :
    Introduces (t.codecHeader name) imports := by
  rw [codecHeader_eq]
  refine (introduces_header name).append ?_
  rw [Introduces, List.flatMap_cons, typeNames_importLine]
  rfl

theorem openParen_notMem_camel (name : String) : '(' ∉ (camel name).toList :=
  punctuation_notMem_camel ⟨by decide, by decide⟩ (by decide) (by decide) name

theorem introduces_recordComment (r : RecordType) : Introduces (recordComment r) [] := by
  have hrequest : Silent "/// Inbound parameters of `" := by decide
  have hresponse : Silent "/// Outbound parameters of `" := by decide
  unfold recordComment
  cases r.kind with
  | plain => exact .nil
  | exception => exact .nil
  | request number => exact .silent ((hrequest.append _).append _).line .nil
  | response number => exact .silent ((hresponse.append _).append _).line .nil

theorem introduces_identity (t : Target) (r : RecordType) : Introduces (t.identity r) [] := by
  have hdisplay : Silent "impl std::fmt::Display for " := by decide
  have herror : Silent "impl std::error::Error for " := by decide
  unfold Target.identity
  cases r.kind with
  | plain => exact .nil
  | exception =>
    exact .silent rfl (.silent ((hdisplay.append _).block _) (.silent rfl
      (.silent (((herror.append _).append _).append _).line (.silent rfl
        (.silent ((((silent_impl.append _).append _).append _).block _) .nil)))))
  | request number => exact .silent rfl (.silent (((silent_impl.append _).append _).block _) .nil)
  | response number => exact .silent rfl (.silent (((silent_impl.append _).append _).block _) .nil)

theorem typeNames_codec (b : CodecBody) (t : Target) (ident : String) :
    (b.step t ident).typeNames = [] := by
  have hcodec : Silent "impl Xdr for " := by decide
  exact (hcodec.append _).block _

theorem silent_derive : Silent "#[derive(Debug, Clone, PartialEq, Default)]" := by decide

section TypeFiles

variable {t : Target} {steps : List Step}

theorem introduces_record {r : RecordType} {response? : Option RecordType}
    (h : t.recordSteps r response? = .ok steps) :
    Introduces steps (imports ++ [camel r.name.name]) := by
  obtain ⟨fields, -, h⟩ := bind_eq_ok_iff.mp h
  obtain rfl := Except.ok.inj h
  have hstruct : ∀ body, (Step.block ("pub struct " ++ camel r.name.name) body).typeNames =
      [camel r.name.name] :=
    typeNames_declarationBlock (by decide) (openParen_notMem_camel _) (hash_notMem_camel _)
  refine (((introduces_codecHeader t r.name).append_silent (introduces_recordComment r)).append
    ?_).append_silent (introduces_identity t r)
  exact .silent silent_derive.line (.item (hstruct _) (.silent rfl
    (.silent ((silent_impl.append _).block _) (.silent rfl
      (.silent (typeNames_codec _ _ _) .nil)))))

theorem typeNames_container (name : QualifiedName) (inner : String) :
    (Step.line s!"pub struct {camel name.name}({inner});").typeNames = [camel name.name] := by
  have htail : ("(" ++ inner ++ ");").toList.takeWhile (· != '(') = [] := by
    rw [String.toList_append, String.toList_append]
    rfl
  have hline : ("pub struct " ++ camel name.name ++ ("(" ++ inner ++ ");")) =
      s!"pub struct {camel name.name}({inner});" := by
    rw [← String.append_assoc, ← String.append_assoc]
    rfl
  rw [← hline]
  exact typeNames_declarationLine (by decide) (openParen_notMem_camel _) (hash_notMem_camel _) htail

theorem typeNames_checkedFrom (t : Target) (name : QualifiedName) (inner binder : String) :
    (t.checkedFrom name inner binder).typeNames = [] := by
  have hfrom : Silent "impl TryFrom<" := by decide
  exact (((hfrom.append _).append _).append _).block _

theorem typeNames_derefTo (name : QualifiedName) (target : String) :
    (Target.derefTo name target).typeNames = [] := by
  have hderef : Silent "impl std::ops::Deref for " := by decide
  exact (hderef.append _).block _

theorem introduces_sequence {q : SequenceType} (h : t.sequenceSteps q = .ok steps) :
    Introduces steps (imports ++ [camel q.name.name]) := by
  have hcomment : Silent "/// A sequence of `" := by decide
  obtain ⟨element, -, h⟩ := bind_eq_ok_iff.mp h
  obtain rfl := Except.ok.inj h
  refine (introduces_codecHeader t q.name).append ?_
  exact .silent ((((hcomment.append _).append _).append _).append _).line
    (.silent silent_derive.line (.item (typeNames_container _ _) (.silent rfl
      (.silent ((silent_impl.append _).block _) (.silent rfl
        (.silent (typeNames_checkedFrom _ _ _ _) (.silent rfl
          (.silent (typeNames_derefTo _ _) (.silent rfl
            (.silent (typeNames_codec _ _ _) .nil))))))))))

theorem introduces_map {m : MapType} (h : t.mapSteps m = .ok steps) :
    Introduces steps (imports ++ [camel m.name.name]) := by
  have hcomment : Silent "/// A map from `" := by decide
  have hempty : Silent "///" := by decide
  have horder : Silent "/// Pairs are encoded in ascending key order." := by decide
  obtain ⟨key, -, h⟩ := bind_eq_ok_iff.mp h
  obtain ⟨value, -, h⟩ := bind_eq_ok_iff.mp h
  obtain rfl := Except.ok.inj h
  refine (introduces_codecHeader t m.name).append ?_
  exact .silent (((((hcomment.append _).append _).append _).append _).append _).line
    (.silent hempty.line (.silent horder.line (.silent silent_derive.line
      (.item (typeNames_container _ _) (.silent rfl
        (.silent ((silent_impl.append _).block _) (.silent rfl
          (.silent (typeNames_checkedFrom _ _ _ _) (.silent rfl
            (.silent (typeNames_derefTo _ _) (.silent rfl
              (.silent (typeNames_codec _ _ _) .nil))))))))))))

theorem introduces_enumeration {e : EnumType} (h : t.enumerationSteps e = .ok steps) :
    Introduces steps (imports ++ [camel e.name.name]) := by
  have hderive : Silent
      "#[derive(Debug, Clone, Copy, PartialEq, Eq, PartialOrd, Ord, Hash, Default)]" := by decide
  have hrepr : Silent "#[repr(i32)]" := by decide
  have hto : Silent "impl From<" := by decide
  have hfrom : Silent "impl TryFrom<i32> for " := by decide
  obtain ⟨-, -, h⟩ := bind_eq_ok_iff.mp h
  obtain rfl := Except.ok.inj h
  have henum : ∀ body, (Step.block ("pub enum " ++ camel e.name.name) body).typeNames =
      [camel e.name.name] :=
    typeNames_declarationBlock (by decide) (openParen_notMem_camel _) (hash_notMem_camel _)
  refine (introduces_codecHeader t e.name).append ?_
  exact .silent hderive.line (.silent hrepr.line (.item (henum _) (.silent rfl
    (.silent (((hto.append _).append _).block _) (.silent rfl
      (.silent ((hfrom.append _).block _) (.silent rfl
        (.silent (typeNames_codec _ _ _) .nil))))))))

end TypeFiles

/-- The file of a type imports the wire types and declares its own. -/
theorem IsTypeFile.typeNames_eq {t : Target} {type : TypeDef} {f : SourceFile}
    (h : IsTypeFile t type f) :
    f.typeNames = imports ++ [camel f.name.name] := by
  cases h with
  | record h => exact introduces_record h
  | sequence h => exact introduces_sequence h
  | map h => exact introduces_map h
  | enumeration h => exact introduces_enumeration h

section Indexes

variable {t : Target}

theorem typeNames_constantStep {c : Constant} {step : Step} (h : t.constantStep c = .ok step) :
    step.typeNames = [] := by
  have hconstant : Silent "pub const " := by decide
  obtain ⟨strategy, -, h⟩ := bind_eq_ok_iff.mp h
  cases htype : strategy.constantType? with
  | none => simp [htype] at h
  | some type =>
    cases hvalue : strategy.constantText? c.value with
    | none => simp [htype, hvalue] at h
    | some value =>
      simp only [htype, hvalue] at h
      obtain rfl := Except.ok.inj h
      exact ((((((hconstant.append _).append _).append _).append _).append _).append _).line

theorem introduces_constantLines {taken : Namespace} {constants : List Constant} {steps : List Step}
    (h : t.constantLines taken constants = .ok steps) : Introduces steps [] := by
  induction constants generalizing taken steps with
  | nil =>
    obtain rfl := Except.ok.inj h
    exact .nil
  | cons c constants ih =>
    obtain ⟨taken', -, h⟩ := bind_eq_ok_iff.mp h
    obtain ⟨step, hstep, h⟩ := bind_eq_ok_iff.mp h
    obtain ⟨rest, hrest, h⟩ := bind_eq_ok_iff.mp h
    obtain rfl := Except.ok.inj h
    exact .silent (typeNames_constantStep hstep) (ih hrest)

theorem typeNames_constantFiles {scope : QualifiedName} {constants : List Constant}
    {files : List SourceFile} (h : t.constantFiles scope constants = .ok files) :
    ∀ f ∈ files, f.typeNames = [] := by
  unfold Target.constantFiles at h
  split_ifs at h
  · obtain rfl := Except.ok.inj h
    simp
  · obtain ⟨steps, hsteps, h⟩ := bind_eq_ok_iff.mp h
    obtain rfl := Except.ok.inj h
    obtain ⟨lines, hlines, h⟩ := bind_eq_ok_iff.mp hsteps
    obtain rfl := Except.ok.inj h
    intro f hf
    rw [List.mem_singleton.mp hf]
    exact (introduces_header scope).append_silent (introduces_constantLines hlines)

theorem introduces_constants (constants : List Constant) :
    Introduces (if constants.isEmpty then [] else constantsModule) (constantNames constants) := by
  unfold constantNames
  split_ifs
  · exact .nil
  · change Introduces [moduleLine "constants", .line "pub use constants::*;", .blank] _
    have hmodule := typeNames_moduleLine "constants"
    rw [moduleStem_constants] at hmodule
    exact .item hmodule (.silent (by decide) (.silent rfl .nil))

theorem introduces_modules {α : Type} (nameOf : α → QualifiedName) (items : List α) :
    Introduces (items.map fun a => moduleLine (snake (nameOf a).name))
      (items.map fun a => stem (nameOf a).name) := by
  induction items with
  | nil => exact .nil
  | cons a items ih => exact .item (typeNames_moduleLine _) ih

theorem introduces_children (f : Folder) :
    Introduces (f.children.flatMap Child.lines)
      (f.files.flatMap fun x => [Folder.stemOf x, Folder.typeOf x]) := by
  unfold Folder.children
  induction f.files with
  | nil => exact .nil
  | cons x files ih =>
    have hmodule : (moduleLine (snake x.name.name)).typeNames = [Folder.stemOf x] :=
      typeNames_moduleLine _
    have htype : (useLine (snake x.name.name) (camel x.name.name)).typeNames =
        [Folder.typeOf x] :=
      typeNames_useLine (colon_notMem_spelling _) (star_ne_camel _) (hash_notMem_camel _)
    exact .item hmodule (.item htype ih)

theorem introduces_numbers (t : Target) (i : Interface) : Introduces (t.numberSteps i) [] := by
  have hversion : Silent "pub const INTERFACE_VERSION: u32 = " := by decide
  have hprogram : Silent "pub const PROGRAM_NUMBER: u32 = " := by decide
  exact .silent ((hversion.append _).append _).line (.silent ((hprogram.append _).append _).line
    (.silent rfl (.silent (Silent.block (by decide) _) (.silent rfl
      (.silent (Silent.block (by decide) _) (.silent rfl .nil))))))

def Target.dispatchIdents (t : Target) (i : Interface) : List String :=
  [(t.requests i).ident, (t.responses i).ident, (t.exceptions i).ident]

theorem introduces_dispatch (d : DispatchEnum) (hopen : '(' ∉ d.ident.toList)
    (hraw : '#' ∉ d.ident.toList) : Introduces d.declaration [d.ident] := by
  have hderive : Silent "#[derive(Debug, Clone, PartialEq)]" := by decide
  exact .silent hderive.line (.item (typeNames_declarationBlock (by decide) hopen hraw _)
    (.silent rfl .nil))

theorem introduces_dispatchEnums (t : Target) (i : Interface) :
    Introduces (t.requestSteps i ++ t.responseSteps i ++ t.exceptionSteps i)
      (t.dispatchIdents i) := by
  have herror : Silent "impl std::error::Error for " := by decide
  have hdisplay : Silent "impl std::fmt::Display for " := by decide
  have hplain : ∀ ending : String, '(' ∉ ending.toList ∧ '#' ∉ ending.toList →
      '(' ∉ (camel i.name.name ++ ending).toList ∧ '#' ∉ (camel i.name.name ++ ending).toList := by
    intro ending hending
    simp only [String.toList_append, List.mem_append, not_or]
    exact ⟨⟨openParen_notMem_camel _, hending.1⟩, hash_notMem_camel _, hending.2⟩
  have hrequest := hplain "Request" (by decide)
  have hresponse := hplain "Response" (by decide)
  have hexception := hplain "Exception" (by decide)
  have hrequests : Introduces (t.requestSteps i) [(t.requests i).ident] :=
    (introduces_dispatch (t.requests i) hrequest.1 hrequest.2).append_silent
      (.silent ((silent_impl.append _).block _) (.silent rfl .nil))
  have hresponses : Introduces (t.responseSteps i) [(t.responses i).ident] :=
    (introduces_dispatch (t.responses i) hresponse.1 hresponse.2).append_silent
      (.silent ((silent_impl.append _).block _) (.silent rfl .nil))
  have hexceptions : Introduces (t.exceptionSteps i) [(t.exceptions i).ident] :=
    (introduces_dispatch (t.exceptions i) hexception.1 hexception.2).append_silent
      (.silent ((silent_impl.append _).block _) (.silent rfl
        (.silent ((hdisplay.append _).block _) (.silent rfl
          (.silent (((herror.append _).append _).append _).line .nil)))))
  exact (hrequests.append hresponses).append hexceptions

theorem introduces_interface (t : Target) (i : Interface) (folder : Folder) :
    Introduces (t.interfaceSteps i folder.children)
      (imports ++ constantNames i.constants ++
        (folder.files.flatMap fun x => [Folder.stemOf x, Folder.typeOf x]) ++
          t.dispatchIdents i) := by
  unfold Target.interfaceSteps
  rw [List.append_assoc, List.append_assoc, ← List.append_assoc (t.requestSteps i)]
  refine Introduces.append ?_ (introduces_dispatchEnums t i)
  refine .append_silent (.append_silent ?_ (.silent rfl .nil)) (introduces_numbers t i)
  exact ((introduces_codecHeader t i.name).append (introduces_constants i.constants)).append
    (introduces_children folder)

theorem introduces_module (m : Module) (folder : Folder) :
    Introduces (Target.moduleSteps m folder.children)
      (constantNames m.constants ++ m.modules.map (stem ·.name.name) ++
        (folder.files.flatMap fun x => [Folder.stemOf x, Folder.typeOf x]) ++
          m.interfaces.map (stem ·.name.name)) := by
  have hmodules : Introduces (m.modules.map fun child => moduleLine (snake child.name.name))
      (m.modules.map (stem ·.name.name)) := introduces_modules Module.name m.modules
  have hinterfaces : Introduces (m.interfaces.map fun i => moduleLine (snake i.name.name))
      (m.interfaces.map (stem ·.name.name)) := introduces_modules Interface.name m.interfaces
  have hblank : Introduces [.blank] [] := rfl
  have hconstants := (introduces_header m.name).append (introduces_constants m.constants)
  exact ((((hconstants.append hmodules).append_silent hblank).append
    (introduces_children folder)).append_silent hblank).append hinterfaces

theorem introduces_root (modules : List Module) :
    Introduces (Target.rootSteps modules) (modules.map (stem ·.name.name)) :=
  (introduces_header .root).append (introduces_modules Module.name modules)

end Indexes

end WireSchema.Source
