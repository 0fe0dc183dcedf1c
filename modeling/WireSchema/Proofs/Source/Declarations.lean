import WireSchema.Proofs.Source.Arms
import WireSchema.Proofs.Source.Lines

/-!
# What the files of a directory declare

The file of an interface declares its constants and the files of its messages, the file of a module
all that is in its directory. Both re-export the constants and the types of the files beside them.
They say nothing else after their headers, although an interface goes on with code.
-/
namespace WireSchema.Source

open Identifier Schema Text

variable {keyword : String}

theorem newline_notMem_snake (name : String) : '\n' ∉ (snake name).toList :=
  punctuation_notMem_snake ⟨by decide, by decide⟩ (by decide) (by decide) name

theorem newline_notMem_camel (name : String) : '\n' ∉ (camel name).toList :=
  punctuation_notMem_camel ⟨by decide, by decide⟩ (by decide) (by decide) name

theorem newline_notMem_toString (n : Nat) : '\n' ∉ (toString n).toList := by
  rw [show (toString n).toList = Nat.toDigits 10 n from Nat.toList_repr]
  intro h
  have hdigit := Nat.isDigit_of_mem_toDigits (by decide) (by decide) h
  exact absurd hdigit (by decide)

/-- A text has another character than a keyword at some place, and no line end. -/
def Apart (keyword start : String) (k : Nat) : Prop :=
  k < keyword.toList.length ∧ k < start.toList.length ∧
    start.toList[k]? ≠ keyword.toList[k]? ∧ '\n' ∉ start.toList

instance (keyword start : String) (k : Nat) : Decidable (Apart keyword start k) :=
  inferInstanceAs (Decidable (_ ∧ _))

section Overlooking

variable {α : Type} {read : List Char → Option α}

theorem readings_of_notMem {text : List Char} (h : '\n' ∉ text) :
    readings read text = (read text).toList := by
  rw [readings, splitWhere_of_notMem h]
  cases hread : read text <;> simp [hread]

/-- A reader finds nothing in lines that start with a text. -/
def Overlooks (read : List Char → Option α) (start : String) : Prop :=
  ∀ rest : String, '\n' ∉ rest.toList → readings read (start ++ rest).toList = []

/-- A line that starts otherwise is overlooked by a reader of what follows a keyword. -/
theorem Apart.overlooks {start : String} {k : Nat} (h : Apart keyword start k)
    (hread : ∀ line : List Char, line.dropPrefix? keyword.toList = none → read line = none) :
    Overlooks read start := by
  intro rest hrest
  obtain ⟨hk, hlength, hne, hstart⟩ := h
  have hnewline : '\n' ∉ (start ++ rest).toList := by
    rw [String.toList_append, List.mem_append, not_or]
    exact ⟨hstart, hrest⟩
  have hnone : read (start ++ rest).toList = none := by
    apply hread
    apply dropPrefix?_of_ne k hk
    rwa [String.toList_append, List.getElem?_append_left hlength]
  rw [readings_of_notMem hnewline, hnone]
  rfl

theorem Overlooks.block {start rest : String} {body : List Step} (h : Overlooks read start)
    (hrest : '\n' ∉ rest.toList) : (Step.block (start ++ rest) body).readings read = [] := by
  change readings read (start ++ rest ++ " \x7b").toList = []
  rw [String.append_assoc]
  apply h
  rw [String.toList_append, List.mem_append, not_or]
  exact ⟨hrest, by decide⟩

/-- A reader finds nothing in what enumerations are emitted as. -/
structure OverlooksEnums (read : List Char → Option α) : Prop where
  derive : Overlooks read "#[derive(Debug, Clone, PartialEq)]"
  enumeration : Overlooks read "pub enum "
  implementation : Overlooks read "impl "

end Overlooking

theorem Apart.statements_eq_nil {start rest : String} {k : Nat} (h : Apart keyword start k)
    (hrest : '\n' ∉ rest.toList) : readings (statement? keyword) (start ++ rest).toList = [] :=
  h.overlooks (fun _ => statement?_eq_none) rest hrest

theorem overlooksEnums_statement? (hkeyword : keyword ∈ itemKeywords) :
    OverlooksEnums (statement? keyword) := by
  have hapart : ∀ keyword ∈ itemKeywords, Apart keyword "#[derive(Debug, Clone, PartialEq)]" 0 ∧
      Apart keyword "pub enum " 4 ∧ Apart keyword "impl " 0 := by decide
  obtain ⟨hderive, henum, himpl⟩ := hapart keyword hkeyword
  exact ⟨hderive.overlooks fun _ => statement?_eq_none, henum.overlooks fun _ => statement?_eq_none,
    himpl.overlooks fun _ => statement?_eq_none⟩

/-- A line made of a keyword, a text and its end. -/
theorem statements_text {line s : String} (h : line = keyword ++ s ++ ";")
    (hnewline : '\n' ∉ line.toList) : readings (statement? keyword) line.toList = [s] := by
  rw [readings_of_notMem hnewline, statement?_text h]
  rfl

theorem moduleLine_eq (s : String) : moduleLine s = .line ("pub mod " ++ s ++ ";") := rfl

theorem useLine_eq (module type : String) :
    useLine module type = .line ("pub use " ++ (module ++ "::" ++ type) ++ ";") := by
  simp only [useLine, String.append_assoc]
  rfl

def Child.reexport (c : Child) : String := c.module ++ "::" ++ c.type

theorem statements_moduleLine {s : String} (h : '\n' ∉ s.toList) :
    (moduleLine s).readings (statement? "pub mod ") = [s] ∧
      (moduleLine s).readings (statement? "pub use ") = [] := by
  have hrest : '\n' ∉ (s ++ ";").toList := by
    rw [String.toList_append, List.mem_append, not_or]
    exact ⟨h, by decide⟩
  have hnewline : '\n' ∉ ("pub mod " ++ s ++ ";").toList := by
    rw [String.append_assoc, String.toList_append, List.mem_append, not_or]
    exact ⟨by decide, hrest⟩
  rw [moduleLine_eq]
  refine ⟨statements_text rfl hnewline, ?_⟩
  have hapart : Apart "pub use " "pub mod " 4 := by decide
  change readings (statement? "pub use ") ("pub mod " ++ s ++ ";").toList = []
  rw [String.append_assoc]
  exact hapart.statements_eq_nil hrest

theorem statements_useLine {module type : String} (hmodule : '\n' ∉ module.toList)
    (htype : '\n' ∉ type.toList) :
    (useLine module type).readings (statement? "pub mod ") = [] ∧
      (useLine module type).readings (statement? "pub use ") = [module ++ "::" ++ type] := by
  have hrest : '\n' ∉ (module ++ "::" ++ type ++ ";").toList := by
    simp only [String.toList_append, List.mem_append, not_or]
    exact ⟨⟨⟨hmodule, by decide⟩, htype⟩, by decide⟩
  have hnewline : '\n' ∉ ("pub use " ++ (module ++ "::" ++ type) ++ ";").toList := by
    rw [String.append_assoc, String.toList_append, List.mem_append, not_or]
    exact ⟨by decide, hrest⟩
  rw [useLine_eq]
  refine ⟨?_, statements_text rfl hnewline⟩
  have hapart : Apart "pub mod " "pub use " 4 := by decide
  change readings (statement? "pub mod ")
    ("pub use " ++ (module ++ "::" ++ type) ++ ";").toList = []
  rw [String.append_assoc]
  exact hapart.statements_eq_nil hrest

theorem statements_children {children : List Child}
    (h : ∀ c ∈ children, '\n' ∉ c.module.toList ∧ '\n' ∉ c.type.toList) :
    (children.flatMap Child.lines).flatMap (Step.readings (statement? "pub mod ")) =
        children.map (·.module) ∧
      (children.flatMap Child.lines).flatMap (Step.readings (statement? "pub use ")) =
        children.map Child.reexport := by
  induction children with
  | nil => exact ⟨rfl, rfl⟩
  | cons c children ih =>
    obtain ⟨hmodule, htype⟩ := h c List.mem_cons_self
    obtain ⟨hmodules, huses⟩ := ih fun other hother => h other (.tail _ hother)
    obtain ⟨hdeclares, hsilent⟩ := statements_moduleLine hmodule
    obtain ⟨hsilent', hexports⟩ := statements_useLine hmodule htype
    constructor
    · rw [List.flatMap_cons, List.flatMap_append, hmodules, Child.lines, List.flatMap_cons,
        List.flatMap_cons, hdeclares, hsilent']
      rfl
    · rw [List.flatMap_cons, List.flatMap_append, huses, Child.lines, List.flatMap_cons,
        List.flatMap_cons, hsilent, hexports]
      rfl

theorem statements_moduleLines {names : List String} (h : ∀ s ∈ names, '\n' ∉ s.toList) :
    (names.map moduleLine).flatMap (Step.readings (statement? "pub mod ")) = names ∧
      (names.map moduleLine).flatMap (Step.readings (statement? "pub use ")) = [] := by
  induction names with
  | nil => exact ⟨rfl, rfl⟩
  | cons s names ih =>
    obtain ⟨hdeclares, hsilent⟩ := statements_moduleLine (h s List.mem_cons_self)
    obtain ⟨hmodules, huses⟩ := ih fun other hother => h other (.tail _ hother)
    rw [List.map_cons, List.flatMap_cons, List.flatMap_cons, hdeclares, hsilent, hmodules, huses]
    exact ⟨rfl, rfl⟩

theorem areNested_iff {steps : List Step} :
    areNested steps = true ↔ ∀ s ∈ steps, s.isNested = true := by
  induction steps with
  | nil => simp [areNested]
  | cons s steps ih => simp [areNested, ih]

theorem areNested_lines {α : Type} (f : α → String) (items : List α) :
    areNested (items.map fun a => .line (f a)) = true := by
  rw [areNested_iff]
  intro s hs
  obtain ⟨a, -, rfl⟩ := List.mem_map.mp hs
  rfl

theorem areNested_moduleLines (names : List String) : areNested (names.map moduleLine) = true :=
  areNested_lines (fun s => s!"pub mod {s};") names

namespace DispatchEnum

variable {d : DispatchEnum} {t : Target}

theorem readings_declaration {α : Type} {read : List Char → Option α} (hread : OverlooksEnums read)
    (h : '\n' ∉ d.ident.toList) : d.declaration.flatMap (Step.readings read) = [] := by
  have hderive : (Step.line "#[derive(Debug, Clone, PartialEq)]").readings read = [] :=
    hread.derive "" (by decide)
  have henum : (Step.block s!"pub enum {d.ident}"
      (d.variants.map fun v => .line s!"{v.ident}({v.path}),")).readings read = [] :=
    hread.enumeration.block h
  rw [declaration, List.flatMap_cons, List.flatMap_cons, hderive, henum]
  rfl

theorem areNested_declaration : areNested d.declaration = true := by
  simp only [declaration, areNested, Step.isNested, areNested_lines, Bool.and_self]

theorem areNested_keyArms {content : Variant → String} :
    areNested (d.keyArms t content) = true := by
  rw [keyArms, areNested_append, areNested_lines]
  rfl

theorem isNested_cases {binding : String} {arm : Variant → String} :
    (d.cases binding arm).isNested = true := by
  unfold DispatchEnum.cases
  split_ifs
  · rfl
  · exact areNested_lines _ _

theorem areNested_functions {extra : List Step} (h : areNested extra = true) :
    areNested (d.functions t extra) = true := by
  simp only [functions, codec, create, decode, keyAccessor, areNested_append, areNested,
    Step.isNested, areNested_keyArms, isNested_cases, h, Bool.and_self]

end DispatchEnum

/-- The header of a file. Interfaces bring the wire functions into scope. -/
def Target.fileHeader (t : Target) (f : SourceFile) : List Step :=
  if f.kind = .interface then t.codecHeader f.name else header f.name

/-- The modules that a file declares after its header. -/
def Target.modulesIn (t : Target) (f : SourceFile) : List String :=
  statementsAfter "pub mod " (t.fileHeader f) f.text

/-- What a file re-exports after its header. -/
def Target.exportsIn (t : Target) (f : SourceFile) : List String :=
  statementsAfter "pub use " (t.fileHeader f) f.text

def constantNames (constants : List Constant) : List String :=
  if constants.isEmpty then [] else ["constants"]

def constantExports (constants : List Constant) : List String :=
  if constants.isEmpty then [] else ["constants::*"]

theorem statements_constants (constants : List Constant) :
    (if constants.isEmpty then [] else constantsModule).flatMap
        (Step.readings (statement? "pub mod ")) = constantNames constants ∧
      (if constants.isEmpty then [] else constantsModule).flatMap
        (Step.readings (statement? "pub use ")) = constantExports constants := by
  unfold constantNames constantExports
  split_ifs
  · exact ⟨rfl, rfl⟩
  · decide

theorem areNested_constants (constants : List Constant) :
    areNested (if constants.isEmpty then [] else constantsModule) = true := by
  split_ifs <;> rfl

theorem areNested_childLines (children : List Child) :
    areNested (children.flatMap Child.lines) = true := by
  rw [areNested_iff]
  intro s hs
  obtain ⟨child, -, hs⟩ := List.mem_flatMap.mp hs
  simp only [Child.lines, moduleLine, useLine, List.mem_cons, List.not_mem_nil, or_false] at hs
  rcases hs with rfl | rfl <;> rfl

variable {t : Target} {i : Interface}

theorem statements_numberSteps (hkeyword : keyword ∈ itemKeywords) :
    (t.numberSteps i).flatMap (Step.readings (statement? keyword)) = [] := by
  have hapart : ∀ keyword ∈ itemKeywords, Apart keyword "pub const INTERFACE_VERSION: u32 = " 4 ∧
      Apart keyword "pub const PROGRAM_NUMBER: u32 = " 4 := by decide
  have hversion : (Step.line s!"pub const INTERFACE_VERSION: u32 = {i.uid};").readings
      (statement? keyword) = [] := by
    change readings (statement? keyword)
      ("pub const INTERFACE_VERSION: u32 = " ++ toString i.uid.toNat ++ ";").toList = []
    rw [String.append_assoc]
    refine (hapart keyword hkeyword).1.statements_eq_nil ?_
    rw [String.toList_append, List.mem_append, not_or]
    exact ⟨newline_notMem_toString i.uid.toNat, by decide⟩
  have hprogram : (Step.line
      s!"pub const PROGRAM_NUMBER: u32 = {hexText (t.config.programNumber i.uid)};").readings
        (statement? keyword) = [] := by
    change readings (statement? keyword) ("pub const PROGRAM_NUMBER: u32 = " ++
      hexText (t.config.programNumber i.uid) ++ ";").toList = []
    rw [String.append_assoc]
    refine (hapart keyword hkeyword).2.statements_eq_nil ?_
    simp only [hexText, String.toList_append, String.toList_ofList, List.mem_append, not_or]
    exact ⟨⟨by decide, notMem_hexDigits (by decide) _⟩, by decide⟩
  have hfunctions : ∀ keyword ∈ itemKeywords,
      (Step.block "pub fn version() -> u32" [.line "INTERFACE_VERSION"]).readings
        (statement? keyword) = [] ∧
      (Step.block "pub fn program_number() -> u32" [.line "PROGRAM_NUMBER"]).readings
        (statement? keyword) = [] := by decide
  obtain ⟨hfirst, hsecond⟩ := hfunctions keyword hkeyword
  simp only [Target.numberSteps, List.flatMap_cons, List.flatMap_nil, hversion, hprogram, hfirst,
    hsecond]
  rfl

theorem areNested_pairing : areNested (t.pairing i) = true := by
  have harms : areNested ((t.requests i).variants.map (t.responseArm i)) = true := by
    rw [areNested_iff]
    intro s hs
    obtain ⟨v, -, rfl⟩ := List.mem_map.mp hs
    unfold Target.responseArm
    split_ifs <;> rfl
  have hmatch :
      (if (t.requests i).variants.isEmpty then Step.line "match *self \x7b\x7d"
        else .block "match self" ((t.requests i).variants.map (t.responseArm i))).isNested =
        true := by
    split_ifs
    · rfl
    · exact harms
  simp only [Target.pairing, areNested, Step.isNested, hmatch, Bool.and_self]

theorem newline_notMem_ident (name : String) {suffix : String} (h : '\n' ∉ suffix.toList) :
    '\n' ∉ (camel name ++ suffix).toList := by
  rw [String.toList_append, List.mem_append, not_or]
  exact ⟨newline_notMem_camel name, h⟩

section Enumerations

variable {α : Type} {read : List Char → Option α}

theorem readings_requestSteps (hread : OverlooksEnums read) :
    (t.requestSteps i).flatMap (Step.readings read) = [] := by
  have hident : '\n' ∉ (t.requests i).ident.toList := newline_notMem_ident _ (by decide)
  rw [Target.requestSteps, List.flatMap_append,
    DispatchEnum.readings_declaration hread hident, List.nil_append, List.flatMap_cons]
  exact congrArg (· ++ _) (hread.implementation.block hident)

theorem readings_responseSteps (hread : OverlooksEnums read) :
    (t.responseSteps i).flatMap (Step.readings read) = [] := by
  have hident : '\n' ∉ (t.responses i).ident.toList := newline_notMem_ident _ (by decide)
  rw [Target.responseSteps, List.flatMap_append,
    DispatchEnum.readings_declaration hread hident, List.nil_append, List.flatMap_cons]
  exact congrArg (· ++ _) (hread.implementation.block hident)

theorem readings_exceptionSteps (hread : OverlooksEnums read) :
    (t.exceptionSteps i).flatMap (Step.readings read) = [] := by
  have hident : '\n' ∉ (t.exceptions i).ident.toList := newline_notMem_ident _ (by decide)
  have himpl : ∀ body, (Step.block s!"impl {(t.exceptions i).ident}" body).readings read = [] :=
    fun body => hread.implementation.block hident
  have hdisplay : ∀ body, (Step.block s!"impl std::fmt::Display for {(t.exceptions i).ident}"
      body).readings read = [] := by
    intro body
    change readings read ("impl " ++ "std::fmt::Display for " ++ (t.exceptions i).ident ++
      " \x7b").toList = []
    rw [String.append_assoc, String.append_assoc]
    apply hread.implementation
    simp only [String.toList_append, List.mem_append, not_or]
    exact ⟨by decide, hident, by decide⟩
  have herror : (Step.line (s!"impl std::error::Error for {(t.exceptions i).ident} " ++
      "\x7b\x7d")).readings read = [] := by
    change readings read ("impl " ++ "std::error::Error for " ++ (t.exceptions i).ident ++ " " ++
      "\x7b\x7d").toList = []
    rw [String.append_assoc, String.append_assoc, String.append_assoc]
    apply hread.implementation
    simp only [String.toList_append, List.mem_append, not_or]
    exact ⟨by decide, hident, by decide, by decide⟩
  rw [Target.exceptionSteps, List.flatMap_append,
    DispatchEnum.readings_declaration hread hident, List.nil_append, List.flatMap_cons, himpl,
    List.flatMap_cons, List.flatMap_cons, hdisplay, List.flatMap_cons, List.flatMap_cons, herror]
  rfl

/-- After its header the file of an interface holds what it says about the files beside it and the
numbers of the interface, for a reader that overlooks the enumerations. -/
theorem readings_interfaceSteps (hitems : ReadsItems read) (hread : OverlooksEnums read)
    (children : List Child) :
    readingsAfter read (t.codecHeader i.name) (render (t.interfaceSteps i children)) =
      (if i.constants.isEmpty then [] else constantsModule).flatMap (Step.readings read) ++
        (children.flatMap Child.lines).flatMap (Step.readings read) ++
        (t.numberSteps i).flatMap (Step.readings read) := by
  have hnested : areNested ((if i.constants.isEmpty then [] else constantsModule) ++
      children.flatMap Child.lines ++ [.blank] ++ t.numberSteps i ++ t.requestSteps i ++
      t.responseSteps i ++ t.exceptionSteps i) = true := by
    have hplain : ∀ d : DispatchEnum, areNested (d.functions t []) = true :=
      fun d => DispatchEnum.areNested_functions rfl
    simp only [areNested_append, areNested_constants, areNested_childLines, Target.requestSteps,
      Target.responseSteps, Target.exceptionSteps, Target.numberSteps, areNested, Step.isNested,
      DispatchEnum.areNested_declaration, DispatchEnum.isNested_cases,
      DispatchEnum.areNested_functions areNested_pairing, hplain, Bool.and_self]
  have hsteps : t.interfaceSteps i children = t.codecHeader i.name ++
      ((if i.constants.isEmpty then [] else constantsModule) ++
        children.flatMap Child.lines ++ [.blank] ++ t.numberSteps i ++ t.requestSteps i ++
        t.responseSteps i ++ t.exceptionSteps i) := by
    simp only [Target.interfaceSteps, List.append_assoc]
  have hblank : [Step.blank].flatMap (Step.readings read) = [] := rfl
  rw [hsteps, readingsAfter_render hitems rfl hnested]
  simp only [List.flatMap_append, readings_requestSteps hread, readings_responseSteps hread,
    readings_exceptionSteps hread, hblank, List.append_nil]

end Enumerations

theorem statements_interfaceSteps (hkeyword : keyword ∈ itemKeywords) (children : List Child) :
    statementsAfter keyword (t.codecHeader i.name) (render (t.interfaceSteps i children)) =
      (if i.constants.isEmpty then [] else constantsModule).flatMap
          (Step.readings (statement? keyword)) ++
        (children.flatMap Child.lines).flatMap (Step.readings (statement? keyword)) := by
  refine (readings_interfaceSteps (readsItems_statement? hkeyword)
    (overlooksEnums_statement? hkeyword) children).trans ?_
  rw [statements_numberSteps hkeyword, List.append_nil]

/-- The file of an interface declares its constants and the files beside it, and it re-exports both.
-/
theorem saysIn_interface {children : List Child} {path : List String}
    (h : ∀ c ∈ children, '\n' ∉ c.module.toList ∧ '\n' ∉ c.type.toList) :
    t.modulesIn ⟨path, .interface, i.name, t.interfaceSteps i children⟩ =
        constantNames i.constants ++ children.map (·.module) ∧
      t.exportsIn ⟨path, .interface, i.name, t.interfaceSteps i children⟩ =
        constantExports i.constants ++ children.map Child.reexport := by
  obtain ⟨hmodules, huses⟩ := statements_children h
  obtain ⟨hconstants, hconstantUses⟩ := statements_constants i.constants
  constructor
  · change statementsAfter "pub mod " (t.codecHeader i.name)
      (render (t.interfaceSteps i children)) = _
    rw [statements_interfaceSteps (by decide), hmodules, hconstants]
  · change statementsAfter "pub use " (t.codecHeader i.name)
      (render (t.interfaceSteps i children)) = _
    rw [statements_interfaceSteps (by decide), huses, hconstantUses]

theorem statements_moduleSteps (hkeyword : keyword ∈ itemKeywords) {m : Module}
    (types : List Child) :
    statementsAfter keyword (header m.name) (render (Target.moduleSteps m types)) =
      (if m.constants.isEmpty then [] else constantsModule).flatMap
          (Step.readings (statement? keyword)) ++
        ((m.modules.map (snake ·.name.name)).map moduleLine).flatMap
          (Step.readings (statement? keyword)) ++
        (types.flatMap Child.lines).flatMap (Step.readings (statement? keyword)) ++
        ((m.interfaces.map (snake ·.name.name)).map moduleLine).flatMap
          (Step.readings (statement? keyword)) := by
  have hmodules : (m.modules.map fun child => moduleLine (snake child.name.name)) =
      (m.modules.map (snake ·.name.name)).map moduleLine := by
    rw [List.map_map]
    rfl
  have hinterfaces : (m.interfaces.map fun i => moduleLine (snake i.name.name)) =
      (m.interfaces.map (snake ·.name.name)).map moduleLine := by
    rw [List.map_map]
    rfl
  have hnested : areNested ((if m.constants.isEmpty then [] else constantsModule) ++
      (m.modules.map (snake ·.name.name)).map moduleLine ++ [.blank] ++
      types.flatMap Child.lines ++ [.blank] ++
      (m.interfaces.map (snake ·.name.name)).map moduleLine) = true := by
    simp only [areNested_append, areNested_constants, areNested_childLines, areNested_moduleLines,
      areNested, Step.isNested, Bool.and_self]
  have hsteps : Target.moduleSteps m types = header m.name ++
      ((if m.constants.isEmpty then [] else constantsModule) ++
        (m.modules.map (snake ·.name.name)).map moduleLine ++ [.blank] ++
        types.flatMap Child.lines ++ [.blank] ++
        (m.interfaces.map (snake ·.name.name)).map moduleLine) := by
    simp only [Target.moduleSteps, hmodules, hinterfaces, List.append_assoc]
  have hblank : [Step.blank].flatMap (Step.readings (statement? keyword)) = [] := rfl
  rw [hsteps, statementsAfter, readingsAfter_render (readsItems_statement? hkeyword) rfl hnested]
  simp only [List.flatMap_append, hblank, List.append_nil]

theorem newline_notMem_snakes {α : Type} (f : α → String) (items : List α) :
    ∀ s ∈ items.map fun a => snake (f a), '\n' ∉ s.toList := by
  intro s hs
  obtain ⟨a, -, rfl⟩ := List.mem_map.mp hs
  exact newline_notMem_snake (f a)

/-- The file of a module declares its constants, the modules in it, its types and its interfaces. It
re-exports its constants and its types. -/
theorem saysIn_module {m : Module} {types : List Child} {path : List String}
    (h : ∀ c ∈ types, '\n' ∉ c.module.toList ∧ '\n' ∉ c.type.toList) :
    t.modulesIn ⟨path, .module, m.name, Target.moduleSteps m types⟩ =
        constantNames m.constants ++ m.modules.map (snake ·.name.name) ++ types.map (·.module) ++
          m.interfaces.map (snake ·.name.name) ∧
      t.exportsIn ⟨path, .module, m.name, Target.moduleSteps m types⟩ =
        constantExports m.constants ++ types.map Child.reexport := by
  obtain ⟨htypes, huses⟩ := statements_children h
  obtain ⟨hconstants, hconstantUses⟩ := statements_constants m.constants
  obtain ⟨hmodules, hnone⟩ := statements_moduleLines (newline_notMem_snakes (·.name.name) m.modules)
  obtain ⟨hinterfaces, hnone'⟩ :=
    statements_moduleLines (newline_notMem_snakes (·.name.name) m.interfaces)
  constructor
  · change statementsAfter "pub mod " (header m.name) (render (Target.moduleSteps m types)) = _
    rw [statements_moduleSteps (by decide), hconstants, hmodules, htypes, hinterfaces]
  · change statementsAfter "pub use " (header m.name) (render (Target.moduleSteps m types)) = _
    rw [statements_moduleSteps (by decide), hconstantUses, hnone, huses, hnone', List.append_nil,
      List.append_nil]

theorem modulesIn_root {modules : List Module} {path : List String} :
    t.modulesIn ⟨path, .module, .root, Target.rootSteps modules⟩ =
      modules.map (snake ·.name.name) := by
  have hlines : (modules.map fun m => moduleLine (snake m.name.name)) =
      (modules.map (snake ·.name.name)).map moduleLine := by
    rw [List.map_map]
    rfl
  change statementsAfter "pub mod " (header .root) (render (Target.rootSteps modules)) = _
  rw [Target.rootSteps, hlines, statementsAfter,
    readingsAfter_render (readsItems_statement? (by decide)) rfl (areNested_moduleLines _)]
  exact (statements_moduleLines (newline_notMem_snakes (·.name.name) modules)).1

end WireSchema.Source
