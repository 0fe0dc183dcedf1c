import WireSchema.Proofs.Schema.Acceptance
import WireSchema.Proofs.Schema.Waiting
import WireSchema.Proofs.Source.Closure
import WireSchema.Proofs.Text.Literal

/-!
# Program numbers

The file of an interface gives the number of its program, which is read off the text of the file.
It is the sum of the base program and the number of the interface as a word, so that it wraps around
where the sum is too large, and still no two interfaces of a document have the same one.
-/
namespace WireSchema

open Command Identifier Schema

namespace Source

/-- What stands in front of the digits of a program number. -/
def programMark : String := "pub const PROGRAM_NUMBER: u32 = 0x"

def programNumber? (line : List Char) : Option Nat :=
  (between? programMark ";" line).bind (digits? 16)

def Target.programNumbersIn (t : Target) (f : SourceFile) : List Nat :=
  readingsAfter programNumber? (t.fileHeader f) f.text

theorem programNumber?_eq_none {line : List Char} (h : line.dropPrefix? programMark.toList = none) :
    programNumber? line = none := by
  rw [programNumber?, between?_eq_none h, Option.bind_none]

theorem readsItems_programNumber? : ReadsItems programNumber? := by
  intro line h
  apply programNumber?_eq_none
  exact dropPrefix?_of_ne 0 (by decide) h

theorem overlooks_programNumber? {start : String} {k : Nat} (h : Apart programMark start k) :
    Overlooks programNumber? start :=
  h.overlooks fun _ => programNumber?_eq_none

theorem overlooksEnums_programNumber? : OverlooksEnums programNumber? where
  derive := overlooks_programNumber? (k := 0) (by decide)
  enumeration := overlooks_programNumber? (k := 4) (by decide)
  implementation := overlooks_programNumber? (k := 0) (by decide)

variable {t : Target} {i : Interface}

theorem readings_programLine (n : UInt32) :
    readings programNumber? ("pub const PROGRAM_NUMBER: u32 = " ++ hexText n ++ ";").toList =
      [n.toNat] := by
  have hmark : programMark.toList = "pub const PROGRAM_NUMBER: u32 = ".toList ++ "0x".toList := by
    decide
  have htext : ("pub const PROGRAM_NUMBER: u32 = " ++ hexText n ++ ";").toList =
      programMark.toList ++ (Nat.toDigits 16 n.toNat ++ ";".toList) := by
    simp only [hmark, hexText, String.toList_append, String.toList_ofList, List.append_assoc]
  have hnewline : '\n' ∉ programMark.toList ++ (Nat.toDigits 16 n.toNat ++ ";".toList) := by
    simp only [List.mem_append, not_or]
    exact ⟨by decide, notMem_hexDigits (by decide) _, by decide⟩
  have hread : programNumber? (programMark.toList ++ (Nat.toDigits 16 n.toNat ++ ";".toList)) =
      some n.toNat := by
    rw [programNumber?, between?_append, Option.bind_some,
      digits?_toDigits (by decide) (by decide)]
  rw [htext, readings_of_notMem hnewline, hread]
  rfl

theorem readings_numberSteps :
    (t.numberSteps i).flatMap (Step.readings programNumber?) =
      [(t.config.programNumber i.uid).toNat] := by
  have hversion : (Step.line s!"pub const INTERFACE_VERSION: u32 = {i.uid};").readings
      programNumber? = [] := by
    change readings programNumber? ("pub const INTERFACE_VERSION: u32 = " ++
      toString i.uid.toNat ++ ";").toList = []
    rw [String.append_assoc]
    apply overlooks_programNumber? (k := 10) (by decide)
    rw [String.toList_append, List.mem_append, not_or]
    exact ⟨newline_notMem_toString i.uid.toNat, by decide⟩
  have hprogram : (Step.line
      s!"pub const PROGRAM_NUMBER: u32 = {hexText (t.config.programNumber i.uid)};").readings
        programNumber? = [(t.config.programNumber i.uid).toNat] :=
    readings_programLine (t.config.programNumber i.uid)
  have hblank : Step.blank.readings programNumber? = [] := rfl
  have hfunctions :
      (Step.block "pub fn version() -> u32" [.line "INTERFACE_VERSION"]).readings programNumber? =
        [] ∧
      (Step.block "pub fn program_number() -> u32" [.line "PROGRAM_NUMBER"]).readings
        programNumber? = [] := by decide
  simp only [Target.numberSteps, List.flatMap_cons, List.flatMap_nil, hversion, hprogram, hblank,
    hfunctions, List.nil_append, List.append_nil]

theorem readings_childLines {children : List Child}
    (h : ∀ c ∈ children, '\n' ∉ c.module.toList ∧ '\n' ∉ c.type.toList) :
    (children.flatMap Child.lines).flatMap (Step.readings programNumber?) = [] := by
  rw [List.flatMap_eq_nil_iff]
  intro s hs
  obtain ⟨c, hc, hs⟩ := List.mem_flatMap.mp hs
  obtain ⟨hmodule, htype⟩ := h c hc
  simp only [Child.lines, List.mem_cons, List.not_mem_nil, or_false] at hs
  rcases hs with rfl | rfl
  · rw [moduleLine_eq, String.append_assoc]
    apply overlooks_programNumber? (k := 4) (by decide)
    simpa [String.toList_append] using hmodule
  · rw [useLine_eq, String.append_assoc]
    apply overlooks_programNumber? (k := 4) (by decide)
    simp only [String.toList_append, List.mem_append, not_or]
    exact ⟨⟨⟨hmodule, by decide⟩, htype⟩, by decide⟩

theorem programNumbersIn_interface {children : List Child} {path : List String}
    (h : ∀ c ∈ children, '\n' ∉ c.module.toList ∧ '\n' ∉ c.type.toList) :
    t.programNumbersIn ⟨path, .interface, i.name, t.interfaceSteps i children⟩ =
      [(t.config.programNumber i.uid).toNat] := by
  change readingsAfter programNumber? (t.codecHeader i.name)
    (render (t.interfaceSteps i children)) = _
  have hconstants : (if i.constants.isEmpty then [] else constantsModule).flatMap
      (Step.readings programNumber?) = [] := by
    split_ifs
    · rfl
    · decide
  rw [readings_interfaceSteps readsItems_programNumber? overlooksEnums_programNumber?, hconstants,
    readings_childLines h, readings_numberSteps]
  rfl

/-- The program number of an interface: a word, which wraps around. -/
def programOf (config : Config) (decl : Document.NamedInterface) : Nat :=
  (config.baseProgram.toNat + decl.decl.uid.toInt.toNat) % 2 ^ 32

/-- The file of an interface, which gives the program number of the interface and no other. -/
structure GivesProgram (t : Target) (decl : Document.NamedInterface) (f : SourceFile) : Prop where
  kind_eq : f.kind = .interface
  name_eq : f.name = decl.name
  numbers_eq : t.programNumbersIn f = [programOf t.config decl]

theorem programOf_eq {decl : Document.NamedInterface} (config : Config)
    (h : Interface.Realizes decl i) :
    programOf config decl = (config.programNumber i.uid).toNat := by
  have huid := h.numbers.eq
  rw [programOf, Config.programNumber, UInt32.toNat_add, ← huid, Int.toNat_natCast]

theorem givesProgram_of_interfaceFiles {decl : Document.NamedInterface} {own : List SourceFile}
    (hrealizes : Interface.Realizes decl i) (h : t.interfaceFiles i = .ok own) :
    (∃ f ∈ own, GivesProgram t decl f) ∧
      ∀ f ∈ own, f.kind = .interface → GivesProgram t decl f := by
  obtain ⟨added, constants, folder, hemits⟩ := Target.emitsInterface h
  have hindex : GivesProgram t decl ⟨directory i.name ++ [indexFile], .interface, i.name,
      t.interfaceSteps i folder.children⟩ := by
    refine ⟨rfl, hrealizes.name_eq, ?_⟩
    rw [programNumbersIn_interface (newline_notMem_children folder), programOf_eq _ hrealizes]
  rw [hemits.files_eq]
  refine ⟨⟨_, by simp, hindex⟩, ?_⟩
  intro f hf hkind
  simp only [List.mem_append, List.mem_singleton] at hf
  rcases hf with (hf | hf) | rfl
  · exact absurd hkind (hemits.grows.kind_ne f hf).1
  · exact absurd hkind (hemits.constants.kind_ne f hf)
  · exact hindex

/-- Adding words is injective, so numbers that differ stay different when they wrap around. -/
theorem programs_nodup {doc : Document} {s : Schema} (config : Config) (h : build doc = .ok s) :
    (doc.interfaces.map (programOf config)).Nodup := by
  obtain ⟨hbuilt, hnodup⟩ := interfaces_of_build h
  have hmap : doc.interfaces.map (programOf config) =
      (s.interfaces.map (·.uid)).map fun uid => (config.programNumber uid).toNat := by
    rw [List.map_map, ← List.forall₂_eq_eq_eq, List.forall₂_map_left_iff,
      List.forall₂_map_right_iff]
    exact hbuilt.imp fun decl i hi => programOf_eq config hi.toRealizes
  rw [hmap]
  refine hnodup.map fun a b hab => ?_
  exact (UInt32.add_right_inj config.baseProgram).mp (UInt32.toNat.inj hab)

/-- The files of interfaces are those that give the program numbers of the document. -/
structure NumbersPrograms (t : Target) (doc : Document) (files : List SourceFile) : Prop where
  complete : ∀ decl ∈ doc.interfaces, ∃ f ∈ files, GivesProgram t decl f
  sound : ∀ f ∈ files, f.kind = .interface → ∃ decl ∈ doc.interfaces, GivesProgram t decl f

theorem numbersPrograms {config : Config} {doc : Document} {files : List SourceFile}
    (h : compile config doc = .ok files) :
    ∃ s, build doc = .ok s ∧ NumbersPrograms ⟨s, config⟩ doc files := by
  obtain ⟨s, taken, parts, hs, hmodules, rfl⟩ := exists_schema_of_compile h
  have hcovers := Target.coversInterfaces_modules s.modules parts hmodules.parts
  have hbuilt := (interfaces_of_build hs).1
  refine ⟨s, hs, ?_, ?_⟩
  · intro decl hdecl
    obtain ⟨i, hi, hrealizes⟩ := exists_of_mem_left hbuilt hdecl
    obtain ⟨own, hown, hsub⟩ := hcovers.complete i hi
    obtain ⟨⟨f, hf, hgives⟩, -⟩ := givesProgram_of_interfaceFiles hrealizes.toRealizes hown
    exact ⟨f, List.mem_append_left _ (hsub hf), hgives⟩
  · intro f hf hkind
    rcases List.mem_append.mp hf with hf | hf
    · obtain ⟨i, hi, own, hown, hfown⟩ := hcovers.sound f hf hkind
      obtain ⟨decl, hdecl, hrealizes⟩ := exists_of_mem_right hbuilt hi
      exact ⟨decl, hdecl,
        (givesProgram_of_interfaceFiles hrealizes.toRealizes hown).2 f hfown hkind⟩
    · obtain rfl := List.mem_singleton.mp hf
      cases hkind

/-- Whatever compiles numbers its programs: every interface of the document has a file that gives
the sum of the base program and the number of the interface as a word, no other file stands for an
interface, and no two interfaces of the document have the same program number. -/
theorem compile_numbers_programs (config : Config) (doc : Document) (files : List SourceFile)
    (h : compile config doc = .ok files) :
    (∃ s, build doc = .ok s ∧ NumbersPrograms ⟨s, config⟩ doc files) ∧
      (doc.interfaces.map (programOf config)).Nodup := by
  obtain ⟨s, hs, hnumbers⟩ := numbersPrograms h
  exact ⟨⟨s, hs, hnumbers⟩, programs_nodup config hs⟩

/-- Two interfaces under the greatest base program there is. -/
def lamps : Document where
  modules := [{
    name := "lamps"
    modules := []
    types := []
    interfaces := [⟨"Dim", 1, [], [], []⟩, ⟨"Blink", 4294967295, [], [], []⟩]
    constants := [] }]

def highest : Config := { baseProgram := 4294967295 }

def dim : Document.NamedInterface := ⟨⟨["lamps", "Dim"]⟩, ⟨"Dim", 1, [], [], []⟩⟩

def blink : Document.NamedInterface := ⟨⟨["lamps", "Blink"]⟩, ⟨"Blink", 4294967295, [], [], []⟩⟩

theorem interfaces_lamps : lamps.interfaces = [dim, blink] := rfl

theorem exists_files_lamps : ∃ files, compile highest lamps = .ok files :=
  Target.exists_eq_ok (by decide +kernel)

theorem compile_numbers_programs_lamps :
    ∃ files s, compile highest lamps = .ok files ∧ build lamps = .ok s ∧
      ∃ f ∈ files, f.name = blink.name ∧
        Target.programNumbersIn ⟨s, highest⟩ f = [4294967294] := by
  obtain ⟨files, hfiles⟩ := exists_files_lamps
  obtain ⟨⟨s, hs, hnumbers⟩, -⟩ := compile_numbers_programs highest lamps files hfiles
  obtain ⟨f, hf, hgives⟩ := hnumbers.complete blink (by simp [interfaces_lamps])
  have hprogram : programOf highest blink = 4294967294 := by decide +kernel
  exact ⟨files, s, hfiles, hs, f, hf, hgives.name_eq, hprogram ▸ hgives.numbers_eq⟩

/-- The program number is not always the sum, which is `4294967296` here. -/
theorem program_number_wraps_lamps :
    ∃ files s, compile highest lamps = .ok files ∧ build lamps = .ok s ∧ dim ∈ lamps.interfaces ∧
      (∃ f ∈ files, f.kind = .interface ∧ f.name = dim.name ∧
        Target.programNumbersIn ⟨s, highest⟩ f = [0]) ∧
      highest.baseProgram.toNat + dim.decl.uid.toInt = 4294967296 := by
  obtain ⟨files, hfiles⟩ := exists_files_lamps
  obtain ⟨s, hs, hnumbers⟩ := numbersPrograms hfiles
  have hdim : dim ∈ lamps.interfaces := by simp [interfaces_lamps]
  obtain ⟨f, hf, hgives⟩ := hnumbers.complete dim hdim
  have hprogram : programOf highest dim = 0 := by decide +kernel
  exact ⟨files, s, hfiles, hs, hdim,
    ⟨f, hf, hgives.kind_eq, hgives.name_eq, hprogram ▸ hgives.numbers_eq⟩, by decide +kernel⟩

end Source
end WireSchema
