import WireSchema.Proofs.Binary.Literal
import WireSchema.Proofs.Schema.Acceptance
import WireSchema.Proofs.Schema.Listing
import WireSchema.Proofs.Source.Emission
import WireSchema.Proofs.Value.Number

/-!
# Emitted constants

Whatever literal a schema accepts as a constant has a written form in the type that is emitted for
it. An integer is written as it is and lies in the range of that type, and a constant of a
floating-point type is never written as an integer. So the only thing that can go wrong with the
constants of a scope is that two of them are spelt the same.
-/
namespace WireSchema

open Binary

theorem Numeric.ofKeyword?_keyword (n : Numeric) : Numeric.ofKeyword? n.keyword = some n := by
  cases n <;> rfl

theorem Numeric.exists_range (n : Numeric) (h : n.isFloat = false) :
    ∃ low high, n.range? = some (low, high) := by
  cases n with
  | float32 | float64 => cases h
  | _ => exact ⟨_, _, rfl⟩

/-- The double that a literal stands for where a floating-point number is wanted. -/
def Literal.double? : Literal → Option Binary64
  | .integer v => some (.ofInt v.toInt)
  | .natural v => some (.ofInt v.toNat)
  | .float x => some x
  | _ => none

namespace Schema

open Document (Clause Reference)

variable (look : Reference → TypeId) (names : List (String × Declared))

def Assembled (clauses : List Clause) (scope : QualifiedName) (constants : List Constant) : Prop :=
  ∃ decls, .constants scope decls ∈ clauses ∧ constants = decls.map (Constant.placed look scope)

variable {look} in
theorem Assembled.mono {clauses clauses' : List Clause} {scope : QualifiedName}
    {constants : List Constant} (h : Assembled look clauses scope constants)
    (hsub : clauses ⊆ clauses') : Assembled look clauses' scope constants := by
  obtain ⟨decls, hmem, hconstants⟩ := h
  exact ⟨decls, hsub hmem, hconstants⟩

theorem assembled_interface (name : QualifiedName) (i : Document.Interface) :
    Assembled look (i.clauses name) (Interface.placed look names name i).name
      (Interface.placed look names name i).constants :=
  ⟨i.constants, by simp [Interface.placed, Document.Interface.clauses], rfl⟩

mutual

theorem assembled_module (name : QualifiedName) (decl : Document.Module) :
    (∀ m ∈ (Module.placed look names name decl).allModules,
      Assembled look (decl.clauses name) m.name m.constants) ∧
    ∀ i ∈ (Module.placed look names name decl).allInterfaces,
      Assembled look (decl.clauses name) i.name i.constants := by
  obtain ⟨own, modules, types, interfaces, constants⟩ := decl
  obtain ⟨hmodules, hinterfaces⟩ := assembled_modules name modules
  rw [Module.placed, Module.allModules, Module.allInterfaces, Document.Module.clauses]
  refine ⟨List.forall_mem_cons.mpr ⟨⟨constants, by simp, rfl⟩, fun m hm => ?_⟩, fun i hi => ?_⟩
  · exact (hmodules m hm).mono (List.subset_append_right _ _)
  · rcases List.mem_append.mp hi with hi | hi
    · obtain ⟨i, hown, rfl⟩ := List.mem_map.mp hi
      refine (assembled_interface look names _ i).mono ?_
      intro c hc
      exact List.mem_append_left _ (List.mem_cons_of_mem _ (List.mem_flatMap.mpr ⟨i, hown, hc⟩))
    · exact (hinterfaces i hi).mono (List.subset_append_right _ _)

theorem assembled_modules (scope : QualifiedName) (decls : List Document.Module) :
    (∀ m ∈ modulesOf (placedModules look names scope decls),
      Assembled look (Document.clausesOf scope decls) m.name m.constants) ∧
    ∀ i ∈ interfacesOf (placedModules look names scope decls),
      Assembled look (Document.clausesOf scope decls) i.name i.constants := by
  match decls with
  | [] => exact ⟨List.forall_mem_nil _, List.forall_mem_nil _⟩
  | decl :: decls =>
    obtain ⟨hmodule, hinterface⟩ := assembled_module (scope.child decl.name) decl
    obtain ⟨hmodules, hinterfaces⟩ := assembled_modules scope decls
    rw [placedModules, modulesOf, interfacesOf, Document.clausesOf]
    refine ⟨fun m hm => ?_, fun i hi => ?_⟩
    · rcases List.mem_append.mp hm with hm | hm
      · exact (hmodule m hm).mono (List.subset_append_left _ _)
      · exact (hmodules m hm).mono (List.subset_append_right _ _)
    · rcases List.mem_append.mp hi with hi | hi
      · exact (hinterface i hi).mono (List.subset_append_left _ _)
      · exact (hinterfaces i hi).mono (List.subset_append_right _ _)

end

/-- A constant is the one of a declaration, in the primitive type that the declaration refers to,
directly or by aliases. -/
structure RealizesConstant (names : List (String × Declared)) (s : Schema) (scope : QualifiedName)
    (decl : Document.Constant) (c : Constant) : Prop where
  name_eq : c.name = scope.child decl.name
  value_eq : c.value = decl.value
  type_gives : Gives names ⟨scope, decl.type⟩ (.primitive (s.type c.type))
  admitted : constantFault? (s.type c.type) c.value = none

def RealizesConstants (names : List (String × Declared)) (doc : Document) (s : Schema)
    (scope : QualifiedName) (constants : List Constant) : Prop :=
  ∃ decls, .constants scope decls ∈ doc.clauses ∧
    List.Forall₂ (s.RealizesConstant names scope) decls constants

variable {look names} {doc : Document} {declared last : Draft} {modules : List Module} {s : Schema}
  {scope : QualifiedName} {constants : List Constant}

theorem RealizesConstants.admitted (h : s.RealizesConstants names doc scope constants) :
    ∀ c ∈ constants, constantFault? (s.type c.type) c.value = none := by
  obtain ⟨decls, -, hall⟩ := h
  intro c hc
  obtain ⟨decl, -, hdecl⟩ := exists_of_mem_right hall hc
  exact hdecl.admitted

theorem Completes.realizesConstant (h : Completes doc declared last modules)
    (htypes : s.types = last.types) (hlook : last.Fits look) {decls : List Document.Constant}
    (hclause : .constants scope decls ∈ doc.clauses) {decl : Document.Constant}
    (hdecl : decl ∈ decls) :
    s.RealizesConstant declared.names scope decl (Constant.placed look scope decl) := by
  have hreference : (⟨scope, decl.type⟩ : Reference) ∈ doc.references :=
    List.mem_append_right _ (List.mem_flatMap.mpr ⟨_, hclause, List.mem_map_of_mem hdecl⟩)
  obtain ⟨id, den, hgives, hholds⟩ := h.placed _ hreference
  have hid : look ⟨scope, decl.type⟩ = id := hlook _ _ ⟨den, hgives, hholds⟩
  rw [h.names_eq] at hgives
  have hadmits := (h.proper.clauses _ hclause).2 decl hdecl den hgives
  cases den with
  | declared place => exact hadmits.elim
  | primitive type =>
    have htype : s.type (look ⟨scope, decl.type⟩) = type := by
      rw [hid, Schema.type, htypes, Array.getD_eq_getD_getElem?,
        show last.types[id.index]? = some type from hholds, Option.getD_some]
    exact ⟨rfl, rfl, htype.symm ▸ hgives, htype.symm ▸ hadmits⟩

theorem Completes.realizesConstants (h : Completes doc declared last modules)
    (htypes : s.types = last.types) (hlook : last.Fits look)
    (hassembled : Assembled look doc.clauses scope constants) :
    s.RealizesConstants declared.names doc scope constants := by
  obtain ⟨decls, hclause, rfl⟩ := hassembled
  refine ⟨decls, hclause, List.forall₂_map_right_iff.mpr (List.forall₂_same.mpr ?_)⟩
  exact fun decl hdecl => h.realizesConstant htypes hlook hclause hdecl

/-- Every constant of a schema is one of its document, and the type it has admits its literal. -/
theorem realizesConstants_of_build (h : build doc = .ok s) :
    ∃ declared, declareModules .root doc.modules {} = .ok ((), declared) ∧
      (∀ m ∈ modulesOf s.modules, s.RealizesConstants declared.names doc m.name m.constants) ∧
      ∀ i ∈ s.interfaces, s.RealizesConstants declared.names doc i.name i.constants := by
  obtain ⟨declared, last, hcompletes, htypes⟩ := completes_of_build h
  obtain ⟨look, hlook⟩ := hcompletes.ready.sound.exists_fits
  obtain ⟨hmodules, hinterfaces⟩ := assembled_modules look declared.names .root doc.modules
  unfold interfaces
  rw [hcompletes.modules_eq look hlook]
  exact ⟨declared, hcompletes.declares,
    fun m hm => hcompletes.realizesConstants htypes hlook (hmodules m hm),
    fun i hi => hcompletes.realizesConstants htypes hlook (hinterfaces i hi)⟩

end Schema

namespace Source

open Identifier Schema

/-- A literal of a schema type is written in an emitted type. -/
inductive Renders : TypeDef → Literal → String → String → Prop
  | bool {b : Bool} : Renders .bool (.bool b) "bool" (if b then "true" else "false")
  | text {wide : Bool} {t text : String} (hread : Text.unquote? text.toList = some t) :
    Renders (.text wide) (.text t) "&str" text
  | integer {n : Numeric} {value : Literal} {type text : String} {v low high : Int}
    (htype : Numeric.ofKeyword? type = some n) (hinteger : n.isFloat = false)
    (hvalue : value.integer? = some v)
    (htext : text = toString v) (hread : Text.integer? text.toList = some v)
    (hrange : n.range? = some (low, high)) (hlow : low ≤ v) (hhigh : v ≤ high) :
    Renders (.numeric n) value type text
  | float {n : Numeric} {value : Literal} {type text : String} {x : Binary64}
    (htype : Numeric.ofKeyword? type = some n) (hfloat : n.isFloat = true)
    (hvalue : value.double? = some x) (htext : text = literalLayout.text x)
    (hliteral : Text.IsFloatLiteral text.toList) (hinteger : Text.integer? text.toList = none) :
    Renders (.numeric n) value type text

theorem natAbs_toInt_lt (v : Int64) : v.toInt.natAbs < 2 ^ 64 := by
  have hlow := Int64.le_toInt v
  have hhigh := Int64.toInt_lt v
  omega

theorem exists_double {n : Numeric} {value : Literal} (hfloat : n.isFloat = true)
    (h : constantFault? (.numeric n) value = none) :
    ∃ x, value.double? = some x ∧ x.isFinite ∧
      Strategy.constantText? (.numeric n) value = some (literalLayout.text x) := by
  cases value with
  | integer v =>
    refine ⟨_, rfl, isFinite_ofInt (natAbs_toInt_lt v), ?_⟩
    simp [Strategy.constantText?, hfloat]
  | natural v =>
    refine ⟨_, rfl, isFinite_ofInt (by simpa using v.toNat_lt), ?_⟩
    simp [Strategy.constantText?, hfloat]
  | float x =>
    refine ⟨x, rfl, ?_, by simp [Strategy.constantText?, hfloat]⟩
    cases hfinite : x.isFinite with
    | true => rfl
    | false => simp [constantFault?, Literal.integer?, hfloat, hfinite] at h
  | bool | text => simp [constantFault?, Literal.integer?] at h

example : Strategy.constantText? (.numeric .float64) (.integer 2) = some "2.0" := by
  decide +kernel

theorem exists_integer {n : Numeric} {value : Literal} (hfloat : n.isFloat = false)
    (h : constantFault? (.numeric n) value = none) :
    ∃ v, value.integer? = some v ∧ n.holds v ∧
      Strategy.constantText? (.numeric n) value = some (toString v) := by
  cases value with
  | integer v =>
    refine ⟨_, rfl, ?_, by simp [Strategy.constantText?, hfloat]⟩
    by_contra hholds
    simp [constantFault?, Literal.integer?, hfloat, hholds] at h
  | natural v =>
    refine ⟨_, rfl, ?_, by simp [Strategy.constantText?, hfloat]; rfl⟩
    by_contra hholds
    simp [constantFault?, Literal.integer?, hfloat, hholds] at h
  | float x => simp [constantFault?, Literal.integer?, hfloat] at h
  | bool | text => simp [constantFault?, Literal.integer?] at h

namespace Target

variable {t : Target} {c : Constant}

/-- A constant has a strategy with a type and a literal for it. -/
structure RendersConstant (t : Target) (c : Constant) (strategy : Strategy) (type text : String) :
    Prop where
  strategy_eq : t.strategy c.type = .ok strategy
  type_eq : strategy.constantType? = some type
  text_eq : strategy.constantText? c.value = some text
  renders : Renders (t.schema.type c.type) c.value type text

theorem exists_rendersConstant
    (h : constantFault? (t.schema.type c.type) c.value = none) :
    ∃ strategy type text, t.RendersConstant c strategy type text := by
  cases htype : t.schema.type c.type with
  | bool =>
    rw [htype] at h
    cases hvalue : c.value with
    | bool b =>
      refine ⟨.bool, "bool", if b then "true" else "false", ?_, rfl, by rw [hvalue]; rfl, ?_⟩
      · rw [strategy, htype]
      · rw [htype, hvalue]
        exact .bool
    | _ => simp [hvalue, constantFault?] at h
  | text wide =>
    rw [htype] at h
    cases hvalue : c.value with
    | text s =>
      refine ⟨.text, "&str", Text.quoted s, ?_, rfl, by rw [hvalue]; rfl, ?_⟩
      · rw [strategy, htype]
      · rw [htype, hvalue]
        exact .text (Text.unquote?_quoted s)
    | _ => simp [hvalue, constantFault?] at h
  | numeric n =>
    rw [htype] at h
    cases hfloat : n.isFloat with
    | true =>
      obtain ⟨x, hx, hfinite, htext⟩ := exists_double hfloat h
      have hliteral := isFloatLiteral_text hfinite
      refine ⟨.numeric n, n.keyword, _, by rw [strategy, htype], rfl, htext, ?_⟩
      rw [htype]
      exact .float n.ofKeyword?_keyword hfloat hx rfl hliteral hliteral.integer?_eq_none
    | false =>
      obtain ⟨v, hv, hholds, htext⟩ := exists_integer hfloat h
      refine ⟨.numeric n, n.keyword, _, by rw [strategy, htype], rfl, htext, ?_⟩
      obtain ⟨low, high, hrange⟩ := n.exists_range hfloat
      obtain ⟨hlow, hhigh⟩ := (Numeric.holds_iff hrange).mp hholds
      rw [htype]
      exact .integer n.ofKeyword?_keyword hfloat hv rfl (Text.integer?_toString v) hrange hlow hhigh
  | _ => simp [htype, constantFault?] at h

def Declares (t : Target) (c : Constant) (step : Step) : Prop :=
  ∃ strategy type text, t.RendersConstant c strategy type text ∧
    step = .line s!"pub const {shouty c.name.name}: {type} = {text};"

theorem exists_constantStep {strategy : Strategy} {type text : String}
    (h : t.RendersConstant c strategy type text) :
    ∃ step, t.constantStep c = .ok step ∧ t.Declares c step := by
  refine ⟨_, ?_, strategy, type, text, h, rfl⟩
  unfold constantStep
  simp only [h.strategy_eq, bind, Except.bind, h.type_eq, h.text_eq, pure, Except.pure]

/-- Constants that can be written are declared in their order, unless two are spelt the same. -/
theorem constantLines_cases {constants : List Constant}
    (h : ∀ c ∈ constants, ∃ strategy type text, t.RendersConstant c strategy type text)
    (taken : Namespace) :
    (Distinct taken.taken (constants.map (shouty ·.name.name)) ∧
      ∃ steps, t.constantLines taken constants = .ok steps ∧
        List.Forall₂ t.Declares constants steps) ∨
    (¬ Distinct taken.taken (constants.map (shouty ·.name.name)) ∧
      ∃ c ∈ constants, t.constantLines taken constants =
        .error (.duplicateName taken.scope.text c.name.name)) := by
  induction constants generalizing taken with
  | nil => exact .inl ⟨⟨List.nodup_nil, List.forall_mem_nil _⟩, [], rfl, .nil⟩
  | cons c constants ih =>
    obtain ⟨strategy, type, text, hc⟩ := h c List.mem_cons_self
    obtain ⟨step, hstep, hdeclares⟩ := exists_constantStep hc
    rw [List.map_cons, distinct_cons]
    by_cases hspelt : shouty c.name.name ∈ taken.taken
    · refine .inr ⟨fun h => h.1 hspelt, c, List.mem_cons_self, ?_⟩
      unfold constantLines
      rw [Namespace.claim, if_pos hspelt]
      rfl
    · have hnext : t.constantLines taken (c :: constants) =
          (t.constantLines ⟨taken.scope, shouty c.name.name :: taken.taken⟩ constants).map
            (step :: ·) := by
        rw [constantLines, Namespace.claim, if_neg hspelt, hstep]
        rfl
      rw [hnext]
      rcases ih (fun c hc => h c (List.mem_cons_of_mem _ hc))
          ⟨taken.scope, shouty c.name.name :: taken.taken⟩ with
        ⟨hdistinct, steps, hsteps, hall⟩ | ⟨hdistinct, c', hc', herror⟩
      · exact .inl ⟨⟨hspelt, hdistinct⟩, step :: steps, by rw [hsteps]; rfl, .cons hdeclares hall⟩
      · refine .inr ⟨fun h => hdistinct h.2, c', List.mem_cons_of_mem _ hc', ?_⟩
        rw [herror]
        rfl

/-- What is emitted for the constants of a scope. -/
structure RendersAll (t : Target) (scope : QualifiedName) (constants : List Constant) : Prop where
  each : ∀ c ∈ constants, ∃ strategy type text, t.RendersConstant c strategy type text
  emitted : (constants.map (shouty ·.name.name)).Nodup →
    ∃ lines, t.constantsSteps scope constants = .ok (header scope ++ lines) ∧
      List.Forall₂ t.Declares constants lines
  fails : ∀ e, t.constantsSteps scope constants = .error e →
    ∃ c ∈ constants, e = .duplicateName scope.text c.name.name
  valid : ∀ name reason, t.constantsSteps scope constants ≠ .error (.invalidConstant name reason)

theorem rendersAll {scope : QualifiedName} {constants : List Constant}
    (h : ∀ c ∈ constants, constantFault? (t.schema.type c.type) c.value = none) :
    t.RendersAll scope constants := by
  have heach : ∀ c ∈ constants, ∃ strategy type text, t.RendersConstant c strategy type text :=
    fun c hc => exists_rendersConstant (h c hc)
  have hcases := constantLines_cases heach (.fresh scope)
  have hsteps : t.constantsSteps scope constants =
      (t.constantLines (.fresh scope) constants).map (header scope ++ ·) := rfl
  have hfails : ∀ e, t.constantsSteps scope constants = .error e →
      ∃ c ∈ constants, e = .duplicateName scope.text c.name.name := by
    intro e he
    rcases hcases with ⟨-, steps, hok, -⟩ | ⟨-, c, hc, herror⟩
    · rw [hsteps, hok] at he
      cases he
    · rw [hsteps, herror] at he
      exact ⟨c, hc, (Except.error.inj he).symm⟩
  refine ⟨heach, fun hnodup => ?_, hfails, fun name reason herror => ?_⟩
  · rcases hcases with ⟨-, steps, hok, hall⟩ | ⟨hdistinct, -⟩
    · exact ⟨steps, by rw [hsteps, hok]; rfl, hall⟩
    · exact absurd (distinct_nil.mpr hnodup) hdistinct
  · obtain ⟨c, -, hc⟩ := hfails _ herror
    cases hc

end Target

/-- Every constant of an accepted document can be emitted, under every configuration: an integer
as its own numeral, in a type that holds it, and a number of floating-point type as a literal that
is no integer. Only constants that are spelt the same stand in the way. -/
theorem accepted_constants_render (doc : Document) (s : Schema) (h : build doc = .ok s)
    (config : Config) :
    ∃ declared, declareModules .root doc.modules {} = .ok ((), declared) ∧
      (∀ m ∈ modulesOf s.modules, s.RealizesConstants declared.names doc m.name m.constants ∧
        Target.RendersAll ⟨s, config⟩ m.name m.constants) ∧
      ∀ i ∈ s.interfaces, s.RealizesConstants declared.names doc i.name i.constants ∧
        Target.RendersAll ⟨s, config⟩ i.name i.constants := by
  obtain ⟨declared, hdeclares, hmodules, hinterfaces⟩ := realizesConstants_of_build h
  exact ⟨declared, hdeclares,
    fun m hm => ⟨hmodules m hm, Target.rendersAll (hmodules m hm).admitted⟩,
    fun i hi => ⟨hinterfaces i hi, Target.rendersAll (hinterfaces i hi).admitted⟩⟩

/-- Limits of a heater, and a factor for its power that is written without a fraction. -/
def heater : Document where
  modules := [{
    name := "heater"
    modules := []
    types := []
    interfaces := [⟨"Control", 1, [], [], [⟨"label", "string", .text "heat"⟩]⟩]
    constants := [⟨"lowest", "short", .integer (-40)⟩, ⟨"factor", "double", .integer 2⟩,
      ⟨"serial", "size_t", .natural 18446744073709551615⟩] }]

theorem accepted_constants_render_heater :
    ∃ s lines, build heater = .ok s ∧
      Target.constantsSteps ⟨s, {}⟩ ⟨["heater"]⟩
          [⟨⟨["heater", "lowest"]⟩, ⟨0⟩, .integer (-40)⟩,
            ⟨⟨["heater", "factor"]⟩, ⟨1⟩, .integer 2⟩,
            ⟨⟨["heater", "serial"]⟩, ⟨2⟩, .natural 18446744073709551615⟩] =
        .ok (header ⟨["heater"]⟩ ++ lines) ∧ lines.length = 3 := by
  have hbuilt : (build heater).toOption.map
      (fun s => (modulesOf s.modules).map fun m => (m.name, m.constants)) =
        some [(⟨["heater"]⟩, [⟨⟨["heater", "lowest"]⟩, ⟨0⟩, .integer (-40)⟩,
          ⟨⟨["heater", "factor"]⟩, ⟨1⟩, .integer 2⟩,
          ⟨⟨["heater", "serial"]⟩, ⟨2⟩, .natural 18446744073709551615⟩])] := by
    decide +kernel
  obtain ⟨s, hs, hconstants⟩ := exists_ok_of_toOption hbuilt
  obtain ⟨m, hm, hsame⟩ := List.mem_map.mp (hconstants ▸ List.mem_singleton_self _)
  obtain ⟨hname, hvalues⟩ := Prod.mk.inj hsame
  obtain ⟨declared, -, hmodules, -⟩ := accepted_constants_render heater s hs {}
  obtain ⟨-, hrenders⟩ := hmodules m hm
  rw [hname, hvalues] at hrenders
  obtain ⟨lines, hlines, hall⟩ := hrenders.emitted (by decide +kernel)
  exact ⟨s, lines, hs, hlines, hall.length_eq.symm⟩

end Source
end WireSchema
