import WireSchema.Proofs.Schema.Placement

/-!
# Assembled modules

Assembling comes to the declared modules with every reference replaced by its place, provided that
names within a scope differ and that constants fit their types.
-/
namespace WireSchema.Schema

open Document (Clause Reference)

variable {d : Draft} {names : List (String × Declared)}

/-- A literal is a constant of the type that is denoted. Only primitive types have constants. -/
def Denotation.Admits (value : Literal) : Denotation → Prop
  | .primitive type => constantFault? type value = none
  | .declared _ => False

/-- The names of parameters differ, and those of outbound ones also from the member for what is
returned. -/
def ParamsDiffer (returns : Bool) (seen : List String) (decls : List Document.Param) : Prop :=
  Distinct seen (decls.map (·.name)) ∧
    ∀ p ∈ decls, returns = true → p.outbound = true → p.name ≠ returnMember

/-- The rules for what is assembled together, those for interfaces apart. -/
def Clause.IsProper (names : List (String × Declared)) : Clause → Prop
  | .constants scope decls => (decls.map (·.name)).Nodup ∧
      ∀ c ∈ decls, ∀ den, Gives names ⟨scope, c.type⟩ den → den.Admits c.value
  | .operations _ decls => (decls.map (·.name)).Nodup ∧
      ∀ op ∈ decls, ParamsDiffer op.returns.isSome [] op.params

section Placed

variable (look : Reference → TypeId)

def Constant.placed (scope : QualifiedName) (c : Document.Constant) : Constant :=
  ⟨scope.child c.name, look ⟨scope, c.type⟩, c.value⟩

def Param.placed (interface : QualifiedName) (p : Document.Param) : Param :=
  ⟨p.name, look ⟨interface, p.type⟩, p.inbound, p.outbound⟩

/-- The number that a declaration asks for. -/
def declaredUid (uid : Int64) : UInt32 := UInt32.ofNat uid.toInt.toNat

def Operation.placed (interface : QualifiedName) (op : Document.Operation) : Operation where
  name := interface.child op.name
  uid := declaredUid op.uid
  params := op.params.map (Param.placed look interface)
  returns := op.returns.map fun reference => look ⟨interface, reference⟩
  oneway := op.oneway

variable (names : List (String × Declared))

def Interface.placed (name : QualifiedName) (i : Document.Interface) : Interface where
  name := name
  uid := declaredUid i.uid
  operations := i.operations.map (Operation.placed look name)
  exceptions := declaredExceptions { names } name (i.exceptions.map (·.name))
  constants := i.constants.map (Constant.placed look name)

mutual

def Module.placed (name : QualifiedName) : Document.Module → Module
  | ⟨_, modules, types, interfaces, constants⟩ => {
    name
    modules := placedModules name modules
    types := declaredTypes { names } name (types.map (·.name))
    interfaces := interfaces.map fun i => Interface.placed look names (name.child i.name) i
    constants := constants.map (Constant.placed look name) }

def placedModules (scope : QualifiedName) : List Document.Module → List Module
  | [] => []
  | m :: modules => Module.placed (scope.child m.name) m :: placedModules scope modules

end

end Placed

theorem constantFault?_of_name {type : TypeDef} {name : QualifiedName}
    (h : type.name? = some name) (value : Literal) : constantFault? type value ≠ none := by
  cases type with
  | bool | numeric | text | blob => cases h
  | _ => simp [constantFault?]

theorem constantFault?_eq_none_iff (hd : d.Sound) {r : Reference} {id : TypeId}
    (h : d.Places r id) (value : Literal) :
    constantFault? (d.types.getD id.index (.forward .root)) value = none ↔
      ∀ den, Gives d.names r den → den.Admits value := by
  obtain ⟨den, hgives, hholds⟩ := h
  have honly : (∀ den, Gives d.names r den → den.Admits value) ↔ den.Admits value := by
    refine ⟨fun h => h den hgives, fun h other hother => ?_⟩
    rwa [Except.ok.inj (Denotes.unique hother hgives)]
  rw [honly, Array.getD_eq_getD_getElem?]
  cases den with
  | primitive type =>
    rw [show d.types[id.index]? = some type from hholds]
    rfl
  | declared place =>
    obtain rfl : id = place := hholds
    obtain ⟨type, name, htype, hname⟩ := hd.exists_type_of_declared hgives
    rw [htype, Option.getD_some]
    exact iff_of_false (constantFault?_of_name hname value) not_false

theorem checkConstant_eq_ok_iff {name : QualifiedName} {type : TypeDef} {value : Literal} :
    (∃ u, checkConstant name type value = .ok u) ↔ constantFault? type value = none := by
  unfold checkConstant
  cases constantFault? type value <;> simp

theorem not_isReferenceFault_of_checkConstant {name : QualifiedName} {type : TypeDef}
    {value : Literal} {e : SchemaError} (h : checkConstant name type value = .error e) :
    ¬ e.IsReferenceFault := by
  unfold checkConstant at h
  split at h
  · cases h
  · obtain rfl := Except.error.inj h
    exact id

theorem yields_assembleConstants (hd : d.Ready) (scope : QualifiedName) (seen : List String)
    (decls : List Document.Constant) :
    (assembleConstants scope seen decls).Yields d (decls.map fun c => ⟨scope, c.type⟩)
      (Distinct seen (decls.map (·.name)) ∧
        ∀ c ∈ decls, ∀ den, Gives d.names ⟨scope, c.type⟩ den → den.Admits c.value)
      fun look constants => constants = decls.map (Constant.placed look scope) := by
  induction decls generalizing seen d with
  | nil => exact (Build.yields_pure fun _ => rfl).congr rfl (by simp [Distinct])
  | cons c decls ih =>
    rw [assembleConstants, List.map_cons, List.map_cons, distinct_cons, List.forall_mem_cons,
      and_assoc, and_left_comm (a := Distinct _ _)]
    refine Build.yields_check id fun _ => ?_
    refine Build.yields_resolve_bind hd ⟨scope, c.type⟩ fun type mid hmid hnames hplaces => ?_
    apply Build.ends_get_bind
    have hcheck : (liftM (checkConstant (scope.child c.name)
        (mid.types.getD type.index (.forward .root)) c.value) : Build Unit).Yields mid []
        (∀ den, Gives d.names ⟨scope, c.type⟩ den → den.Admits c.value) fun _ _ => True := by
      refine (Build.yields_lift (fun _ _ _ => trivial)
        fun e he => not_isReferenceFault_of_checkConstant he).congr rfl ?_
      rw [checkConstant_eq_ok_iff, constantFault?_eq_none_iff hmid.sound hplaces, hnames]
    refine hcheck.bind hmid fun _ mid' hmid' hnames' => ?_
    have hrest := ih hmid' (c.name :: seen)
    rw [hnames', hnames] at hrest
    refine hrest.bind_pure ?_
    rintro look constants rfl _ rfl
    rfl

theorem yields_check_interface {α : Type} {c : Prop} [Decidable c] {e : SchemaError}
    {next : Unit → Build α} {refs : List Reference} {rule : Prop}
    {R : (Reference → TypeId) → α → Prop} (he : e.IsInterfaceFault)
    (h : (next ()).Yields d refs rule R) :
    (if c then (throw e : Build Unit) >>= next else next ()).Yields d refs rule R := by
  apply Build.ends_check
  · exact fun _ hother => absurd he hother
  · exact fun _ => h

theorem yields_positiveUid (kind : Numbered) (name : QualifiedName) (uid : Int64) :
    (liftM (positiveUid kind name uid) : Build UInt32).Yields d [] True
      fun _ n => n = declaredUid uid := by
  unfold positiveUid
  by_cases hrange : 0 < uid.toInt ∧ uid.toInt < 0x100000000
  · rw [if_pos hrange]
    exact Build.yields_pure fun _ => rfl
  · rw [if_neg hrange]
    exact Build.yields_throw trivial

theorem paramsDiffer_cons {returns : Bool} {seen : List String} {p : Document.Param}
    {decls : List Document.Param} :
    ParamsDiffer returns seen (p :: decls) ↔
      ¬ (p.name ∈ seen || (returns && p.outbound && p.name = returnMember)) = true ∧
        ParamsDiffer returns (p.name :: seen) decls := by
  unfold ParamsDiffer
  rw [List.map_cons, distinct_cons, List.forall_mem_cons]
  simp only [Bool.or_eq_true, decide_eq_true_eq, Bool.and_eq_true, not_or, not_and, and_imp]
  tauto

theorem yields_assembleParams (hd : d.Ready) (interface operation : QualifiedName)
    (returns : Bool) (seen : List String) (decls : List Document.Param) :
    (assembleParams interface operation returns seen decls).Yields d
      (decls.map fun p => ⟨interface, p.type⟩) (ParamsDiffer returns seen decls)
      fun look params => params = decls.map (Param.placed look interface) := by
  induction decls generalizing seen d with
  | nil => exact (Build.yields_pure fun _ => rfl).congr rfl (by simp [ParamsDiffer, Distinct])
  | cons p decls ih =>
    rw [assembleParams, List.map_cons, paramsDiffer_cons]
    refine yields_check_interface trivial ?_
    refine Build.yields_check id fun _ => ?_
    refine Build.yields_resolve_bind hd ⟨interface, p.type⟩ fun type mid hmid _ _ => ?_
    refine (ih hmid (p.name :: seen)).bind_pure ?_
    rintro look params rfl rfl
    rfl

theorem yields_returns (hd : d.Ready) (interface : QualifiedName) (reference : Option String) :
    (reference.mapM (resolve interface)).Yields d
      (reference.toList.map fun text => ⟨interface, text⟩) True
      fun look returns => returns = reference.map fun text => look ⟨interface, text⟩ := by
  cases reference with
  | none => exact Build.yields_pure fun _ => rfl
  | some text =>
    rw [Option.mapM_some, map_eq_pure_bind]
    refine Build.yields_resolve_bind hd ⟨interface, text⟩ fun id mid _ _ _ => ?_
    refine Build.yields_pure ?_
    rintro look rfl
    rfl

theorem yields_assembleOperation (hd : d.Ready) (interface : QualifiedName)
    (decl : Document.Operation) :
    (assembleOperation interface decl).Yields d (decl.references interface)
      (ParamsDiffer decl.returns.isSome [] decl.params)
      fun look op => op = Operation.placed look interface decl := by
  unfold assembleOperation Document.Operation.references
  refine Build.Yields.bind_free hd (yields_positiveUid _ _ _) fun uid mid hmid _ => ?_
  refine ((yields_assembleParams hmid interface _ _ _ _).bind hmid
    fun params mid' hmid' _ => ?_).congr rfl (by rw [and_true])
  refine yields_check_interface trivial ?_
  refine (yields_returns hmid' interface decl.returns).bind_pure ?_
  rintro look returns rfl rfl rfl
  rfl

theorem yields_assembleOperations (hd : d.Ready) (interface : QualifiedName) (seen : List String)
    (uids : List (UInt32 × String)) (decls : List Document.Operation) :
    (assembleOperations interface seen uids decls).Yields d
      (decls.flatMap (·.references interface))
      (Distinct seen (decls.map (·.name)) ∧
        ∀ op ∈ decls, ParamsDiffer op.returns.isSome [] op.params)
      fun look ops => ops = decls.map (Operation.placed look interface) := by
  induction decls generalizing seen uids d with
  | nil => exact (Build.yields_pure fun _ => rfl).congr rfl (by simp [Distinct])
  | cons decl decls ih =>
    rw [assembleOperations, List.map_cons, List.flatMap_cons, distinct_cons, List.forall_mem_cons,
      and_assoc, and_left_comm (a := Distinct _ _)]
    refine Build.yields_check id fun _ => ?_
    refine (yields_assembleOperation hd interface decl).bind hd fun op mid hmid _ => ?_
    cases uids.lookup op.uid with
    | some other => exact Build.yields_throw trivial
    | none =>
      refine (ih hmid (decl.name :: seen) _).bind_pure ?_
      rintro look ops rfl rfl
      rfl

theorem yields_number (uid : UInt32) (name : String) :
    (modify fun d => { d with interfaceUids := (uid, name) :: d.interfaceUids } :
      Build Unit).Yields d [] True fun _ _ => True := by
  refine Build.ends_modify ⟨⟨Relation.ReflTransGen.single (.number d _), by simp, ?_⟩, trivial,
    fun _ _ => trivial⟩
  exact fun htype _ => .inl htype

theorem references_clauses (name : QualifiedName) (i : Document.Interface) :
    (i.clauses name).flatMap (·.references) =
      i.operations.flatMap (·.references name) ++ i.constants.map fun c => ⟨name, c.type⟩ := by
  simp [Document.Interface.clauses, Clause.references]

theorem forall_clauses {name : QualifiedName} {i : Document.Interface} :
    (∀ c ∈ i.clauses name, Clause.IsProper names c) ↔
      (Distinct [] (i.operations.map (·.name)) ∧
        ∀ op ∈ i.operations, ParamsDiffer op.returns.isSome [] op.params) ∧
      (Distinct [] (i.constants.map (·.name)) ∧
        ∀ c ∈ i.constants, ∀ den, Gives names ⟨name, c.type⟩ den → den.Admits c.value) := by
  simp [Document.Interface.clauses, Clause.IsProper, distinct_nil]

theorem yields_assembleInterface (hd : d.Ready) (scope : QualifiedName)
    (decl : Document.Interface) :
    (assembleInterface scope decl).Yields d
      ((decl.clauses (scope.child decl.name)).flatMap (·.references))
      (∀ c ∈ decl.clauses (scope.child decl.name), Clause.IsProper d.names c)
      fun look i => i = Interface.placed look d.names (scope.child decl.name) decl := by
  rw [references_clauses, forall_clauses]
  unfold assembleInterface
  refine Build.Yields.bind_free hd (yields_positiveUid _ _ _) fun uid mid hmid hnames => ?_
  apply Build.ends_get_bind
  cases mid.interfaceUids.lookup uid with
  | some other => exact Build.yields_throw trivial
  | none =>
    refine Build.Yields.bind_free hmid (yields_number uid _) fun _ mid' hmid' hnames' => ?_
    refine (yields_assembleOperations hmid' _ [] [] decl.operations).bind hmid'
      fun operations mid'' hmid'' hnames'' => ?_
    apply Build.ends_get_bind
    have hconstants := yields_assembleConstants hmid'' (scope.child decl.name) [] decl.constants
    rw [hnames'', hnames', hnames] at hconstants
    refine hconstants.bind_pure ?_
    rintro look constants rfl rfl _ rfl
    unfold Interface.placed declaredExceptions
    rw [hnames'', hnames', hnames]

theorem yields_assembleInterfaces (hd : d.Ready) (scope : QualifiedName)
    (decls : List Document.Interface) :
    (decls.mapM (assembleInterface scope)).Yields d
      ((decls.flatMap fun i => i.clauses (scope.child i.name)).flatMap (·.references))
      (∀ c ∈ decls.flatMap fun i => i.clauses (scope.child i.name), Clause.IsProper d.names c)
      fun look is =>
        is = decls.map fun i => Interface.placed look d.names (scope.child i.name) i := by
  induction decls generalizing d with
  | nil => exact (Build.yields_pure fun _ => rfl).congr rfl (by simp)
  | cons decl decls ih =>
    rw [List.mapM_cons, List.flatMap_cons, List.flatMap_append, List.forall_mem_append]
    refine (yields_assembleInterface hd scope decl).bind hd fun i mid hmid hnames => ?_
    have hrest := ih hmid
    rw [hnames] at hrest
    refine hrest.bind_pure ?_
    rintro look is rfl rfl
    rfl

mutual

theorem yields_assembleModule {d : Draft} (hd : d.Ready) (name : QualifiedName)
    (m : Document.Module) :
    (assembleModule name m).Yields d ((m.clauses name).flatMap (·.references))
      (∀ c ∈ m.clauses name, Clause.IsProper d.names c)
      fun look built => built = Module.placed look d.names name m := by
  obtain ⟨own, modules, types, interfaces, constants⟩ := m
  rw [assembleModule, Document.Module.clauses, List.cons_append, List.flatMap_cons,
    List.flatMap_append, List.forall_mem_cons, List.forall_mem_append]
  apply Build.ends_get_bind
  refine ((yields_assembleConstants hd name [] constants).congr rfl ?_).bind hd
    fun cs mid hmid hnames => ?_
  · rw [distinct_nil]
    rfl
  have his := yields_assembleInterfaces hmid name interfaces
  rw [hnames] at his
  refine his.bind hmid fun is mid' hmid' hnames' => ?_
  have hms := yields_assembleModules hmid' name modules
  rw [hnames', hnames] at hms
  refine hms.bind_pure ?_
  rintro look ms rfl rfl rfl
  rw [Module.placed]
  rfl

/-- Assembling puts places where the declared modules have references. -/
theorem yields_assembleModules {d : Draft} (hd : d.Ready) (scope : QualifiedName)
    (decls : List Document.Module) :
    (assembleModules scope decls).Yields d
      ((Document.clausesOf scope decls).flatMap (·.references))
      (∀ c ∈ Document.clausesOf scope decls, Clause.IsProper d.names c)
      fun look ms => ms = placedModules look d.names scope decls := by
  cases decls with
  | nil =>
    rw [assembleModules, Document.clausesOf]
    exact (Build.yields_pure fun _ => by rw [placedModules]).congr rfl (by simp)
  | cons m decls =>
    rw [assembleModules, Document.clausesOf, List.flatMap_append, List.forall_mem_append]
    refine (yields_assembleModule hd (scope.child m.name) m).bind hd fun built mid hmid hnames => ?_
    have hrest := yields_assembleModules hmid scope decls
    rw [hnames] at hrest
    refine hrest.bind_pure ?_
    rintro look ms rfl rfl
    rw [placedModules]

end

end WireSchema.Schema
