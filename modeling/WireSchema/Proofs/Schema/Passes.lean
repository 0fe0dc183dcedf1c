import WireSchema.Proofs.Schema.Drafts

/-!
# What the passes come to

Declaring goes through drafts in which only names and kept places are added. Defining and assembling
go on from there by single changes, and what they store refers to places in the table.
-/
namespace WireSchema

mutual

def Document.Module.interfaceNames (name : QualifiedName) : Document.Module → List QualifiedName
  | ⟨_, modules, _, interfaces, _⟩ =>
    interfaces.map (name.child ·.name) ++ Document.interfaceNamesOf name modules

def Document.interfaceNamesOf (scope : QualifiedName) : List Document.Module → List QualifiedName
  | [] => []
  | m :: modules => m.interfaceNames (scope.child m.name) ++ Document.interfaceNamesOf scope modules

end

mutual

/-- The names of the types of a module, of the exceptions of its interfaces, and of those in the
modules inside. -/
def Document.Module.typeNames (name : QualifiedName) : Document.Module → List QualifiedName
  | ⟨_, modules, types, interfaces, _⟩ =>
    types.map (name.child ·.name) ++
      interfaces.flatMap (fun i => i.exceptions.map ((name.child i.name).child ·.name)) ++
      Document.typeNamesOf name modules

def Document.typeNamesOf (scope : QualifiedName) : List Document.Module → List QualifiedName
  | [] => []
  | m :: modules => m.typeNames (scope.child m.name) ++ Document.typeNamesOf scope modules

end

namespace Schema

open Draft (Declaring)

variable {d d' : Draft} {P : QualifiedName → Prop} {interfaces : List String}

/-- Keeping a place for a name, then going on. -/
theorem reserve_eq_ok {α : Type} {name : QualifiedName} {next : TypeId → Build α} {a : α}
    (h : (do
      let id ← Draft.push (.forward name)
      Draft.enter name (.type id)
      next id : Build α) d = .ok (a, d')) :
    d.names.lookup name.text = none ∧ next ⟨d.types.size⟩ (d.reserve name) = .ok (a, d') := by
  obtain ⟨id, mid, hpush, h⟩ := Build.bind_eq_ok_iff.mp h
  obtain ⟨_, mid', henter, h⟩ := Build.bind_eq_ok_iff.mp h
  obtain ⟨rfl, rfl⟩ := Prod.mk.inj (Except.ok.inj hpush)
  obtain ⟨hfresh, rfl⟩ := Draft.enter_eq_ok_iff.mp henter
  exact ⟨hfresh, h⟩

theorem declaring_declareFresh {scope : QualifiedName} {decl : Document.TypeDecl}
    (hd : Declaring P interfaces d) (hname : P (scope.child decl.name))
    (h : declareFresh scope decl d = .ok ((), d')) : Declaring P interfaces d' := by
  unfold declareFresh at h
  generalize decl.body = body at h
  cases body <;> dsimp only at h
  case «alias» target =>
    obtain ⟨hfresh, rfl⟩ := Draft.enter_eq_ok_iff.mp h
    exact hd.synonym hfresh
  case forward =>
    obtain ⟨hfresh, h⟩ := reserve_eq_ok h
    obtain rfl := Build.modify_eq_ok_iff.mp h
    exact (hd.reserve hname hfresh).forwardOnly _
  all_goals
    obtain ⟨hfresh, h⟩ := reserve_eq_ok h
    obtain rfl := Build.modify_eq_ok_iff.mp h
    exact (hd.reserve hname hfresh).await hname List.lookup_cons_self

theorem declaring_declareType {scope : QualifiedName} {decl : Document.TypeDecl}
    (hd : Declaring P interfaces d) (hname : P (scope.child decl.name))
    (h : declareType scope decl d = .ok ((), d')) : Declaring P interfaces d' := by
  unfold declareType at h
  rw [Build.get_bind] at h
  cases hplace : d.names.lookup (scope.child decl.name).text with
  | none =>
    rw [hplace] at h
    exact declaring_declareFresh hd hname h
  | some what =>
    rw [hplace] at h
    cases what with
    | type id =>
      dsimp only at h
      by_cases hforward : decl.body = .forward
      · rw [if_pos hforward] at h
        obtain ⟨-, rfl⟩ := Build.pure_eq_ok_iff.mp h
        exact hd
      · rw [if_neg hforward] at h
        by_cases honly : id ∈ d.forwardOnly
        · -- The definition takes over the place of the forward declarations.
          rw [if_pos honly] at h
          obtain ⟨_, mid, hset, h⟩ := Build.bind_eq_ok_iff.mp h
          obtain rfl := (Prod.mk.inj (Except.ok.inj hset)).2
          obtain rfl := Build.modify_eq_ok_iff.mp h
          exact (hd.forwardOnly _).await hname hplace
        · rw [if_neg honly] at h
          exact declaring_declareFresh hd hname h
    | _ => exact declaring_declareFresh hd hname h

theorem declaring_declareInterface {scope : QualifiedName} {decl : Document.Interface}
    (hd : Declaring P interfaces d)
    (hnames : ∀ e ∈ decl.exceptions, P ((scope.child decl.name).child e.name))
    (h : declareInterface scope decl d = .ok ((), d')) :
    Declaring P (interfaces ++ [(scope.child decl.name).text]) d' := by
  unfold declareInterface at h
  obtain ⟨_, mid, henter, h⟩ := Build.bind_eq_ok_iff.mp h
  obtain ⟨hfresh, rfl⟩ := Draft.enter_eq_ok_iff.mp henter
  refine Build.forM_preserves (P := Declaring P (interfaces ++ [(scope.child decl.name).text]))
    ?_ (hd.interface hfresh) h
  intro e he d d' hd h
  obtain ⟨hfresh, h⟩ := reserve_eq_ok h
  obtain rfl := Build.modify_eq_ok_iff.mp h
  exact (hd.reserve (hnames e he) hfresh).await (hnames e he) List.lookup_cons_self

theorem declaring_declareInterfaces {scope : QualifiedName} {decls : List Document.Interface}
    (hd : Declaring P interfaces d)
    (hnames : ∀ decl ∈ decls, ∀ e ∈ decl.exceptions, P ((scope.child decl.name).child e.name))
    (h : decls.forM (declareInterface scope) d = .ok ((), d')) :
    Declaring P (interfaces ++ (decls.map (scope.child ·.name)).map (·.text)) d' := by
  induction decls generalizing interfaces d with
  | nil =>
    obtain ⟨-, rfl⟩ := Build.pure_eq_ok_iff.mp h
    rwa [List.map_nil, List.map_nil, List.append_nil]
  | cons decl decls ih =>
    obtain ⟨mid, hfirst, hrest⟩ := Build.forM_cons_eq_ok_iff.mp h
    have hmid := declaring_declareInterface hd (hnames decl List.mem_cons_self) hfirst
    have hd' := ih hmid (fun other hother => hnames other (.tail _ hother)) hrest
    rwa [List.append_assoc] at hd'

mutual

theorem declaring_module {name : QualifiedName} {m : Document.Module}
    {interfaces : List String} {d d' : Draft} (hd : Declaring P interfaces d)
    (hnames : ∀ n ∈ m.typeNames name, P n) (h : declareModule name m d = .ok ((), d')) :
    Declaring P (interfaces ++ (m.interfaceNames name).map (·.text)) d' := by
  obtain ⟨own, modules, types, decls, constants⟩ := m
  rw [Document.Module.typeNames, List.forall_mem_append, List.forall_mem_append] at hnames
  obtain ⟨⟨htypeNames, hexceptionNames⟩, hinner⟩ := hnames
  rw [declareModule] at h
  obtain ⟨_, mid, htypes, h⟩ := Build.bind_eq_ok_iff.mp h
  obtain ⟨_, mid', hdecls, hmodules⟩ := Build.bind_eq_ok_iff.mp h
  have hmid : Declaring P interfaces mid := by
    refine Build.forM_preserves ?_ hd htypes
    intro decl hdecl d d' hd
    exact declaring_declareType hd (htypeNames _ (List.mem_map_of_mem hdecl))
  have hmid' := declaring_declareInterfaces hmid (fun decl hdecl e he =>
    hexceptionNames _ (List.mem_flatMap.mpr ⟨decl, hdecl, List.mem_map_of_mem he⟩)) hdecls
  have hd' := declaring_modules hmid' hinner hmodules
  rwa [List.append_assoc, ← List.map_append] at hd'

/-- Declaring the modules of a document declares each of its interfaces, and no types but its own.
-/
theorem declaring_modules {scope : QualifiedName} {modules : List Document.Module}
    {interfaces : List String} {d d' : Draft} (hd : Declaring P interfaces d)
    (hnames : ∀ n ∈ Document.typeNamesOf scope modules, P n)
    (h : declareModules scope modules d = .ok ((), d')) :
    Declaring P (interfaces ++ (Document.interfaceNamesOf scope modules).map (·.text)) d' := by
  cases modules with
  | nil =>
    rw [declareModules] at h
    obtain ⟨-, rfl⟩ := Build.pure_eq_ok_iff.mp h
    rwa [Document.interfaceNamesOf, List.map_nil, List.append_nil]
  | cons m modules =>
    rw [Document.typeNamesOf, List.forall_mem_append] at hnames
    rw [declareModules] at h
    obtain ⟨_, mid, hfirst, hrest⟩ := Build.bind_eq_ok_iff.mp h
    have hmid := declaring_module hd hnames.1 hfirst
    have hd' := declaring_modules hmid hnames.2 hrest
    rwa [List.append_assoc, ← List.map_append, ← Document.interfaceNamesOf] at hd'

end

/-- The same, whatever names its types have. -/
theorem declaring_declareModules {scope : QualifiedName} {modules : List Document.Module}
    (hd : Declaring (fun _ => True) interfaces d)
    (h : declareModules scope modules d = .ok ((), d')) :
    Declaring (fun _ => True)
      (interfaces ++ (Document.interfaceNamesOf scope modules).map (·.text)) d' :=
  declaring_modules hd (fun _ _ => trivial) h

namespace Draft

/-- A draft is reached that has the given places. -/
structure Leads (d d' : Draft) (ids : List TypeId) : Prop where
  reaches : d.Reaches d'
  inTable : ∀ id ∈ ids, d'.InTable id

theorem Leads.refl {ids : List TypeId} (h : ∀ id ∈ ids, d.InTable id) : d.Leads d ids :=
  ⟨Relation.ReflTransGen.refl, h⟩

theorem Leads.sound {ids : List TypeId} (hd : d.Sound) (h : d.Leads d' ids) : d'.Sound :=
  (hd.reaches h.reaches).1

theorem Leads.andThen {mid : Draft} {ids ids' : List TypeId} (hd : d.Sound) (h : d.Leads mid ids)
    (hrest : mid.Sound → mid.Leads d' ids') : d.Leads d' (ids ++ ids') := by
  have hmid := h.sound hd
  have h' := hrest hmid
  obtain ⟨-, hext⟩ := hmid.reaches h'.reaches
  refine ⟨Relation.ReflTransGen.trans h.reaches h'.reaches, ?_⟩
  intro id hid
  rcases List.mem_append.mp hid with hid | hid
  · exact (h.inTable id hid).mono hext
  · exact h'.inTable id hid

theorem Leads.mono {ids ids' : List TypeId} (h : d.Leads d' ids) (hsub : ids' ⊆ ids) :
    d.Leads d' ids' :=
  ⟨h.reaches, fun id hid => h.inTable id (hsub hid)⟩

theorem Leads.head {mid : Draft} {ids : List TypeId} (hstep : Step d mid)
    (h : mid.Leads d' ids) : d.Leads d' ids :=
  ⟨Relation.ReflTransGen.head hstep h.reaches, h.inTable⟩

end Draft

theorem leads_resolve {scope : QualifiedName} {reference : String} {id : TypeId} (hd : d.Sound)
    (h : resolve scope reference d = .ok (id, d')) : d.Leads d' [id] where
  reaches := Relation.ReflTransGen.single (.resolve h)
  inTable := by
    obtain ⟨-, -, hid⟩ := hd.resolves (Draft.resolves_resolve d scope reference) h
    simpa using hid

theorem leads_resolveMembers {owner : QualifiedName} {seen : List String}
    {decls : List Document.Member} {members : List Member} (hd : d.Sound)
    (h : resolveMembers owner seen decls d = .ok (members, d')) :
    d.Leads d' (members.map (·.type)) := by
  induction decls generalizing seen members d with
  | nil =>
    obtain ⟨rfl, rfl⟩ := Build.pure_eq_ok_iff.mp h
    exact .refl (by simp)
  | cons m decls ih =>
    rw [resolveMembers] at h
    obtain ⟨-, h⟩ := Build.check_eq_ok_iff.mp h
    obtain ⟨type, mid, htype, h⟩ := Build.bind_eq_ok_iff.mp h
    obtain ⟨rest, last, hrest, h⟩ := Build.bind_eq_ok_iff.mp h
    obtain ⟨rfl, rfl⟩ := Build.pure_eq_ok_iff.mp h
    exact (leads_resolve hd htype).andThen hd fun hmid => ih hmid hrest

theorem name_of_checkEnum {owner : QualifiedName} {enumerators : List Document.Enumerator}
    {e : EnumType} (h : checkEnum owner enumerators = .ok e) : e.name = owner := by
  unfold checkEnum at h
  split at h
  · cases h
  · cases hchecked : checkEnumerators owner [] [] enumerators with
    | error err =>
      rw [hchecked] at h
      cases h
    | ok checked =>
      rw [hchecked] at h
      obtain rfl := Except.ok.inj h
      rfl

theorem leads_definition? {p : Pending} {found : Option TypeDef} (hd : d.Sound)
    (h : definition? p d = .ok (found, d')) :
    d.Leads d' (found.elim [] TypeDef.parts) ∧ ∀ type ∈ found, type.name? = some p.name := by
  obtain ⟨id, name, body⟩ := p
  unfold definition? at h
  cases body <;> dsimp only at h
  case record decls | exception decls =>
    obtain ⟨members, mid, hmembers, h⟩ := Build.bind_eq_ok_iff.mp h
    obtain ⟨rfl, rfl⟩ := Build.pure_eq_ok_iff.mp h
    exact ⟨leads_resolveMembers hd hmembers, by simp [TypeDef.name?]⟩
  case sequence reference =>
    obtain ⟨element, mid, helement, h⟩ := Build.bind_eq_ok_iff.mp h
    obtain ⟨rfl, rfl⟩ := Build.pure_eq_ok_iff.mp h
    exact ⟨leads_resolve hd helement, by simp [TypeDef.name?]⟩
  case map keyReference valueReference =>
    obtain ⟨key, mid, hkey, h⟩ := Build.bind_eq_ok_iff.mp h
    obtain ⟨value, last, hvalue, h⟩ := Build.bind_eq_ok_iff.mp h
    obtain ⟨rfl, rfl⟩ := Build.pure_eq_ok_iff.mp h
    refine ⟨?_, by simp [TypeDef.name?]⟩
    exact (leads_resolve hd hkey).andThen hd fun hmid => leads_resolve hmid hvalue
  case enumeration enumerators =>
    obtain ⟨e, mid, he, h⟩ := Build.bind_eq_ok_iff.mp h
    obtain ⟨hchecked, rfl⟩ := Build.lift_eq_ok_iff.mp he
    obtain ⟨rfl, rfl⟩ := Build.pure_eq_ok_iff.mp h
    exact ⟨.refl (by simp [TypeDef.parts]), by simp [TypeDef.name?, name_of_checkEnum hchecked]⟩
  all_goals
    obtain ⟨rfl, rfl⟩ := Build.pure_eq_ok_iff.mp h
    exact ⟨.refl (by simp), by simp⟩

theorem reaches_definePending {p : Pending} (hd : d.Sound)
    (hplace : d.names.lookup p.name.text = some (.type p.id))
    (h : definePending p d = .ok ((), d')) : d.Reaches d' := by
  unfold definePending at h
  obtain ⟨found, mid, hfound, h⟩ := Build.bind_eq_ok_iff.mp h
  obtain ⟨hleads, hname⟩ := leads_definition? hd hfound
  cases found with
  | none =>
    obtain ⟨-, rfl⟩ := Build.pure_eq_ok_iff.mp h
    exact hleads.reaches
  | some type =>
    obtain rfl := (Prod.mk.inj (Except.ok.inj h)).2
    obtain ⟨-, hext⟩ := hd.reaches hleads.reaches
    rw [← hext.names_eq] at hplace
    exact Relation.ReflTransGen.tail hleads.reaches (.define hplace (hname type rfl) hleads.inTable)

/-- What waits in a draft can be defined in every draft that is reached from it. -/
theorem reaches_waiting {p : Pending} {now next : Draft} (hd : d.Sound) (hp : p ∈ d.pending)
    (hnow : d.Reaches now) (h : definePending p now = .ok ((), next)) : d.Reaches next := by
  obtain ⟨hsound, hext⟩ := hd.reaches hnow
  have hplace := hd.awaited p hp
  rw [← hext.names_eq] at hplace
  exact Relation.ReflTransGen.trans hnow (reaches_definePending hsound hplace h)

/-- Each definition goes to the place of its name. -/
theorem reaches_defineAll (hd : d.Sound) (h : defineAll d = .ok ((), d')) : d.Reaches d' := by
  unfold defineAll at h
  rw [Build.get_bind] at h
  obtain ⟨_, mid, hsettle, h⟩ := Build.bind_eq_ok_iff.mp h
  obtain rfl := Build.modify_eq_ok_iff.mp hsettle
  refine Build.forM_preserves (P := d.Reaches) ?_ (Relation.ReflTransGen.single (.settle d)) h
  intro p hp now next hnow hnext
  exact reaches_waiting hd hp hnow hnext

def Operation.references (op : Operation) : List TypeId :=
  op.params.map (·.type) ++ op.returns.toList ++ op.request.members.map (·.type) ++
    (op.response?.toList.flatMap (·.members)).map (·.type)

theorem Operation.references_subset (op : Operation) :
    op.references ⊆ op.params.map (·.type) ++ op.returns.toList := by
  unfold references response? responseMembers request
  intro id hid
  split at hid <;> simp at hid ⊢ <;> grind

def Interface.references (i : Interface) : List TypeId :=
  i.operations.flatMap (·.references) ++ i.exceptions ++ i.constants.map (·.type)

mutual

def Module.references : Module → List TypeId
  | ⟨_, modules, types, interfaces, constants⟩ =>
    types ++ constants.map (·.type) ++ interfaces.flatMap (·.references) ++ referencesOf modules

def referencesOf : List Module → List TypeId
  | [] => []
  | m :: modules => m.references ++ referencesOf modules

end

theorem leads_assembleConstants {scope : QualifiedName} {seen : List String}
    {decls : List Document.Constant} {constants : List Constant} (hd : d.Sound)
    (h : assembleConstants scope seen decls d = .ok (constants, d')) :
    d.Leads d' (constants.map (·.type)) := by
  induction decls generalizing seen constants d with
  | nil =>
    obtain ⟨rfl, rfl⟩ := Build.pure_eq_ok_iff.mp h
    exact .refl (by simp)
  | cons c decls ih =>
    rw [assembleConstants] at h
    obtain ⟨-, h⟩ := Build.check_eq_ok_iff.mp h
    obtain ⟨type, mid, htype, h⟩ := Build.bind_eq_ok_iff.mp h
    rw [Build.get_bind] at h
    obtain ⟨_, checked, hcheck, h⟩ := Build.bind_eq_ok_iff.mp h
    obtain ⟨-, rfl⟩ := Build.lift_eq_ok_iff.mp hcheck
    obtain ⟨rest, last, hrest, h⟩ := Build.bind_eq_ok_iff.mp h
    obtain ⟨rfl, rfl⟩ := Build.pure_eq_ok_iff.mp h
    exact (leads_resolve hd htype).andThen hd fun hmid => ih hmid hrest

theorem leads_assembleParams {interface operation : QualifiedName} {returns : Bool}
    {seen : List String} {decls : List Document.Param} {params : List Param} (hd : d.Sound)
    (h : assembleParams interface operation returns seen decls d = .ok (params, d')) :
    d.Leads d' (params.map (·.type)) := by
  induction decls generalizing seen params d with
  | nil =>
    obtain ⟨rfl, rfl⟩ := Build.pure_eq_ok_iff.mp h
    exact .refl (by simp)
  | cons p decls ih =>
    rw [assembleParams] at h
    obtain ⟨-, h⟩ := Build.check_eq_ok_iff.mp h
    obtain ⟨-, h⟩ := Build.check_eq_ok_iff.mp h
    obtain ⟨type, mid, htype, h⟩ := Build.bind_eq_ok_iff.mp h
    obtain ⟨rest, last, hrest, h⟩ := Build.bind_eq_ok_iff.mp h
    obtain ⟨rfl, rfl⟩ := Build.pure_eq_ok_iff.mp h
    exact (leads_resolve hd htype).andThen hd fun hmid => ih hmid hrest

theorem leads_returns {scope : QualifiedName} {reference : Option String} {returns : Option TypeId}
    (hd : d.Sound) (h : reference.mapM (resolve scope) d = .ok (returns, d')) :
    d.Leads d' returns.toList := by
  cases reference with
  | none =>
    obtain ⟨rfl, rfl⟩ := Build.pure_eq_ok_iff.mp h
    exact .refl (by simp)
  | some reference =>
    rw [Option.mapM_some, map_eq_pure_bind] at h
    obtain ⟨id, mid, hid, h⟩ := Build.bind_eq_ok_iff.mp h
    obtain ⟨rfl, rfl⟩ := Build.pure_eq_ok_iff.mp h
    exact leads_resolve hd hid

theorem leads_assembleOperation {interface : QualifiedName} {decl : Document.Operation}
    {op : Operation} (hd : d.Sound) (h : assembleOperation interface decl d = .ok (op, d')) :
    d.Leads d' op.references := by
  unfold assembleOperation at h
  obtain ⟨uid, mid, huid, h⟩ := Build.bind_eq_ok_iff.mp h
  obtain ⟨-, rfl⟩ := Build.lift_eq_ok_iff.mp huid
  obtain ⟨params, mid, hparams, h⟩ := Build.bind_eq_ok_iff.mp h
  obtain ⟨-, h⟩ := Build.check_eq_ok_iff.mp h
  obtain ⟨returns, last, hreturns, h⟩ := Build.bind_eq_ok_iff.mp h
  obtain ⟨rfl, rfl⟩ := Build.pure_eq_ok_iff.mp h
  have hboth := (leads_assembleParams hd hparams).andThen hd fun hmid => leads_returns hmid hreturns
  exact hboth.mono (Operation.references_subset _)

theorem leads_assembleOperations {interface : QualifiedName} {names : List String}
    {uids : List (UInt32 × String)} {decls : List Document.Operation} {ops : List Operation}
    (hd : d.Sound) (h : assembleOperations interface names uids decls d = .ok (ops, d')) :
    d.Leads d' (ops.flatMap (·.references)) := by
  induction decls generalizing names uids ops d with
  | nil =>
    obtain ⟨rfl, rfl⟩ := Build.pure_eq_ok_iff.mp h
    exact .refl (by simp)
  | cons decl decls ih =>
    rw [assembleOperations] at h
    obtain ⟨-, h⟩ := Build.check_eq_ok_iff.mp h
    obtain ⟨op, mid, hop, h⟩ := Build.bind_eq_ok_iff.mp h
    cases huid : uids.lookup op.uid with
    | some other =>
      rw [huid] at h
      cases h
    | none =>
      rw [huid] at h
      obtain ⟨rest, last, hrest, h⟩ := Build.bind_eq_ok_iff.mp h
      obtain ⟨rfl, rfl⟩ := Build.pure_eq_ok_iff.mp h
      exact (leads_assembleOperation hd hop).andThen hd fun hmid => ih hmid hrest

theorem leads_declaredExceptions (hd : d.Sound) (scope : QualifiedName) (names : List String) :
    d.Leads d (declaredExceptions d scope names) := by
  apply Draft.Leads.refl
  intro id hid
  obtain ⟨name, -, hname⟩ := List.mem_filterMap.mp hid
  split at hname
  · rename_i found hfound
    obtain rfl := Option.some.inj hname
    exact hd.inTable_of_name hfound
  · cases hname

theorem leads_declaredTypes (hd : d.Sound) (scope : QualifiedName) (names : List String) :
    d.Leads d (declaredTypes d scope names) := by
  apply Draft.Leads.refl
  unfold declaredTypes
  apply List.foldlRecOn names _ (motive := fun ids => ∀ id ∈ ids, d.InTable id)
  · simp
  · intro ids hids name _
    split
    · rename_i found hfound
      split
      · exact hids
      · intro id hid
        rcases List.mem_append.mp hid with hid | hid
        · exact hids id hid
        · obtain rfl := List.mem_singleton.mp hid
          exact hd.inTable_of_name hfound
    · exact hids

theorem leads_assembleInterface {scope : QualifiedName} {decl : Document.Interface} {i : Interface}
    (hd : d.Sound) (h : assembleInterface scope decl d = .ok (i, d')) :
    d.Leads d' i.references ∧ i.name = scope.child decl.name := by
  unfold assembleInterface at h
  obtain ⟨uid, mid, huid, h⟩ := Build.bind_eq_ok_iff.mp h
  obtain ⟨-, rfl⟩ := Build.lift_eq_ok_iff.mp huid
  rw [Build.get_bind] at h
  cases hother : d.interfaceUids.lookup uid with
  | some other =>
    rw [hother] at h
    cases h
  | none =>
    rw [hother] at h
    obtain ⟨_, numbered, hnumbered, h⟩ := Build.bind_eq_ok_iff.mp h
    obtain ⟨operations, mid, hoperations, h⟩ := Build.bind_eq_ok_iff.mp h
    rw [Build.get_bind] at h
    obtain ⟨constants, last, hconstants, h⟩ := Build.bind_eq_ok_iff.mp h
    obtain ⟨rfl, rfl⟩ := Build.pure_eq_ok_iff.mp h
    have hstep : d.Step numbered := by
      obtain rfl := Build.modify_eq_ok_iff.mp hnumbered
      exact .number d _
    obtain ⟨hsound, -⟩ := hd.step hstep
    have hops := (leads_assembleOperations hsound hoperations).andThen hsound fun hmid =>
      leads_declaredExceptions hmid (scope.child decl.name) (decl.exceptions.map (·.name))
    have hall := hops.andThen hsound fun hmid => leads_assembleConstants hmid hconstants
    exact ⟨hall.head hstep, rfl⟩

theorem leads_assembleInterfaces {scope : QualifiedName} {decls : List Document.Interface}
    {is : List Interface} (hd : d.Sound)
    (h : decls.mapM (assembleInterface scope) d = .ok (is, d')) :
    d.Leads d' (is.flatMap (·.references)) ∧ is.map (·.name) = decls.map (scope.child ·.name) := by
  induction decls generalizing is d with
  | nil =>
    obtain ⟨rfl, rfl⟩ := Build.pure_eq_ok_iff.mp h
    exact ⟨.refl (by simp), rfl⟩
  | cons decl decls ih =>
    obtain ⟨i, mid, rest, hi, hrest, rfl⟩ := Build.mapM_cons_eq_ok_iff.mp h
    obtain ⟨hfirst, hname⟩ := leads_assembleInterface hd hi
    obtain ⟨hleads, hnames⟩ := ih (hfirst.sound hd) hrest
    refine ⟨hfirst.andThen hd fun _ => hleads, ?_⟩
    rw [List.map_cons, List.map_cons, hname, hnames]

mutual

theorem leads_assembleModule {name : QualifiedName} {decl : Document.Module} {m : Module}
    {d d' : Draft} (hd : d.Sound) (h : assembleModule name decl d = .ok (m, d')) :
    d.Leads d' m.references ∧ m.allInterfaces.map (·.name) = decl.interfaceNames name := by
  obtain ⟨own, modules, types, decls, constants⟩ := decl
  rw [assembleModule, Build.get_bind] at h
  obtain ⟨cs, mid, hcs, h⟩ := Build.bind_eq_ok_iff.mp h
  obtain ⟨is, mid', his, h⟩ := Build.bind_eq_ok_iff.mp h
  obtain ⟨ms, last, hms, h⟩ := Build.bind_eq_ok_iff.mp h
  obtain ⟨rfl, rfl⟩ := Build.pure_eq_ok_iff.mp h
  have htypes := leads_declaredTypes hd name (types.map (·.name))
  have hconstants := htypes.andThen hd fun hmid => leads_assembleConstants hmid hcs
  obtain ⟨hleads, hnames⟩ := leads_assembleInterfaces (hconstants.sound hd) his
  have hinterfaces := hconstants.andThen hd fun _ => hleads
  obtain ⟨hleads, hinner⟩ := leads_assembleModules (hinterfaces.sound hd) hms
  refine ⟨hinterfaces.andThen hd fun _ => hleads, ?_⟩
  rw [Module.allInterfaces, List.map_append, hnames, hinner, Document.Module.interfaceNames]

/-- Assembled modules have the interfaces of the document, and they refer to places in the table. -/
theorem leads_assembleModules {scope : QualifiedName} {decls : List Document.Module}
    {ms : List Module} {d d' : Draft} (hd : d.Sound)
    (h : assembleModules scope decls d = .ok (ms, d')) :
    d.Leads d' (referencesOf ms) ∧
      (interfacesOf ms).map (·.name) = Document.interfaceNamesOf scope decls := by
  cases decls with
  | nil =>
    rw [assembleModules] at h
    obtain ⟨rfl, rfl⟩ := Build.pure_eq_ok_iff.mp h
    exact ⟨.refl (by simp [referencesOf]), rfl⟩
  | cons decl decls =>
    rw [assembleModules] at h
    obtain ⟨m, mid, hm, h⟩ := Build.bind_eq_ok_iff.mp h
    obtain ⟨rest, last, hrest, h⟩ := Build.bind_eq_ok_iff.mp h
    obtain ⟨rfl, rfl⟩ := Build.pure_eq_ok_iff.mp h
    obtain ⟨hfirst, hnames⟩ := leads_assembleModule hd hm
    obtain ⟨hleads, hothers⟩ := leads_assembleModules (hfirst.sound hd) hrest
    refine ⟨hfirst.andThen hd fun _ => hleads, ?_⟩
    rw [interfacesOf, List.map_append, hnames, hothers, Document.interfaceNamesOf]

end

end Schema
end WireSchema
