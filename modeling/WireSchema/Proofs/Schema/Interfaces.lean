import Mathlib.Algebra.Group.Int.Defs
import Mathlib.Algebra.Group.Nat.Defs
import Mathlib.Data.List.Forall2
import Mathlib.Data.List.Nodup
import WireSchema.Proofs.Schema.Outcome
import WireSchema.Schema.Build

/-!
# Interfaces of a document and of its schema

Assembling turns each declared interface into one of the schema, in their order. What an interface
promises about its numbers, its operations and their messages is said here, and so is every rule
that a declaration can break.
-/
namespace WireSchema

open Schema

section Lists

variable {α β : Type} {R : α → β → Prop} {as : List α} {bs : List β}

theorem exists_of_mem_left {a : α} (h : List.Forall₂ R as bs) (ha : a ∈ as) : ∃ b ∈ bs, R a b := by
  induction h with
  | nil => cases ha
  | @cons _ b _ _ hab _ ih =>
    rcases List.mem_cons.mp ha with rfl | ha
    · exact ⟨b, List.mem_cons_self, hab⟩
    · obtain ⟨c, hc, hac⟩ := ih ha
      exact ⟨c, List.mem_cons_of_mem b hc, hac⟩

theorem exists_of_mem_right {b : β} (h : List.Forall₂ R as bs) (hb : b ∈ bs) : ∃ a ∈ as, R a b :=
  exists_of_mem_left h.flip hb

end Lists

namespace Document

/-- An interface of a document, with its qualified name. -/
structure NamedInterface where
  name : QualifiedName
  decl : Document.Interface

mutual

def Module.namedInterfaces (name : QualifiedName) : Document.Module → List NamedInterface
  | ⟨_, modules, _, interfaces, _⟩ =>
    interfaces.map (fun i => ⟨name.child i.name, i⟩) ++ namedInterfacesOf name modules

def namedInterfacesOf (scope : QualifiedName) : List Document.Module → List NamedInterface
  | [] => []
  | m :: modules => m.namedInterfaces (scope.child m.name) ++ namedInterfacesOf scope modules

end

def interfaces (doc : Document) : List NamedInterface := namedInterfacesOf .root doc.modules

def IsUid (uid : Int64) : Prop := 1 ≤ uid.toInt ∧ uid.toInt ≤ 2 ^ 32 - 1

/-- The rules for a single operation, each with the error for breaking it. -/
inductive Operation.Breaks (interface : QualifiedName) (op : Operation) : SchemaError → Prop
  | uid (huid : ¬ IsUid op.uid) :
    Breaks interface op (.nonPositiveUid .operation (interface.child op.name).text op.uid.toInt)
  | undirected {p : Param} (hp : p ∈ op.params) (hin : p.inbound = false)
    (hout : p.outbound = false) :
    Breaks interface op (.malformedParameter (interface.child op.name).text p.name)
  | oneway (honeway : op.oneway = true)
    (hresults : op.returns.isSome = true ∨ ∃ p ∈ op.params, p.outbound = true) :
    Breaks interface op (.onewayWithResults (interface.child op.name).text)

/-- The rules for the operations of an interface. -/
inductive BreaksOperations (interface : QualifiedName) (ops : List Operation) : SchemaError → Prop
  | operation {op : Operation} {e : SchemaError} (hop : op ∈ ops) (h : op.Breaks interface e) :
    BreaksOperations interface ops e
  | shared {first second : Operation} {uid : Nat} (h : [first, second].Sublist ops)
    (hfirst : first.uid.toInt = uid) (hsecond : second.uid.toInt = uid) :
    BreaksOperations interface ops (.duplicateUid .operation (interface.child second.name).text uid
      (interface.child first.name).text)

/-- The rules for the interfaces of a document. -/
inductive BreaksInterfaces (is : List NamedInterface) : SchemaError → Prop
  | uid {i : NamedInterface} (hi : i ∈ is) (huid : ¬ IsUid i.decl.uid) :
    BreaksInterfaces is (.nonPositiveUid .interface i.name.text i.decl.uid.toInt)
  | operations {i : NamedInterface} {e : SchemaError} (hi : i ∈ is)
    (h : BreaksOperations i.name i.decl.operations e) : BreaksInterfaces is e
  | shared {first second : NamedInterface} {uid : Nat} (h : [first, second].Sublist is)
    (hfirst : first.decl.uid.toInt = uid) (hsecond : second.decl.uid.toInt = uid) :
    BreaksInterfaces is (.duplicateUid .interface second.name.text uid first.name.text)

theorem BreaksInterfaces.mono {is is' : List NamedInterface} {e : SchemaError}
    (h : BreaksInterfaces is e) (hsub : is.Sublist is') : BreaksInterfaces is' e := by
  cases h with
  | uid hi huid => exact .uid (hsub.subset hi) huid
  | operations hi h => exact .operations (hsub.subset hi) h
  | shared h hfirst hsecond => exact .shared (h.trans hsub) hfirst hsecond

end Document

open Document (NamedInterface BreaksOperations BreaksInterfaces IsUid)

namespace Schema

variable {d : Draft}

/-- A parameter keeps its name and its directions. -/
structure Param.Realizes (p : Param) (decl : Document.Param) : Prop where
  name_eq : p.name = decl.name
  inbound_eq : p.inbound = decl.inbound
  outbound_eq : p.outbound = decl.outbound

/-- A number stands for the declared one, which is in range. -/
structure Numbers (uid : UInt32) (declared : Int64) : Prop where
  eq : (uid.toNat : Int) = declared.toInt
  isUid : IsUid declared

/-- Parameters of which each has a direction. Their names differ from each other, and where the
operation returns something, those of outbound ones from that of the returned member. -/
structure ParamsFit (returns : Bool) (ps : List Param) : Prop where
  directed : ∀ p ∈ ps, p.inbound = true ∨ p.outbound = true
  nodup : (ps.map (·.name)).Nodup
  name_ne : returns = true → ∀ p ∈ ps, p.outbound = true → p.name ≠ returnMember

structure Operation.Realizes (interface : QualifiedName) (decl : Document.Operation)
    (op : Operation) : Prop where
  name_eq : op.name = interface.child decl.name
  numbers : Numbers op.uid decl.uid
  params : List.Forall₂ (fun decl p => Param.Realizes p decl) decl.params op.params
  paramsFit : ParamsFit op.returns.isSome op.params
  returns_eq : op.returns.isSome = decl.returns.isSome
  oneway_eq : op.oneway = decl.oneway
  silent : op.oneway = true → op.returns = none ∧ ∀ p ∈ op.params, p.outbound = false

structure Interface.Realizes (decl : NamedInterface) (i : Interface) : Prop where
  name_eq : i.name = decl.name
  numbers : Numbers i.uid decl.decl.uid
  operations : List.Forall₂ (Operation.Realizes i.name) decl.decl.operations i.operations
  uids_nodup : (i.operations.map (·.uid)).Nodup
  names_nodup : (i.operations.map (·.name)).Nodup

theorem positiveUid_eq_ok {kind : Numbered} {name : QualifiedName} {declared : Int64} {uid : UInt32}
    (h : positiveUid kind name declared = .ok uid) : Numbers uid declared := by
  unfold positiveUid at h
  split at h
  · rename_i hrange
    obtain rfl := Except.ok.inj h
    refine ⟨?_, by omega, by omega⟩
    rw [UInt32.toNat_ofNat_of_lt' (by simp only [UInt32.size]; omega)]
    omega
  · cases h

theorem positiveUid_eq_error {kind : Numbered} {name : QualifiedName} {declared : Int64}
    {e : SchemaError} (h : positiveUid kind name declared = .error e) :
    e = .nonPositiveUid kind name.text declared.toInt ∧ ¬ IsUid declared := by
  unfold positiveUid at h
  split at h
  · cases h
  · rename_i hrange
    refine ⟨(Except.error.inj h).symm, ?_⟩
    rintro ⟨hlow, hhigh⟩
    exact hrange ⟨by omega, by omega⟩

theorem ends_assembleParams (interface operation : QualifiedName) (returns : Bool)
    (seen : List String) (decls : List Document.Param) (d : Draft) :
    (assembleParams interface operation returns seen decls).Ends d
      (fun ps d' => d.Grows d' ∧ List.Forall₂ (fun decl p => Param.Realizes p decl) decls ps ∧
        ParamsFit returns ps ∧ ∀ p ∈ ps, p.name ∉ seen)
      (fun e => e.IsInterfaceFault → ∃ p ∈ decls, p.inbound = false ∧ p.outbound = false ∧
        e = .malformedParameter operation.text p.name) := by
  induction decls generalizing seen d with
  | nil =>
    refine Build.ends_pure ⟨.refl d, .nil, ⟨?_, ?_, ?_⟩, ?_⟩ <;> simp
  | cons p decls ih =>
    rw [assembleParams]
    apply Build.ends_check
    · intro hnone _
      simp only [Bool.and_eq_true, Bool.not_eq_true'] at hnone
      exact ⟨p, List.mem_cons_self, hnone.1, hnone.2, rfl⟩
    intro hdirected
    apply Build.ends_check
    · exact fun _ hfault => hfault.elim
    intro hname
    apply ((ends_resolve interface p.type d).mono (fun _ _ h => h) fun e h hf => absurd hf h).bind
    intro type mid hmid
    refine Build.Ends.bind ((ih (p.name :: seen) mid).mono (fun _ _ h => h) ?_) ?_
    · rintro e h hf
      obtain ⟨q, hq, hfault⟩ := h hf
      exact ⟨q, List.mem_cons_of_mem p hq, hfault⟩
    rintro ps last ⟨hlast, hps, hfit, hseen⟩
    simp only [Bool.or_eq_true, decide_eq_true_eq, Bool.and_eq_true, not_or, not_and,
      and_imp] at hname
    refine Build.ends_pure ⟨hmid.trans hlast, .cons ⟨rfl, rfl, rfl⟩ hps, ⟨?_, ?_, ?_⟩, ?_⟩
    · rintro q hq
      rcases List.mem_cons.mp hq with rfl | hq
      · cases hin : p.inbound <;> cases hout : p.outbound <;> simp_all
      · exact hfit.directed q hq
    · rw [List.map_cons, List.nodup_cons]
      refine ⟨?_, hfit.nodup⟩
      intro hmem
      obtain ⟨q, hq, hsame⟩ := List.mem_map.mp hmem
      exact hseen q hq (by simp [hsame])
    · intro hreturns q hq hout
      rcases List.mem_cons.mp hq with rfl | hq
      · exact hname.2 hreturns hout
      · exact hfit.name_ne hreturns q hq hout
    · intro q hq
      rcases List.mem_cons.mp hq with rfl | hq
      · exact hname.1
      · exact fun hmem => hseen q hq (List.mem_cons_of_mem _ hmem)

theorem ends_returns (scope : QualifiedName) (reference : Option String) (d : Draft) :
    (reference.mapM (resolve scope)).Ends d
      (fun returns d' => d.Grows d' ∧ returns.isSome = reference.isSome) SchemaError.IsOther := by
  cases reference with
  | none => exact Build.ends_pure ⟨.refl d, rfl⟩
  | some reference =>
    rw [Option.mapM_some, map_eq_pure_bind]
    apply (ends_resolve scope reference d).bind
    intro id mid hmid
    exact Build.ends_pure ⟨hmid, rfl⟩

theorem ends_assembleOperation (interface : QualifiedName) (decl : Document.Operation)
    (d : Draft) :
    (assembleOperation interface decl).Ends d
      (fun op d' => d.Grows d' ∧ Operation.Realizes interface decl op)
      (fun e => e.IsInterfaceFault → decl.Breaks interface e) := by
  unfold assembleOperation
  refine Build.Ends.bind (Q := fun uid d' => d = d' ∧ Numbers uid decl.uid)
    (Build.ends_lift (fun uid huid => ⟨rfl, positiveUid_eq_ok huid⟩) ?_) ?_
  · intro e he _
    obtain ⟨rfl, huid⟩ := positiveUid_eq_error he
    exact .uid huid
  rintro uid _ ⟨rfl, huid⟩
  refine Build.Ends.bind ((ends_assembleParams interface (interface.child decl.name)
    decl.returns.isSome [] decl.params d).mono (fun _ _ h => h) ?_) ?_
  · intro e h hf
    obtain ⟨p, hp, hin, hout, rfl⟩ := h hf
    exact .undirected hp hin hout
  rintro ps mid ⟨hmid, hps, hfit, -⟩
  apply Build.ends_check
  · intro hresults _
    simp only [Bool.and_eq_true, Bool.or_eq_true, List.any_eq_true] at hresults
    obtain ⟨honeway, hresults⟩ := hresults
    refine .oneway honeway (hresults.imp_right ?_)
    rintro ⟨p, hp, hout⟩
    obtain ⟨q, hq, hrealizes⟩ := exists_of_mem_right hps hp
    exact ⟨q, hq, hrealizes.outbound_eq.symm.trans hout⟩
  intro hsilent
  apply ((ends_returns interface decl.returns mid).mono (fun _ _ h => h)
    fun e h hf => absurd hf h).bind
  rintro returns last ⟨hlast, hreturns⟩
  refine Build.ends_pure ⟨hmid.trans hlast, rfl, huid, hps, hreturns ▸ hfit, hreturns, rfl, ?_⟩
  intro honeway
  simp only [Bool.and_eq_true, Bool.or_eq_true, List.any_eq_true, not_and, not_or, not_exists,
    Bool.not_eq_true] at hsilent
  obtain ⟨hnone, hinbound⟩ := hsilent honeway
  exact ⟨by simpa [hnone] using hreturns, hinbound⟩

section Numbering

variable {α : Type} {uid : α → UInt32} {name : α → QualifiedName} {items : List α} {u : UInt32}

/-- The numbers of items with the written names of the items, last one first. -/
def numbering (uid : α → UInt32) (name : α → QualifiedName) (items : List α) :
    List (UInt32 × String) :=
  (items.map fun a => (uid a, (name a).text)).reverse

theorem numbering_append_singleton (a : α) :
    numbering uid name (items ++ [a]) = (uid a, (name a).text) :: numbering uid name items := by
  simp [numbering]

theorem exists_of_lookup_numbering {other : String}
    (h : (numbering uid name items).lookup u = some other) :
    ∃ a ∈ items, uid a = u ∧ (name a).text = other := by
  have hmem := List.mem_reverse.mp (mem_of_lookup h)
  obtain ⟨a, ha, hentry⟩ := List.mem_map.mp hmem
  exact ⟨a, ha, Prod.mk.inj hentry⟩

theorem not_mem_of_lookup_numbering (h : (numbering uid name items).lookup u = none) :
    u ∉ items.map uid := by
  intro hmem
  obtain ⟨a, ha, rfl⟩ := List.mem_map.mp hmem
  have hentry : (uid a, (name a).text) ∈ numbering uid name items :=
    List.mem_reverse.mpr (List.mem_map.mpr ⟨a, ha, rfl⟩)
  simpa using List.lookup_eq_none_iff.mp h _ hentry

theorem nodup_map_append_singleton {β : Type} {f : α → β} {a : α} (h : (items.map f).Nodup)
    (ha : f a ∉ items.map f) : ((items ++ [a]).map f).Nodup := by
  rw [List.map_append, List.map_singleton, List.nodup_append_comm, List.singleton_append,
    List.nodup_cons]
  exact ⟨ha, h⟩

end Numbering

/-- The operations that are assembled so far, beside their declarations. -/
structure OperationsDone (interface : QualifiedName) (before : List Document.Operation)
    (done : List Operation) : Prop where
  realized : List.Forall₂ (Operation.Realizes interface) before done
  uids_nodup : (done.map (·.uid)).Nodup
  names_nodup : (done.map (·.name.name)).Nodup

theorem ends_assembleOperations {interface : QualifiedName} {before : List Document.Operation}
    {done : List Operation} (decls : List Document.Operation) (d : Draft)
    (hdone : OperationsDone interface before done) :
    (assembleOperations interface (done.map (·.name.name)).reverse
        (numbering (·.uid) (·.name) done) decls).Ends d
      (fun ops d' => d.Grows d' ∧ OperationsDone interface (before ++ decls) (done ++ ops))
      (fun e => e.IsInterfaceFault → BreaksOperations interface (before ++ decls) e) := by
  induction decls generalizing before done d with
  | nil => exact Build.ends_pure ⟨.refl d, by simpa using hdone⟩
  | cons decl decls ih =>
    rw [assembleOperations]
    apply Build.ends_check
    · exact fun _ hfault => hfault.elim
    intro hname
    refine Build.Ends.bind ((ends_assembleOperation interface decl d).mono (fun _ _ h => h) ?_) ?_
    · intro e h hf
      exact .operation (List.mem_append_right before List.mem_cons_self) (h hf)
    rintro op mid ⟨hmid, hop⟩
    cases hlookup : (numbering (·.uid) (·.name) done).lookup op.uid with
    | some other =>
      refine Build.ends_throw fun _ => ?_
      obtain ⟨earlier, hearlier, huid, rfl⟩ := exists_of_lookup_numbering hlookup
      obtain ⟨first, hfirst, hrealizes⟩ := exists_of_mem_right hdone.realized hearlier
      rw [hop.name_eq, hrealizes.name_eq]
      refine .shared ?_ (huid ▸ hrealizes.numbers.eq.symm) hop.numbers.eq.symm
      exact (List.singleton_sublist.mpr hfirst).append
        (List.singleton_sublist.mpr List.mem_cons_self)
    | none =>
      have hname' : op.name.name = decl.name := by rw [hop.name_eq, QualifiedName.child_name]
      have hnext : OperationsDone interface (before ++ [decl]) (done ++ [op]) := {
        realized := List.rel_append hdone.realized (.cons hop .nil)
        uids_nodup :=
          nodup_map_append_singleton hdone.uids_nodup (not_mem_of_lookup_numbering hlookup)
        names_nodup := by
          apply nodup_map_append_singleton hdone.names_nodup
          rwa [hname', ← List.mem_reverse] }
      have hrest := ih mid hnext
      rw [numbering_append_singleton, List.map_append, List.reverse_append, List.map_singleton,
        hname', List.append_assoc, List.singleton_append] at hrest
      refine Build.Ends.bind hrest ?_
      rintro ops last ⟨hlast, hops⟩
      rw [List.append_assoc, List.singleton_append] at hops
      exact Build.ends_pure ⟨hmid.trans hlast, hops⟩

theorem ends_assembleConstants (scope : QualifiedName) (seen : List String)
    (decls : List Document.Constant) (d : Draft) :
    (assembleConstants scope seen decls).Ends d (fun _ d' => d.Grows d') SchemaError.IsOther := by
  induction decls generalizing seen d with
  | nil => exact Build.ends_pure (.refl d)
  | cons c decls ih =>
    rw [assembleConstants]
    apply Build.ends_check
    · exact fun _ => not_false
    intro _
    apply (ends_resolve scope c.type d).bind
    intro type mid hmid
    apply Build.ends_get_bind
    refine Build.Ends.bind (Q := fun _ d' => mid = d') (Build.ends_lift (fun _ _ => rfl) ?_) ?_
    · intro e he
      unfold checkConstant at he
      split at he
      · cases he
      · obtain rfl := Except.error.inj he
        exact not_false
    rintro _ _ rfl
    apply (ih (c.name :: seen) mid).bind
    intro rest last hlast
    exact Build.ends_pure (hmid.trans hlast)

/-- The interfaces that are assembled so far, beside their declarations. Exceptions are those that
the names say. -/
structure InterfacesDone (names : List (String × Declared)) (before : List NamedInterface)
    (done : List Interface) : Prop where
  realized : List.Forall₂ (fun decl i => Interface.Realizes decl i ∧
    i.exceptions = declaredExceptions { names } i.name (decl.decl.exceptions.map (·.name)))
    before done
  uids_nodup : (done.map (·.uid)).Nodup

/-- A draft in which the numbers of the interfaces so far are taken. -/
structure Draft.Assembling (d : Draft) (before : List NamedInterface) (done : List Interface) :
    Prop extends InterfacesDone d.names before done where
  uids_eq : d.interfaceUids = numbering (·.uid) (·.name) done

theorem ends_assembleInterface {before : List NamedInterface} {done : List Interface}
    (scope : QualifiedName) (decl : Document.Interface) (hd : d.Assembling before done) :
    (assembleInterface scope decl).Ends d
      (fun i d' => d.Keeps d' ∧
        d'.Assembling (before ++ [⟨scope.child decl.name, decl⟩]) (done ++ [i]))
      (fun e => e.IsInterfaceFault →
        BreaksInterfaces (before ++ [⟨scope.child decl.name, decl⟩]) e) := by
  have hlast : (⟨scope.child decl.name, decl⟩ : NamedInterface) ∈
      before ++ [⟨scope.child decl.name, decl⟩] := by simp
  unfold assembleInterface
  refine Build.Ends.bind (Q := fun uid d' => d = d' ∧ Numbers uid decl.uid)
    (Build.ends_lift (fun uid huid => ⟨rfl, positiveUid_eq_ok huid⟩) ?_) ?_
  · intro e he _
    obtain ⟨rfl, huid⟩ := positiveUid_eq_error he
    exact .uid hlast huid
  rintro uid _ ⟨rfl, huid⟩
  apply Build.ends_get_bind
  cases hlookup : d.interfaceUids.lookup uid with
  | some other =>
    refine Build.ends_throw fun _ => ?_
    rw [hd.uids_eq] at hlookup
    obtain ⟨earlier, hearlier, hsame, rfl⟩ := exists_of_lookup_numbering hlookup
    obtain ⟨first, hfirst, hrealizes, -⟩ := exists_of_mem_right hd.realized hearlier
    rw [hrealizes.name_eq]
    have hboth := (List.singleton_sublist.mpr hfirst).append
      (List.Sublist.refl [(⟨scope.child decl.name, decl⟩ : NamedInterface)])
    exact .shared hboth (hsame ▸ hrealizes.numbers.eq.symm) huid.eq.symm
  | none =>
    refine Build.Ends.bind (Build.ends_modify (Q := fun _ d' =>
      d' = { d with interfaceUids := (uid, (scope.child decl.name).text) :: d.interfaceUids }) rfl)
      ?_
    rintro _ numbered rfl
    have hnone : OperationsDone (scope.child decl.name) [] [] := ⟨.nil, by simp, by simp⟩
    refine Build.Ends.bind ((ends_assembleOperations decl.operations _ hnone).mono
      (fun _ _ h => h) ?_) ?_
    · intro e h hf
      exact .operations hlast (h hf)
    rintro ops mid ⟨hmid, hops⟩
    apply Build.ends_get_bind
    apply ((ends_assembleConstants (scope.child decl.name) [] decl.constants mid).mono
      (fun _ _ h => h) fun e h hf => absurd hf h).bind
    intro constants last hgrows
    have hkeeps := hmid.trans hgrows
    refine Build.ends_pure ⟨⟨hkeeps.names_eq, hkeeps.type_eq⟩, ⟨?_, ?_⟩, ?_⟩
    · rw [hkeeps.names_eq]
      refine List.rel_append hd.realized
        (.cons ⟨⟨rfl, huid, hops.realized, hops.uids_nodup, ?_⟩, ?_⟩ .nil)
      · have hnames : ((ops.map (·.name)).map (·.name)).Nodup := by
          rw [List.map_map]
          exact hops.names_nodup
        exact hnames.of_map
      · rw [declaredExceptions, declaredExceptions, hmid.names_eq]
    · apply nodup_map_append_singleton hd.uids_nodup
      rw [hd.uids_eq] at hlookup
      exact not_mem_of_lookup_numbering hlookup
    · rw [hkeeps.uids_eq, numbering_append_singleton, hd.uids_eq]

theorem ends_assembleInterfaces {before : List NamedInterface} {done : List Interface}
    (scope : QualifiedName) (decls : List Document.Interface) (hd : d.Assembling before done) :
    (decls.mapM (assembleInterface scope)).Ends d
      (fun is d' => d.Keeps d' ∧ d'.Assembling
        (before ++ decls.map fun decl => ⟨scope.child decl.name, decl⟩) (done ++ is))
      (fun e => e.IsInterfaceFault →
        BreaksInterfaces (before ++ decls.map fun decl => ⟨scope.child decl.name, decl⟩) e) := by
  induction decls generalizing before done d with
  | nil => exact Build.ends_pure ⟨(Draft.Grows.refl d).toKeeps, by simpa using hd⟩
  | cons decl decls ih =>
    rw [List.mapM_cons, List.map_cons, ← List.singleton_append, ← List.append_assoc]
    refine Build.Ends.bind ((ends_assembleInterface scope decl hd).mono (fun _ _ h => h) ?_) ?_
    · intro e h hf
      exact (h hf).mono (List.sublist_append_left _ _)
    rintro i mid ⟨hmid, hnext⟩
    apply (ih hnext).bind
    rintro is last ⟨hlast, hdone⟩
    rw [List.append_assoc done] at hdone
    exact Build.ends_pure ⟨hmid.trans hlast, hdone⟩

mutual

theorem ends_assembleModule {d : Draft} {before : List NamedInterface} {done : List Interface}
    (name : QualifiedName) (decl : Document.Module) (hd : d.Assembling before done) :
    (assembleModule name decl).Ends d
      (fun m d' => d.Keeps d' ∧
        d'.Assembling (before ++ decl.namedInterfaces name) (done ++ m.allInterfaces))
      (fun e => e.IsInterfaceFault → BreaksInterfaces (before ++ decl.namedInterfaces name) e) := by
  obtain ⟨own, modules, types, decls, constants⟩ := decl
  rw [assembleModule, Document.Module.namedInterfaces, ← List.append_assoc]
  apply Build.ends_get_bind
  apply ((ends_assembleConstants name [] constants d).mono (fun _ _ h => h)
    fun e h hf => absurd hf h).bind
  intro cs mid hmid
  have hstart : mid.Assembling before done := by
    refine ⟨?_, hmid.uids_eq.trans hd.uids_eq⟩
    rw [hmid.names_eq]
    exact hd.toInterfacesDone
  refine Build.Ends.bind ((ends_assembleInterfaces name decls hstart).mono (fun _ _ h => h) ?_) ?_
  · intro e h hf
    exact (h hf).mono (List.sublist_append_left _ _)
  rintro is mid' ⟨hmid', his⟩
  apply (ends_assembleModules name modules his).bind
  rintro ms last ⟨hlast, hms⟩
  rw [List.append_assoc done] at hms
  exact Build.ends_pure ⟨(hmid.toKeeps.trans hmid').trans hlast, hms⟩

/-- Interfaces are assembled one after the other in the whole tree of modules. -/
theorem ends_assembleModules {d : Draft} {before : List NamedInterface} {done : List Interface}
    (scope : QualifiedName) (decls : List Document.Module) (hd : d.Assembling before done) :
    (assembleModules scope decls).Ends d
      (fun ms d' => d.Keeps d' ∧ d'.Assembling
        (before ++ Document.namedInterfacesOf scope decls) (done ++ interfacesOf ms))
      (fun e => e.IsInterfaceFault →
        BreaksInterfaces (before ++ Document.namedInterfacesOf scope decls) e) := by
  cases decls with
  | nil =>
    rw [assembleModules, Document.namedInterfacesOf]
    exact Build.ends_pure ⟨(Draft.Grows.refl d).toKeeps, by simpa [interfacesOf] using hd⟩
  | cons decl decls =>
    rw [assembleModules, Document.namedInterfacesOf, ← List.append_assoc]
    refine Build.Ends.bind ((ends_assembleModule _ decl hd).mono (fun _ _ h => h) ?_) ?_
    · intro e h hf
      exact (h hf).mono (List.sublist_append_left _ _)
    rintro m mid ⟨hmid, hm⟩
    apply (ends_assembleModules scope decls hm).bind
    rintro ms last ⟨hlast, hms⟩
    rw [List.append_assoc done] at hms
    exact Build.ends_pure ⟨hmid.trans hlast, hms⟩

end

end Schema
end WireSchema
