import WireSchema.Proofs.Schema.Integrity
import WireSchema.Proofs.Schema.Waiting

/-!
# The rules for interfaces

A document is accepted only if its interfaces obey every rule about numbers, names, directions and
oneway operations, and the schema then has them all in their order. An error about one of these
rules is given only for a document that breaks it, and it names the place.
-/
namespace WireSchema.Schema

open Document (NamedInterface BreaksOperations BreaksInterfaces)

variable {doc : Document} {s : Schema}

theorem ParamsFit.nodup_filter {returns : Bool} {ps : List Param} (h : ParamsFit returns ps)
    (selected : Param → Bool) : ((ps.filter selected).map (·.name)).Nodup :=
  h.nodup.sublist (List.filter_sublist.map _)

/-- What holds of every operation of a schema. The request lists the inbound parameters. The
response, which only oneway operations lack, lists the outbound ones and then what is returned. -/
structure Operation.IsProper (op : Operation) : Prop where
  uid_pos : 1 ≤ op.uid.toNat
  uid_le : op.uid.toNat ≤ 2 ^ 32 - 1
  directed : ∀ p ∈ op.params, p.inbound = true ∨ p.outbound = true
  silent : op.oneway = true → op.returns = none ∧ ∀ p ∈ op.params, p.outbound = false
  request_eq : op.request.members = (op.params.filter (·.inbound)).map fun p => ⟨p.name, p.type⟩
  request_nodup : (op.request.members.map (·.name)).Nodup
  response_none : op.oneway = true → op.response? = none
  response_some : op.oneway = false → ∃ r, op.response? = some r ∧
    r.members = (op.params.filter (·.outbound)).map (fun p => ⟨p.name, p.type⟩) ++
      (op.returns.map fun type => ⟨"return_value", type⟩).toList ∧
    (r.members.map (·.name)).Nodup

theorem nodup_responseMembers {op : Operation} (h : ParamsFit op.returns.isSome op.params) :
    (op.responseMembers.map (·.name)).Nodup := by
  have hnames : op.responseMembers.map (·.name) =
      (op.params.filter (·.outbound)).map (·.name) ++
        op.returns.toList.map fun _ => returnMember := by
    simp [Operation.responseMembers, Function.comp_def]
  rw [hnames]
  cases hreturns : op.returns with
  | none => simpa using h.nodup_filter (·.outbound)
  | some type =>
    rw [Option.toList_some, List.map_singleton, List.nodup_append_comm, List.singleton_append,
      List.nodup_cons]
    refine ⟨?_, h.nodup_filter (·.outbound)⟩
    intro hmem
    obtain ⟨p, hp, hname⟩ := List.mem_map.mp hmem
    obtain ⟨hp, hout⟩ := List.mem_filter.mp hp
    exact h.name_ne (by simp [hreturns]) p hp hout hname

theorem Operation.Realizes.isProper {interface : QualifiedName} {decl : Document.Operation}
    {op : Operation} (h : Operation.Realizes interface decl op) : op.IsProper where
  uid_pos := by
    have hpos := h.numbers.isUid.1
    have heq := h.numbers.eq
    omega
  uid_le := by
    have hlt := op.uid.toNat_lt
    omega
  directed := h.paramsFit.directed
  silent := h.silent
  request_eq := rfl
  request_nodup := by
    have hnames := h.paramsFit.nodup_filter (·.inbound)
    simpa [Operation.request, Function.comp_def] using hnames
  response_none honeway := by rw [Operation.response?, if_pos honeway]
  response_some honeway := by
    refine ⟨_, by rw [Operation.response?, if_neg (by simp [honeway])], ?_, ?_⟩
    · cases hreturns : op.returns <;> simp [Operation.responseMembers, hreturns, returnMember]
    · exact nodup_responseMembers h.paramsFit

/-- A part of a list has beside it a part of the other list. -/
theorem exists_sublist_of_forall₂ {α β : Type} {R : α → β → Prop} {as part : List α} {bs : List β}
    (h : List.Forall₂ R as bs) (hpart : part.Sublist as) :
    ∃ other, List.Forall₂ R part other ∧ other.Sublist bs := by
  induction hpart generalizing bs with
  | slnil => exact ⟨[], .nil, List.nil_sublist _⟩
  | cons a _ ih =>
    obtain ⟨b, rest, -, hrest, rfl⟩ := List.forall₂_cons_left_iff.mp h
    obtain ⟨other, hother, hsub⟩ := ih hrest
    exact ⟨other, hother, hsub.cons b⟩
  | cons_cons a _ ih =>
    obtain ⟨b, rest, hab, hrest, rfl⟩ := List.forall₂_cons_left_iff.mp h
    obtain ⟨other, hother, hsub⟩ := ih hrest
    exact ⟨b :: other, .cons hab hother, hsub.cons_cons b⟩

theorem ne_of_pair_sublist {α β : Type} {f : α → β} {items : List α} {a b : α}
    (hnodup : (items.map f).Nodup) (h : [a, b].Sublist items) : f a ≠ f b := by
  have hpair := hnodup.sublist (h.map f)
  simpa using hpair

theorem Numbers.eq_of_eq {uid uid' : UInt32} {declared declared' : Int64} (h : Numbers uid declared)
    (h' : Numbers uid' declared') (hsame : declared.toInt = declared'.toInt) : uid = uid' := by
  have heq := h.eq
  have heq' := h'.eq
  apply UInt32.toNat_inj.mp
  omega

theorem Operation.Realizes.not_breaks {interface : QualifiedName} {decl : Document.Operation}
    {op : Operation} (h : Operation.Realizes interface decl op) (e : SchemaError) :
    ¬ decl.Breaks interface e := by
  intro hbreaks
  cases hbreaks with
  | uid huid => exact huid h.numbers.isUid
  | undirected hp hin hout =>
    obtain ⟨p, hp, hrealizes⟩ := exists_of_mem_left h.params hp
    rcases h.paramsFit.directed p hp with hdirected | hdirected
    · rw [hrealizes.inbound_eq, hin] at hdirected
      cases hdirected
    · rw [hrealizes.outbound_eq, hout] at hdirected
      cases hdirected
  | oneway honeway hresults =>
    obtain ⟨hnone, hinbound⟩ := h.silent (h.oneway_eq.trans honeway)
    rcases hresults with hreturns | ⟨p, hp, hout⟩
    · rw [← h.returns_eq, hnone] at hreturns
      cases hreturns
    · obtain ⟨q, hq, hrealizes⟩ := exists_of_mem_left h.params hp
      have hsilent := hinbound q hq
      rw [hrealizes.outbound_eq, hout] at hsilent
      cases hsilent

theorem Interface.Realizes.not_breaks {decl : NamedInterface} {i : Interface}
    (h : Interface.Realizes decl i) (e : SchemaError) :
    ¬ BreaksOperations decl.name decl.decl.operations e := by
  intro hbreaks
  cases hbreaks with
  | operation hop hbreaks =>
    obtain ⟨op, -, hrealizes⟩ := exists_of_mem_left h.operations hop
    rw [h.name_eq] at hrealizes
    exact hrealizes.not_breaks e hbreaks
  | shared hpair hfirst hsecond =>
    obtain ⟨ops, hops, hsub⟩ := exists_sublist_of_forall₂ h.operations hpair
    obtain ⟨a, rest, ha, hrest, rfl⟩ := List.forall₂_cons_left_iff.mp hops
    obtain ⟨b, rest, hb, hnil, rfl⟩ := List.forall₂_cons_left_iff.mp hrest
    obtain rfl := List.forall₂_nil_left_iff.mp hnil
    apply ne_of_pair_sublist h.uids_nodup hsub
    exact ha.numbers.eq_of_eq hb.numbers (hfirst.trans hsecond.symm)

theorem not_breaks_of_build (h : build doc = .ok s) (e : SchemaError) :
    ¬ BreaksInterfaces doc.interfaces e := by
  obtain ⟨hbuilt, hnodup⟩ := interfaces_of_build h
  have hrealized := hbuilt.imp fun _ _ hboth => hboth.toRealizes
  intro hbreaks
  cases hbreaks with
  | uid hi huid =>
    obtain ⟨i, -, hrealizes⟩ := exists_of_mem_left hrealized hi
    exact huid hrealizes.numbers.isUid
  | operations hi hbreaks =>
    obtain ⟨i, -, hrealizes⟩ := exists_of_mem_left hrealized hi
    exact hrealizes.not_breaks e hbreaks
  | shared hpair hfirst hsecond =>
    obtain ⟨is, his, hsub⟩ := exists_sublist_of_forall₂ hrealized hpair
    obtain ⟨a, rest, ha, hrest, rfl⟩ := List.forall₂_cons_left_iff.mp his
    obtain ⟨b, rest, hb, hnil, rfl⟩ := List.forall₂_cons_left_iff.mp hrest
    obtain rfl := List.forall₂_nil_left_iff.mp hnil
    apply ne_of_pair_sublist hnodup hsub
    exact ha.numbers.eq_of_eq hb.numbers (hfirst.trans hsecond.symm)

/-- An accepted document breaks no rule for interfaces. Its schema has each declared interface with
its declared number and operations; numbers of interfaces are in range and differ in the whole
document, names and numbers of operations differ in their interface, and every operation is proper.
A document that is rejected with an error about one of these rules breaks that rule. -/
theorem build_obeys_interface_rules (doc : Document) :
    (∀ s, build doc = .ok s →
      (∀ e, ¬ BreaksInterfaces doc.interfaces e) ∧
      List.Forall₂ Interface.Realizes doc.interfaces s.interfaces ∧
      (∀ i ∈ s.interfaces, 1 ≤ i.uid.toNat ∧ i.uid.toNat ≤ 2 ^ 32 - 1) ∧
      (s.interfaces.map (·.uid)).Nodup ∧
      ∀ i ∈ s.interfaces, (i.operations.map (·.name)).Nodup ∧ (i.operations.map (·.uid)).Nodup ∧
        ∀ op ∈ i.operations, op.IsProper) ∧
    ∀ e, build doc = .error e → e.IsInterfaceFault → BreaksInterfaces doc.interfaces e := by
  constructor
  · intro s h
    obtain ⟨hbuilt, hnodup⟩ := interfaces_of_build h
    have hrealized := hbuilt.imp fun _ _ hboth => hboth.toRealizes
    refine ⟨not_breaks_of_build h, hrealized, ?_, hnodup, ?_⟩
    · intro i hi
      obtain ⟨decl, -, hrealizes⟩ := exists_of_mem_right hrealized hi
      have hpos := hrealizes.numbers.isUid.1
      have heq := hrealizes.numbers.eq
      have hlt := i.uid.toNat_lt
      omega
    · intro i hi
      obtain ⟨decl, -, hrealizes⟩ := exists_of_mem_right hrealized hi
      refine ⟨hrealizes.names_nodup, hrealizes.uids_nodup, ?_⟩
      intro op hop
      obtain ⟨declared, -, hoperation⟩ := exists_of_mem_right hrealizes.operations hop
      exact hoperation.isProper
  · intro e h hfault
    exact (ends_construct doc).of_error (construct_of_build_eq_error h) hfault

/-- Two interfaces, one of them in a module inside, that have the same number. -/
def rivals : Document where
  modules := [{
    name := "outer"
    modules := [{
      name := "inner"
      modules := []
      types := []
      interfaces := [⟨"Second", 7, [], [], []⟩]
      constants := [] }]
    types := []
    interfaces := [⟨"First", 7, [], [], []⟩]
    constants := [] }]

theorem build_obeys_interface_rules_hub :
    (∃ s, build hub = .ok s ∧ (∀ e, ¬ BreaksInterfaces hub.interfaces e) ∧
      List.Forall₂ Interface.Realizes hub.interfaces s.interfaces) ∧
    build rivals = .error (.duplicateUid .interface "outer::inner::Second" 7 "outer::First") ∧
    BreaksInterfaces rivals.interfaces
      (.duplicateUid .interface "outer::inner::Second" 7 "outer::First") := by
  constructor
  · have hbuilt : (build hub).toOption.isSome = true := by decide +kernel
    cases h : build hub with
    | error e =>
      rw [h] at hbuilt
      cases hbuilt
    | ok s =>
      obtain ⟨hnone, hrealized, -⟩ := (build_obeys_interface_rules hub).1 s h
      exact ⟨s, rfl, hnone, hrealized⟩
  · have hfault : (match build rivals with
        | .ok _ => none
        | .error e => some e) =
        some (.duplicateUid .interface "outer::inner::Second" 7 "outer::First") := by
      decide +kernel
    cases h : build rivals with
    | ok s =>
      rw [h] at hfault
      cases hfault
    | error e =>
      rw [h] at hfault
      obtain rfl := Option.some.inj hfault
      exact ⟨rfl, (build_obeys_interface_rules rivals).2 _ h trivial⟩

end WireSchema.Schema
