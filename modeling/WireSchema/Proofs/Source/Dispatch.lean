import WireSchema.Proofs.Dispatch
import WireSchema.Proofs.Source.Arms
import WireSchema.Proofs.Source.Emission

/-!
# Emitted dispatch agrees with the dispatch tables

The matches in the file of an interface have the keys of the interface's tables and make the types
that the tables have for them. Requests are paired with responses by the identifiers of their
variants, the tables by operation numbers. The two agree because operations claim their identifiers.
-/
namespace WireSchema.Source

open Identifier Schema

variable {t : Target} {i : Interface}

def pairingOf (t : Target) (i : Interface) (v : Variant) : Pairing where
  request := ((t.requests i).ident, v.ident)
  response :=
    if v.ident ∈ Target.onewayIdents i then none else some ((t.responses i).ident, v.ident)

theorem notMem_camel {x : Char} (hx : Text.IsPunctuation x) (hunder : x ≠ '_') (hhash : x ≠ '#')
    {name suffix : String} (hsuffix : x ∉ suffix.toList) : x ∉ (camel name ++ suffix).toList := by
  rw [String.toList_append, List.mem_append, not_or]
  exact ⟨punctuation_notMem_camel hx hunder hhash name, hsuffix⟩

theorem colon_notMem_camel {name suffix : String} (hsuffix : ':' ∉ suffix.toList) :
    ':' ∉ (camel name ++ suffix).toList :=
  notMem_camel ⟨by decide, by decide⟩ (by decide) (by decide) hsuffix

theorem bracket_notMem_camel (name : String) : '(' ∉ (camel name).toList :=
  punctuation_notMem_camel ⟨by decide, by decide⟩ (by decide) (by decide) name

theorem plain_requests : (t.requests i).Plain := by
  refine ⟨colon_notMem_camel (by decide), ?_⟩
  intro v hv
  obtain ⟨op, -, rfl⟩ := List.mem_map.mp hv
  exact bracket_notMem_camel op.name.name

theorem plain_responses : (t.responses i).Plain := by
  refine ⟨colon_notMem_camel (by decide), ?_⟩
  intro v hv
  obtain ⟨op, -, hv⟩ := List.mem_filterMap.mp hv
  obtain ⟨r, -, rfl⟩ := Option.map_eq_some_iff.mp hv
  exact bracket_notMem_camel op.name.name

theorem plain_exceptions : (t.exceptions i).Plain := by
  refine ⟨colon_notMem_camel (by decide), ?_⟩
  intro v hv
  obtain ⟨r, -, rfl⟩ := List.mem_map.mp hv
  exact bracket_notMem_camel r.name.name

theorem readPairings?_responseArms {variants : List Variant}
    (hvariants : ∀ v ∈ variants, '(' ∉ v.ident.toList) :
    readPairings? (variants.map (t.responseArm i)) = some (variants.map (pairingOf t i)) := by
  have hrequest := (plain_requests (t := t) (i := i)).ident
  have hresponse := (plain_responses (t := t) (i := i)).ident
  induction variants with
  | nil => rfl
  | cons v variants ih =>
    have hv := hvariants v List.mem_cons_self
    have hrest := ih fun w hw => hvariants w (.tail _ hw)
    have harm : ∃ text, t.responseArm i v = .line text ∧
        readPairing? text.toList = some (pairingOf t i v) := by
      unfold Target.responseArm pairingOf
      split_ifs with honeway
      · exact ⟨_, rfl, readPairing?_none hrequest hv⟩
      · exact ⟨_, rfl, readPairing?_some hrequest hresponse hv⟩
    obtain ⟨text, htext, hpairing⟩ := harm
    rw [List.map_cons, List.map_cons, htext, readPairings?, hpairing, hrest]
    rfl

/-- The headers of all blocks start with the same word. -/
def Opens (start : String) (steps : List Step) : Prop :=
  ∀ header body, Step.block header body ∈ steps → ∃ rest, header = start ++ rest

theorem Opens.append {start : String} {a b : List Step} (ha : Opens start a) (hb : Opens start b) :
    Opens start (a ++ b) := by
  intro header body hmem
  rcases List.mem_append.mp hmem with hmem | hmem
  · exact ha header body hmem
  · exact hb header body hmem

theorem block?_impl_of_opens {before rest : List Step} {ident : String} (h : Opens "pub " before) :
    block? (· == "impl " ++ ident) (before ++ rest) = block? (· == "impl " ++ ident) rest := by
  refine block?_append_of_not_selected fun header body hmem => ?_
  obtain ⟨suffix, rfl⟩ := h header body hmem
  exact beq_false_of_ne (Target.header_ne 0 (by decide) suffix ident)

theorem opens_declaration (d : DispatchEnum) : Opens "pub " d.declaration := by
  intro header body hmem
  simp only [DispatchEnum.declaration, List.mem_cons, reduceCtorEq, Step.block.injEq,
    List.not_mem_nil, or_false, false_or] at hmem
  exact ⟨"enum " ++ d.ident, by rw [hmem.1, ← String.append_assoc]; rfl⟩

def interfaceFront (t : Target) (i : Interface) (children : List Child) : List Step :=
  t.codecHeader i.name ++ (if i.constants.isEmpty then [] else constantsModule) ++
    children.flatMap Child.lines ++ [.blank] ++ t.numberSteps i

theorem opens_interfaceFront {children : List Child} :
    Opens "pub " (interfaceFront t i children) := by
  have hheader : Opens "pub " (t.codecHeader i.name) := by
    intro header body hmem
    simp [Target.codecHeader, Source.header] at hmem
  have hconstants : Opens "pub " (if i.constants.isEmpty then [] else constantsModule) := by
    intro header body hmem
    split at hmem <;> simp [constantsModule] at hmem
  have hchildren : Opens "pub " (children.flatMap Child.lines) := by
    intro header body hmem
    obtain ⟨child, -, hmem⟩ := List.mem_flatMap.mp hmem
    simp [Child.lines, moduleLine, useLine] at hmem
  have hblank : Opens "pub " [.blank] := by
    intro header body hmem
    simp at hmem
  have hnumbers : Opens "pub " (t.numberSteps i) := by
    intro header body hmem
    simp only [Target.numberSteps, List.mem_cons, reduceCtorEq, Step.block.injEq,
      List.not_mem_nil, or_false, false_or] at hmem
    rcases hmem with ⟨rfl, -⟩ | ⟨rfl, -⟩
    · exact ⟨"fn version() -> u32", rfl⟩
    · exact ⟨"fn program_number() -> u32", rfl⟩
  exact (((hheader.append hconstants).append hchildren).append hblank).append hnumbers

theorem impl_ne {a b : String} (h : a ≠ b) (name : String) :
    "impl " ++ (camel name ++ a) ≠ "impl " ++ (camel name ++ b) := by
  intro heq
  simp only [String.append_right_inj] at heq
  exact h heq

section Blocks

variable {children : List Child}

theorem interfaceSteps_eq : t.interfaceSteps i children = interfaceFront t i children ++
    ((t.requests i).declaration ++ (.block ("impl " ++ (t.requests i).ident)
      ([.line "/// An empty request for `operation_number`."] ++
        (t.requests i).functions t (t.pairing i)) :: .blank ::
      ((t.responses i).declaration ++ (.block ("impl " ++ (t.responses i).ident)
        ([] ++ (t.responses i).functions t []) :: .blank ::
        t.exceptionSteps i)))) := by
  simp only [Target.interfaceSteps, interfaceFront, Target.requestSteps, Target.responseSteps,
    List.append_assoc]
  rfl

theorem block?_requests :
    block? (· == "impl " ++ (t.requests i).ident) (t.interfaceSteps i children) =
      some ([.line "/// An empty request for `operation_number`."] ++
        (t.requests i).functions t (t.pairing i)) := by
  rw [interfaceSteps_eq, block?_impl_of_opens opens_interfaceFront,
    block?_impl_of_opens (opens_declaration _)]
  exact Target.block?_cons_self

theorem block?_responses :
    block? (· == "impl " ++ (t.responses i).ident) (t.interfaceSteps i children) =
      some ([] ++ (t.responses i).functions t []) := by
  have hrequests : "impl " ++ (t.requests i).ident ≠ "impl " ++ (t.responses i).ident :=
    impl_ne (by decide) i.name.name
  rw [interfaceSteps_eq, block?_impl_of_opens opens_interfaceFront,
    block?_impl_of_opens (opens_declaration _), Target.block?_cons_of_ne hrequests,
    Target.block?_blank, block?_impl_of_opens (opens_declaration _)]
  exact Target.block?_cons_self

theorem block?_exceptions :
    block? (· == "impl " ++ (t.exceptions i).ident) (t.interfaceSteps i children) =
      some ([] ++ (t.exceptions i).functions t []) := by
  have hrequests : "impl " ++ (t.requests i).ident ≠ "impl " ++ (t.exceptions i).ident :=
    impl_ne (by decide) i.name.name
  have hresponses : "impl " ++ (t.responses i).ident ≠ "impl " ++ (t.exceptions i).ident :=
    impl_ne (by decide) i.name.name
  rw [interfaceSteps_eq, block?_impl_of_opens opens_interfaceFront,
    block?_impl_of_opens (opens_declaration _), Target.block?_cons_of_ne hrequests,
    Target.block?_blank, block?_impl_of_opens (opens_declaration _),
    Target.block?_cons_of_ne hresponses, Target.block?_blank, Target.exceptionSteps,
    block?_impl_of_opens (opens_declaration _)]
  exact Target.block?_cons_self

theorem pairings?_eq :
    pairings? (t.interfaceSteps i children) (t.requests i).ident =
      some ((t.requests i).variants.map (pairingOf t i)) := by
  have hcomment : ∀ header body, Step.block header body ∉
      [Step.line "/// An empty request for `operation_number`."] := by simp
  have hbody : enumFunction? (t.interfaceSteps i children) (t.requests i).ident
      "pub fn create_default_response(&self) -> Option<" =
      some [if (t.requests i).variants.isEmpty then .line "match *self \x7b\x7d"
        else .block "match self" ((t.requests i).variants.map (t.responseArm i))] := by
    rw [enumFunction?_eq hcomment block?_requests]
    refine (Target.block?_cons_of_not_selected ?_).trans (Target.block?_blank.trans
      ((Target.block?_cons_of_not_selected ?_).trans (Target.block?_blank.trans
        ((Target.block?_cons_of_not_selected ?_).trans (Target.block?_blank.trans
          (Target.block?_line.trans (Target.block?_cons_of_selected ?_)))))))
    · simp only [String.append_assoc, String.toList_append]
      rfl
    · simp only [String.append_assoc, String.toList_append]
      rfl
    · change "pub fn create_default_response(&self) -> Option<".toList.isPrefixOf
        ("pub fn " ++ "operation_number" ++ "(&self) -> " ++ "u32").toList = false
      decide
    · simp only [String.append_assoc]
      exact Target.isPrefixOf_append ..
  rw [pairings?, hbody]
  by_cases hempty : (t.requests i).variants.isEmpty
  · rw [if_pos hempty, List.isEmpty_iff.mp hempty]
    rfl
  · rw [if_neg hempty]
    exact (if_pos rfl).trans (readPairings?_responseArms plain_requests.variants)

end Blocks

/-- The emitted matches on the keys of an enumeration, where `Has k r` says that a dispatch table
has the record `r` under the key `k`. -/
structure Emitted (t : Target) (file : List Step) (enum key : String)
    (Has : DispatchKey → RecordType → Prop) (variants : List Variant) : Prop where
  create_eq : createArms? file enum key = some (variants.map fun v => (enum, v))
  decode_eq : decodeArms? file enum key = some (variants.map fun v => (enum, v))
  keys_nodup : (variants.map (·.key)).Nodup
  idents_nodup : (variants.map (·.ident)).Nodup
  mem_keys_iff : ∀ k, k ∈ variants.map (·.key) ↔ ∃ r, Has k r
  path_eq : ∀ v ∈ variants, ∀ r, Has v.key r → v.path = t.path r.name

/-- A request is paired with nothing exactly if its operation is not answered, and otherwise with
the response of the same operation. -/
structure PairsAs (d : Dispatch) (request response : String) (responses : List Variant)
    (v : Variant) (p : Pairing) : Prop where
  request_eq : p.request = (request, v.ident)
  response_eq_none_iff : ∀ n, v.key = .number n →
    (p.response = none ↔ d.defaultResponse n = .ok none)
  response_eq : ∀ answer, p.response = some answer →
    ∃ w ∈ responses, w.key = v.key ∧ answer = (response, w.ident)

/-- The file of an interface dispatches as the tables of the interface do. -/
structure Dispatches (t : Target) (i : Interface) (file : List Step)
    (requests responses exceptions : List Variant) (pairings : List Pairing) : Prop where
  emits_requests : Emitted t file (camel i.name.name ++ "Request") "operation_number"
    (fun k r => ∃ n op, k = .number n ∧
      (Dispatch.ofInterface t.schema t.config i).requests[n]? = some op ∧ op.request = r) requests
  emits_responses : Emitted t file (camel i.name.name ++ "Response") "operation_number"
    (fun k r => ∃ n, k = .number n ∧
      (Dispatch.ofInterface t.schema t.config i).responses[n]? = some r) responses
  emits_exceptions : Emitted t file (camel i.name.name ++ "Exception") "type_name"
    (fun k r => ∃ name, k = .wireName name ∧
      (Dispatch.ofInterface t.schema t.config i).exceptions[name]? = some r) exceptions
  pairings_eq : pairings? file (camel i.name.name ++ "Request") = some pairings
  pairsAs : List.Forall₂ (PairsAs (Dispatch.ofInterface t.schema t.config i)
    (camel i.name.name ++ "Request") (camel i.name.name ++ "Response") responses) requests pairings

section Tables

variable {children : List Child} {decl : Document.NamedInterface}

theorem emitted_requests (hbuilt : Interface.Built t.schema decl i)
    (hidents : (i.operations.map (camel ·.name.name)).Nodup) :
    Emitted t (t.interfaceSteps i children) (t.requests i).ident (t.requests i).kind.key
      (fun k r => ∃ n op, k = .number n ∧
        (Dispatch.ofInterface t.schema t.config i).requests[n]? = some op ∧ op.request = r)
      (t.requests i).variants := by
  have hcomment : ∀ header body, Step.block header body ∉
      [Step.line "/// An empty request for `operation_number`."] := by simp
  have hkeys : (t.requests i).variants.map (·.key) =
      (i.operations.map (·.uid)).map DispatchKey.number := by
    rw [Target.requests, List.map_map, List.map_map]
    rfl
  have hspelt : (t.requests i).variants.map (·.ident) = i.operations.map (camel ·.name.name) := by
    rw [Target.requests, List.map_map]
    rfl
  refine ⟨createArms?_eq plain_requests hcomment block?_requests,
    decodeArms?_eq plain_requests hcomment block?_requests, ?_, hspelt ▸ hidents, ?_, ?_⟩
  · rw [hkeys]
    exact hbuilt.uids_nodup.map fun _ _ => DispatchKey.number.inj
  · intro k
    simp only [hkeys, List.mem_map, Dispatch.getElem?_requests hbuilt.uids_nodup]
    constructor
    · rintro ⟨uid, ⟨op, hop, rfl⟩, rfl⟩
      exact ⟨op.request, op.uid, op, rfl, ⟨hop, rfl⟩, rfl⟩
    · rintro ⟨r, n, op, rfl, ⟨hop, rfl⟩, -⟩
      exact ⟨op.uid, ⟨op, hop, rfl⟩, rfl⟩
  · intro v hv r hr
    obtain ⟨op, hop, rfl⟩ := List.mem_map.mp hv
    obtain ⟨n, other, hkey, hfound, rfl⟩ := hr
    obtain rfl := DispatchKey.number.inj hkey
    obtain ⟨hother, huid⟩ := (Dispatch.getElem?_requests hbuilt.uids_nodup).mp hfound
    rw [List.inj_on_of_nodup_map hbuilt.uids_nodup hother hop huid]

theorem emitted_responses (hbuilt : Interface.Built t.schema decl i)
    (hidents : (i.operations.map (camel ·.name.name)).Nodup) :
    Emitted t (t.interfaceSteps i children) (t.responses i).ident (t.responses i).kind.key
      (fun k r => ∃ n, k = .number n ∧
        (Dispatch.ofInterface t.schema t.config i).responses[n]? = some r)
      (t.responses i).variants := by
  have hcomment : ∀ header body, Step.block header body ∉ ([] : List Step) := by simp
  have hmem : ∀ v, v ∈ (t.responses i).variants ↔ ∃ op ∈ i.operations, ∃ r,
      op.response? = some r ∧ ⟨camel op.name.name, t.path r.name, .number op.uid⟩ = v := by
    intro v
    simp only [Target.responses, List.mem_filterMap, Option.map_eq_some_iff]
  refine ⟨createArms?_eq plain_responses hcomment block?_responses,
    decodeArms?_eq plain_responses hcomment block?_responses, ?_, ?_, ?_, ?_⟩
  · have hnumbers : (i.operations.map fun op => DispatchKey.number op.uid).Nodup := by
      rw [← Function.comp_def, ← List.map_map]
      exact hbuilt.uids_nodup.map fun _ _ => DispatchKey.number.inj
    refine hnumbers.sublist (Dispatch.map_filterMap_sublist ?_ i.operations)
    intro op v hv
    obtain ⟨r, -, rfl⟩ := Option.map_eq_some_iff.mp hv
    rfl
  · refine hidents.sublist (Dispatch.map_filterMap_sublist ?_ i.operations)
    intro op v hv
    obtain ⟨r, -, rfl⟩ := Option.map_eq_some_iff.mp hv
    rfl
  · intro k
    simp only [List.mem_map, hmem, Dispatch.getElem?_responses hbuilt.uids_nodup]
    constructor
    · rintro ⟨v, ⟨op, hop, r, hr, rfl⟩, rfl⟩
      exact ⟨r, op.uid, rfl, op, hop, rfl, hr⟩
    · rintro ⟨r, n, rfl, op, hop, rfl, hr⟩
      exact ⟨_, ⟨op, hop, r, hr, rfl⟩, rfl⟩
  · intro v hv r hr
    obtain ⟨op, hop, own, hown, rfl⟩ := (hmem v).mp hv
    obtain ⟨n, hkey, hfound⟩ := hr
    obtain rfl := DispatchKey.number.inj hkey
    obtain ⟨other, hother, huid, hr⟩ := (Dispatch.getElem?_responses hbuilt.uids_nodup).mp hfound
    obtain rfl := List.inj_on_of_nodup_map hbuilt.uids_nodup hother hop huid
    rw [Option.some.inj (hown.symm.trans hr)]

theorem emitted_exceptions (hbuilt : Interface.Built t.schema decl i)
    (hspelt : ((t.exceptionRecords i).map (camel ·.name.name)).Nodup) :
    Emitted t (t.interfaceSteps i children) (t.exceptions i).ident (t.exceptions i).kind.key
      (fun k r => ∃ name, k = .wireName name ∧
        (Dispatch.ofInterface t.schema t.config i).exceptions[name]? = some r)
      (t.exceptions i).variants := by
  have hcomment : ∀ header body, Step.block header body ∉ ([] : List Step) := by simp
  have hrecords : t.exceptionRecords i =
      i.exceptions.filterMap (Dispatch.exceptionRecord? t.schema) := rfl
  have hnames : ((t.exceptionRecords i).map fun r => t.config.wireName r.name).Nodup :=
    Dispatch.nodup_exceptionKeys hbuilt
  refine ⟨createArms?_eq plain_exceptions hcomment block?_exceptions,
    decodeArms?_eq plain_exceptions hcomment block?_exceptions, ?_, ?_, ?_, ?_⟩
  · rw [Target.exceptions, List.map_map]
    have hkeys := hnames.map (f := DispatchKey.wireName) fun _ _ => DispatchKey.wireName.inj
    rw [List.map_map] at hkeys
    exact hkeys
  · rw [Target.exceptions, List.map_map]
    exact hspelt
  · intro k
    simp only [Target.exceptions, List.map_map, List.mem_map, Dispatch.getElem?_exceptions hbuilt,
      ← hrecords]
    constructor
    · rintro ⟨r, hr, rfl⟩
      exact ⟨r, t.config.wireName r.name, rfl, hr, rfl⟩
    · rintro ⟨r, name, rfl, hr, rfl⟩
      exact ⟨r, hr, rfl⟩
  · intro v hv r hr
    obtain ⟨own, hown, rfl⟩ := List.mem_map.mp hv
    obtain ⟨name, hkey, hfound⟩ := hr
    obtain rfl := DispatchKey.wireName.inj hkey
    obtain ⟨hr, hname⟩ := (Dispatch.getElem?_exceptions hbuilt).mp hfound
    rw [← hrecords] at hr
    rw [List.inj_on_of_nodup_map hnames hr hown hname]

/-- A variant is oneway exactly if its own operation is, since no two operations share it. -/
theorem mem_onewayIdents_iff (hidents : (i.operations.map (camel ·.name.name)).Nodup)
    {op : Operation} (hop : op ∈ i.operations) :
    camel op.name.name ∈ Target.onewayIdents i ↔ op.oneway = true := by
  rw [← Dispatch.response?_eq_none_iff]
  simp only [Target.onewayIdents, List.mem_map, List.mem_filter, Option.isNone_iff_eq_none]
  constructor
  · rintro ⟨other, ⟨hother, hnone⟩, hspelt⟩
    rwa [List.inj_on_of_nodup_map hidents hother hop hspelt] at hnone
  · intro hnone
    exact ⟨op, ⟨hop, hnone⟩, rfl⟩

theorem pairsAs_pairingOf (hbuilt : Interface.Built t.schema decl i)
    (hidents : (i.operations.map (camel ·.name.name)).Nodup) :
    List.Forall₂ (PairsAs (Dispatch.ofInterface t.schema t.config i) (t.requests i).ident
        (t.responses i).ident (t.responses i).variants)
      (t.requests i).variants ((t.requests i).variants.map (pairingOf t i)) := by
  rw [List.forall₂_map_right_iff, List.forall₂_same]
  intro v hv
  obtain ⟨op, hop, rfl⟩ := List.mem_map.mp hv
  have honeway := mem_onewayIdents_iff hidents hop
  refine ⟨rfl, ?_, ?_⟩
  · intro n hkey
    obtain rfl := DispatchKey.number.inj hkey
    rw [Dispatch.defaultResponse_eq_none_iff_oneway hbuilt.uids_nodup]
    simp only [pairingOf, ite_eq_left_iff, reduceCtorEq, imp_false, not_not, honeway]
    constructor
    · intro hyes
      exact ⟨op, hop, rfl, hyes⟩
    · rintro ⟨other, hother, huid, hyes⟩
      rwa [List.inj_on_of_nodup_map hbuilt.uids_nodup hother hop huid] at hyes
  · intro answer hanswer
    simp only [pairingOf, honeway] at hanswer
    split_ifs at hanswer with hyes
    obtain ⟨r, hr⟩ := Dispatch.exists_response?_iff.mpr (Bool.not_eq_true _ ▸ hyes)
    refine ⟨⟨camel op.name.name, t.path r.name, .number op.uid⟩, ?_, rfl,
      (Option.some.inj hanswer).symm⟩
    exact List.mem_filterMap.mpr ⟨op, hop, by rw [hr]; rfl⟩

end Tables

/-- A file that stands for an interface and dispatches as its tables do. -/
structure DispatchesFor (t : Target) (i : Interface) (f : SourceFile) : Prop where
  path_eq : f.path = directory i.name ++ [indexFile]
  kind_eq : f.kind = .interface
  name_eq : f.name = i.name
  dispatches : ∃ requests responses exceptions pairings,
    Dispatches t i f.steps requests responses exceptions pairings

/-- Among the files of an interface one stands for the interface itself. -/
theorem dispatchesFor_of_interfaceFiles {decl : Document.NamedInterface} {own : List SourceFile}
    (hbuilt : Interface.Built t.schema decl i) (h : t.interfaceFiles i = .ok own) :
    (∃ f ∈ own, DispatchesFor t i f) ∧ ∀ f ∈ own, f.kind = .interface → DispatchesFor t i f := by
  obtain ⟨added, constants, folder, hemits⟩ := Target.emitsInterface h
  have hindex : DispatchesFor t i
      ⟨directory i.name ++ [indexFile], .interface, i.name, t.interfaceSteps i folder.children⟩ :=
    ⟨rfl, rfl, rfl, _, _, _, _, emitted_requests hbuilt hemits.operations_nodup,
      emitted_responses hbuilt hemits.operations_nodup,
      emitted_exceptions hbuilt hemits.exceptions_nodup, pairings?_eq,
      pairsAs_pairingOf hbuilt hemits.operations_nodup⟩
  rw [hemits.files_eq]
  refine ⟨⟨_, by simp, hindex⟩, ?_⟩
  intro f hf hkind
  simp only [List.mem_append, List.mem_singleton] at hf
  rcases hf with (hf | hf) | rfl
  · exact absurd hkind (hemits.grows.kind_ne f hf).1
  · exact absurd hkind (hemits.constants.kind_ne f hf)
  · exact hindex

/-- Whatever compiles dispatches as the tables do: every interface has a file, every file of an
interface belongs to one, and its matches are those of the interface's tables. -/
theorem emitted_dispatch_agrees (config : Config) (doc : Document) (files : List SourceFile)
    (h : compile config doc = .ok files) :
    ∃ s, build doc = .ok s ∧ (∀ i ∈ s.interfaces, ∃ f ∈ files, DispatchesFor ⟨s, config⟩ i f) ∧
      ∀ f ∈ files, f.kind = .interface → ∃ i ∈ s.interfaces, DispatchesFor ⟨s, config⟩ i f := by
  obtain ⟨s, taken, parts, hs, hmodules, rfl⟩ := exists_schema_of_compile h
  have hcovers := Target.coversInterfaces_modules s.modules parts hmodules.parts
  have hbuilt : ∀ i ∈ s.interfaces, ∃ decl, Interface.Built s decl i := by
    intro i hi
    obtain ⟨decl, -, hdecl⟩ := exists_of_mem_right (interfaces_of_build hs).1 hi
    exact ⟨decl, hdecl⟩
  refine ⟨s, hs, ?_, ?_⟩
  · intro i hi
    obtain ⟨decl, hdecl⟩ := hbuilt i hi
    obtain ⟨own, hown, hsub⟩ := hcovers.complete i hi
    obtain ⟨f, hf, hdispatches⟩ :=
      (dispatchesFor_of_interfaceFiles (t := ⟨s, config⟩) hdecl hown).1
    exact ⟨f, List.mem_append_left _ (hsub hf), hdispatches⟩
  · intro f hf hkind
    rcases List.mem_append.mp hf with hf | hf
    · obtain ⟨i, hi, own, hown, hfown⟩ := hcovers.sound f hf hkind
      obtain ⟨decl, hdecl⟩ := hbuilt i hi
      exact ⟨i, hi, (dispatchesFor_of_interfaceFiles (t := ⟨s, config⟩) hdecl hown).2 f hfown hkind⟩
    · obtain rfl := List.mem_singleton.mp hf
      cases hkind

/-- The separator ends the literal of a key if it is not escaped there. -/
def arrows : Config := { nameSeparator := "\" => Ok(" }

theorem emitted_dispatch_agrees_alarms :
    ∃ files s, compile arrows Dispatch.alarms = .ok files ∧ build Dispatch.alarms = .ok s ∧
      ∃ i ∈ s.interfaces, ∃ f ∈ files, DispatchesFor ⟨s, arrows⟩ i f := by
  have hcompiled : (compile arrows Dispatch.alarms).toBool = true := by decide +kernel
  obtain ⟨files, hfiles⟩ := Target.exists_eq_ok hcompiled
  obtain ⟨s, hs, hall, -⟩ := emitted_dispatch_agrees arrows Dispatch.alarms files hfiles
  obtain ⟨i, hi, -⟩ : ∃ i ∈ s.interfaces, Interface.Built s _ i :=
    exists_of_mem_left (interfaces_of_build hs).1
      (List.mem_singleton_self (a := (Dispatch.alarms.interfaces.head (by decide))))
  exact ⟨files, s, hfiles, hs, i, hi, hall i hi⟩

end WireSchema.Source
