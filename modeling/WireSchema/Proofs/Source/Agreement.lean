import WireSchema.Proofs.Source.Reading
import WireSchema.Proofs.Source.Writing

/-!
# Emitted codecs agree with the coding of values

The codec that is emitted for a record, a sequence or an enumeration does what encoding, decoding
and measuring values of the type do.
-/
namespace WireSchema.Source

open Command Identifier Schema Text Wire

/-- Agreement, with what is written taken as a whole. -/
theorem Behaviour.agrees_of_result {b : Behaviour} {encode : Value → Output}
    {decode : Decoder Value} {size : Value → Except WireError Nat}
    (hwrite : ∀ v bytes, (encode v).result = .ok bytes → b.write v = some (encode v))
    (hsize : ∀ v bytes, (encode v).result = .ok bytes →
      size v = .ok bytes.length ∧ b.size v = some bytes.length)
    (hread : b.read = OptionT.lift decode) : b.Agrees encode decode size where
  write v bytes h := hwrite v bytes (Sink.drain_unbounded_eq_ok_iff.mp h)
  size v bytes h := ⟨bytes.length, hsize v bytes (Sink.drain_unbounded_eq_ok_iff.mp h)⟩
  read := by
    rw [hread]
    exact (map_eq_pure_bind _ _).symm

namespace Target

variable {t : Target}

section Files

variable {file rest : List Step} {ident : String} {b : CodecBody}

theorem isPrefixOf_append (start rest : String) :
    start.toList.isPrefixOf (start ++ rest).toList = true := by
  rw [String.toList_append, List.isPrefixOf_iff_prefix]
  exact List.prefix_append ..

theorem block?_line {selected : String → Bool} {text : String} :
    block? selected (.line text :: rest) = block? selected rest := rfl

theorem block?_blank {selected : String → Bool} :
    block? selected (.blank :: rest) = block? selected rest := rfl

theorem block?_codecHeader {selected : String → Bool} {name : QualifiedName} :
    block? selected (t.codecHeader name ++ rest) = block? selected rest := rfl

theorem block?_cons_of_selected {selected : String → Bool} {header : String} {body : List Step}
    (h : selected header = true) : block? selected (.block header body :: rest) = some body := by
  rw [block?, if_pos h]

theorem block?_cons_of_not_selected {selected : String → Bool} {header : String} {body : List Step}
    (h : selected header = false) :
    block? selected (.block header body :: rest) = block? selected rest := by
  rw [block?, if_neg (Bool.eq_false_iff.mp h)]

theorem block?_cons_self {header : String} {body : List Step} :
    block? (· == header) (.block header body :: rest) = some body :=
  block?_cons_of_selected (beq_self_eq_true header)

theorem block?_cons_of_ne {sought header : String} {body : List Step} (h : header ≠ sought) :
    block? (· == sought) (.block header body :: rest) = block? (· == sought) rest :=
  block?_cons_of_not_selected (beq_false_of_ne h)

/-- Headers differ if they do in a character of their fixed texts. -/
theorem header_ne {a b : String} (k : Nat)
    (h : a.toList[k]? ≠ b.toList[k]? ∧ k < a.toList.length ∧ k < b.toList.length) (x y : String) :
    a ++ x ≠ b ++ y := by
  obtain ⟨hne, ha, hb⟩ := h
  intro heq
  have hchar := congrArg (fun s : String => s.toList[k]?) heq
  simp only [String.toList_append, List.getElem?_append_left ha,
    List.getElem?_append_left hb] at hchar
  exact hne hchar

theorem impl_ne_codec : "impl " ++ ident ≠ "impl Xdr for " ++ ident := by
  intro heq
  have hlength := congrArg String.length heq
  rw [String.length_append, String.length_append] at hlength
  exact absurd (Nat.add_right_cancel hlength) (by decide)

theorem maxElements?_of_block? {items : List Step}
    (h : block? (· == "impl " ++ ident) file = some (t.containerStart ++ items)) :
    maxElements? file ident = some t.cap := by
  have hbound : between? "pub const MAX_ELEMS: u32 = " ";"
      ("pub const MAX_ELEMS: u32 = " ++ toString t.cap ++ ";").toList =
        some (toString t.cap).toList := by
    rw [String.toList_append, String.toList_append, List.append_assoc, between?_append]
  unfold maxElements?
  simp only [h, Option.bind_eq_bind, Option.bind_some]
  show List.findSome? _
    (Step.line ("pub const MAX_ELEMS: u32 = " ++ toString t.cap ++ ";") :: _) = _
  rw [List.findSome?_cons]
  simp only [hbound, Option.bind_some, digits?_toString]

/-- A codec does what the statements of its three functions say. -/
theorem behaviour_eq {frame : Value → Option Frame} {read : List Step → Reading Value}
    (h : block? (· == "impl Xdr for " ++ ident) file =
      block? (· == "impl Xdr for " ++ ident) (b.step t ident :: rest)) :
    t.behaviour file ident frame read = {
      write := fun v => do t.runWrite (← frame v) (writeSteps b.write ++ [.line "Ok(())"])
      read := read (readSteps b.read)
      size := fun v => do t.runSize (← frame v) [.line b.size.text] } := by
  have hfunction : ∀ start, codecFunction? file ident start = _ :=
    fun start => congrArg (Option.bind · _) (h.trans block?_cons_self)
  have hwrite : codecFunction? file ident "fn serialize<W: std::io::Write>(&self, " =
      some (writeSteps b.write ++ [.line "Ok(())"]) := by
    rw [hfunction, Option.bind_some]
    apply block?_cons_of_selected
    simp only [String.append_assoc]
    exact isPrefixOf_append ..
  have hread : codecFunction? file ident "fn deserialize(" = some (readSteps b.read) := by
    rw [hfunction, Option.bind_some, block?_cons_of_not_selected, block?_blank]
    · apply block?_cons_of_selected
      simp only [String.append_assoc]
      exact isPrefixOf_append ..
    · simp only [String.append_assoc, String.toList_append]
      rfl
  have hsize : codecFunction? file ident "fn size(&self) -> usize" = some [.line b.size.text] := by
    rw [hfunction, Option.bind_some, block?_cons_of_not_selected, block?_blank,
      block?_cons_of_not_selected, block?_blank]
    · exact block?_cons_of_selected (by decide)
    · simp only [String.append_assoc, String.toList_append]
      rfl
    · simp only [String.append_assoc, String.toList_append]
      rfl
  unfold behaviour
  rw [hwrite, hread, hsize]
  rfl

end Files

theorem fieldsFrom_cons_eq_ok_iff {taken : Namespace} {m : Member} {members : List Member}
    {fields : List Field} :
    t.fieldsFrom taken (m :: members) = .ok fields ↔
      ∃ strategy rest, snake m.name ∉ taken.taken ∧ t.strategy m.type = .ok strategy ∧
        t.fieldsFrom { taken with taken := snake m.name :: taken.taken } members = .ok rest ∧
        fields = ⟨snake m.name, strategy⟩ :: rest := by
  rw [fieldsFrom]
  unfold Namespace.claim
  by_cases htaken : snake m.name ∈ taken.taken
  · simp [htaken, bind, Except.bind]
  · cases hs : t.strategy m.type with
    | error e => simp [htaken, bind, Except.bind]
    | ok strategy =>
      cases hrest : t.fieldsFrom { taken with taken := snake m.name :: taken.taken } members with
      | error e => simp [htaken, bind, Except.bind, hrest]
      | ok rest => simp [htaken, bind, Except.bind, hrest, pure, Except.pure, eq_comm]

structure IsFieldOf (t : Target) (m : Member) (f : Field) : Prop where
  ident : f.ident = snake m.name
  strategy : t.strategy m.type = .ok f.strategy

theorem isFieldOf_of_fieldsFrom {taken : Namespace} {members : List Member} {fields : List Field}
    (h : t.fieldsFrom taken members = .ok fields) :
    List.Forall₂ t.IsFieldOf members fields ∧
      (∀ m ∈ members, snake m.name ∉ taken.taken) ∧ (members.map fun m => snake m.name).Nodup := by
  induction members generalizing taken fields with
  | nil =>
    obtain rfl : [] = fields := Except.ok.inj h
    exact ⟨.nil, by simp, List.nodup_nil⟩
  | cons m members ih =>
    obtain ⟨strategy, rest, hfree, hs, hrest, rfl⟩ := fieldsFrom_cons_eq_ok_iff.mp h
    obtain ⟨hfields, hnot, hnodup⟩ := ih hrest
    refine ⟨.cons ⟨rfl, hs⟩ hfields, List.forall_mem_cons.mpr ⟨hfree, ?_⟩, ?_⟩
    · exact fun m' hm' htaken => hnot m' hm' (.tail _ htaken)
    · refine List.nodup_cons.mpr ⟨fun hmem => ?_, hnodup⟩
      obtain ⟨m', hm', heq⟩ := List.mem_map.mp hmem
      exact hnot m' hm' (List.mem_cons.mpr (.inl heq))

/-- What stands at the field of a member. -/
def fieldBinding (m : Member) (f : String × Value) : Binding :=
  ⟨("self." ++ snake m.name).toList, m.type, f.2⟩

theorem at?_eq_some {scope : Scope} (hnodup : (scope.map (·.place)).Nodup) {x : Binding}
    (hx : x ∈ scope) : scope.at? x.place = some x := by
  induction scope with
  | nil => simp at hx
  | cons y scope ih =>
    obtain ⟨hnot, hnodup⟩ := List.nodup_cons.mp hnodup
    rcases List.mem_cons.mp hx with rfl | hx
    · simp [Scope.at?]
    · have hmem : x.place ∈ scope.map (·.place) := List.mem_map_of_mem hx
      have hne : y.place ≠ x.place := fun h => hnot (by simpa only [h] using hmem)
      have hrest := ih hnodup hx
      simpa [Scope.at?, hne] using hrest

theorem places_fieldBindings {members : List Member} {values : List (String × Value)}
    (h : values.length = members.length) :
    (List.zipWith fieldBinding members values).map (·.place) =
      (members.map fun m => snake m.name).map fun ident => ("self." ++ ident).toList := by
  induction members generalizing values with
  | nil => rfl
  | cons m members ih =>
    cases values with
    | nil => simp at h
    | cons f values =>
      have htail := ih (Nat.succ.inj h)
      rw [List.zipWith_cons_cons, List.map_cons, List.map_cons, List.map_cons, htail, fieldBinding]

theorem at?_fieldBinding {members : List Member} {values : List (String × Value)}
    (hnodup : (members.map fun m => snake m.name).Nodup) (h : values.length = members.length) :
    ∀ x ∈ List.zipWith fieldBinding members values,
      Scope.at? (List.zipWith fieldBinding members values) x.place = some x := by
  intro x hx
  refine at?_eq_some ?_ hx
  rw [places_fieldBindings h]
  refine hnodup.map fun a b hab => ?_
  rw [String.toList_append, String.toList_append] at hab
  exact String.toList_injective (List.append_cancel_left hab)

section Fields

variable {self : Frame} {members : List Member} {fields : List Field}
variable {values : List (String × Value)} {bytes : List UInt8}

/-- Writing field by field writes what encoding the fields writes. -/
theorem runWrite_fields (hfields : List.Forall₂ t.IsFieldOf members fields)
    (hnames : values.map (·.1) = members.map (·.name))
    (hplaces : ∀ x ∈ List.zipWith fieldBinding members values, self.scope.at? x.place = some x)
    (h : (t.schema.encodeFields t.cap members values).result = .ok bytes) :
    t.runWrite self
        (writeSteps (fields.map fun f => .value f.strategy f.place) ++ [.line "Ok(())"]) =
      some (t.schema.encodeFields t.cap members values) := by
  induction hfields generalizing values bytes with
  | nil =>
    obtain rfl : values = [] := by simpa using hnames
    rw [encodeFields_nil]
    rfl
  | @cons m f members fields hf _ ih =>
    obtain ⟨⟨name, v⟩, values, rfl⟩ := List.exists_cons_of_ne_nil (l := values)
      (by rintro rfl; simp at hnames)
    obtain ⟨x, y, hx, hy, rfl⟩ := encodeFields_cons_eq_ok_iff.mp h
    have hplace := hplaces _ List.mem_cons_self
    have hstatement : t.writeStatement self (f.strategy.writeStatement f.place).toList =
        some (t.schema.encode t.cap m.type v) := by
      apply writeStatement_eq hf.strategy hx
      rw [Field.place, hf.ident]
      exact hplace
    have hrest := ih (List.cons_eq_cons.mp hnames).2 (fun z hz => hplaces z (.tail _ hz)) hy
    rw [encodeFields]
    show t.runWrite self (.line (f.strategy.writeStatement f.place) ::
      (writeSteps (fields.map fun f => .value f.strategy f.place) ++ [.line "Ok(())"])) = _
    rw [runWrite, hstatement]
    simp only [hrest]
    rfl

/-- The emitted sum is the sum of the sizes of the fields. -/
theorem termSize_fields (hfields : List.Forall₂ t.IsFieldOf members fields)
    (hnames : values.map (·.1) = members.map (·.name))
    (hplaces : ∀ x ∈ List.zipWith fieldBinding members values, self.scope.at? x.place = some x)
    (h : (t.schema.encodeFields t.cap members values).result = .ok bytes) :
    ∃ sizes, sizes.sum = bytes.length ∧ List.Forall₂ (t.TermSize self.scope)
      (fields.map fun f => .ofStrategy f.strategy f.place) sizes := by
  induction hfields generalizing values bytes with
  | nil =>
    obtain rfl : values = [] := by simpa using hnames
    rw [encodeFields_nil, Output.result_done] at h
    cases h
    exact ⟨[], rfl, .nil⟩
  | @cons m f members fields hf _ ih =>
    obtain ⟨⟨name, v⟩, values, rfl⟩ := List.exists_cons_of_ne_nil (l := values)
      (by rintro rfl; simp at hnames)
    obtain ⟨x, y, hx, hy, rfl⟩ := encodeFields_cons_eq_ok_iff.mp h
    have hplace := hplaces _ List.mem_cons_self
    have hblank : ' ' ∉ f.place.toList := by
      rw [Field.place, hf.ident, String.toList_append]
      simpa using not_mem_snake m.name
    have hterm : t.TermSize self.scope (.ofStrategy f.strategy f.place) x.length := by
      refine termSize_ofStrategy hf.strategy hx ?_ hblank
      rw [Field.place, hf.ident]
      exact hplace
    obtain ⟨sizes, hsum, hterms⟩ :=
      ih (List.cons_eq_cons.mp hnames).2 (fun z hz => hplaces z (.tail _ hz)) hy
    exact ⟨x.length :: sizes, by simp [hsum], .cons hterm hterms⟩

/-- Reading field by field reads what decoding the members reads. -/
theorem readFields_eq (hfields : List.Forall₂ t.IsFieldOf members fields) :
    t.readFields members (fields.map (fun f => .line s!"{f.ident}: {f.strategy.readExpression},") ++
        [.dedent, .line "\x7d)"]) =
      OptionT.lift (decodeMembers (t.schema.decode t.cap) members) := by
  unfold decodeMembers
  induction hfields with
  | nil => rfl
  | @cons m f members fields hf _ ih =>
    have htext : between? (snake m.name ++ ": ") ","
        (f.ident ++ ": " ++ f.strategy.readExpression ++ ",").toList =
          some f.strategy.readExpression.toList := by
      rw [hf.ident, String.toList_append, String.toList_append, List.append_assoc, between?_append]
    rw [List.map_cons, List.cons_append, List.mapM_cons]
    show t.readFields (m :: members)
      (.line (f.ident ++ ": " ++ f.strategy.readExpression ++ ",") :: _) = _
    rw [readFields, htext]
    simp only [readExpression_eq hf.strategy, ih, OptionT.lift_bind, OptionT.lift_pure, bind_assoc,
      pure_bind]

end Fields

theorem runReadRecord_eq {r : RecordType} {fields : List Field}
    (hfields : List.Forall₂ t.IsFieldOf r.members fields) :
    t.runReadRecord r (readSteps (CodecBody.record fields).read) =
      OptionT.lift (t.schema.decodeRecord t.cap r) := by
  have hread := readFields_eq hfields
  unfold decodeRecord
  cases fields with
  | nil =>
    have hmembers : r.members = [] := List.forall₂_nil_right_iff.mp hfields
    rw [hmembers]
    show (if _ ∧ r.members = [] then _ else _) = _
    rw [if_pos ⟨rfl, hmembers⟩]
    rfl
  | cons f fields =>
    have hsteps : readSteps (CodecBody.record (f :: fields)).read =
        .line "Ok(Self \x7b" :: .indent ::
          ((f :: fields).map (fun f : Field => .line s!"{f.ident}: {f.strategy.readExpression},") ++
            [.dedent, .line "\x7d)"]) :=
      List.append_nil _
    rw [hsteps, runReadRecord, hread, OptionT.lift_bind]
    rfl

theorem block?_recordSteps {r : RecordType} {response? : Option RecordType} {file : List Step}
    (h : t.recordSteps r response? = .ok file) :
    ∃ fields, t.fields r = .ok fields ∧
      block? (· == "impl Xdr for " ++ camel r.name.name) file =
        block? (· == "impl Xdr for " ++ camel r.name.name)
          ((CodecBody.record fields).step t (camel r.name.name) :: t.identity r) := by
  unfold recordSteps at h
  cases hfields : t.fields r with
  | error e => simp [hfields, bind, Except.bind] at h
  | ok fields =>
    rw [hfields] at h
    obtain rfl := Except.ok.inj h
    refine ⟨fields, rfl, ?_⟩
    have hcomment : ∀ rest, block? (· == "impl Xdr for " ++ camel r.name.name)
        (recordComment r ++ rest) = block? (· == "impl Xdr for " ++ camel r.name.name) rest := by
      intro rest
      unfold recordComment
      cases r.kind <;> rfl
    have hstruct : "pub struct " ++ camel r.name.name ≠ "impl Xdr for " ++ camel r.name.name :=
      header_ne 0 (by decide) _ _
    rw [List.append_assoc, List.append_assoc]
    exact (hcomment _).trans ((block?_cons_of_ne hstruct).trans (block?_cons_of_ne impl_ne_codec))

theorem recordFrame_of_encodeRecord {r : RecordType} {v : Value} {bytes : List UInt8}
    (hnodup : (r.members.map fun m => snake m.name).Nodup)
    (hv : (t.schema.encodeRecord t.cap r v).result = .ok bytes) :
    ∃ self values, recordFrame r v = some self ∧ self.entries = none ∧
      values.map (·.1) = r.members.map (·.name) ∧
      (∀ x ∈ List.zipWith fieldBinding r.members values, self.scope.at? x.place = some x) ∧
      t.schema.encodeRecord t.cap r v = t.schema.encodeFields t.cap r.members values := by
  obtain ⟨name, values, rfl, hfit, -⟩ := encodeRecord_eq_ok_iff.mp hv
  have hnames := names_of_fits hfit
  have hlength : values.length = r.members.length := by simpa using congrArg List.length hnames
  refine ⟨_, values, if_pos hfit, rfl, hnames, at?_fieldBinding hnodup hlength, ?_⟩
  rw [encodeRecord, if_pos hfit]

/-- The codec of a record does what coding its values does. -/
theorem recordBehaviour_agrees {r : RecordType} {response? : Option RecordType} {file : List Step}
    (h : t.recordSteps r response? = .ok file) :
    (t.recordBehaviour r file).Agrees (t.schema.encodeRecord t.cap r)
      (t.schema.decodeRecord t.cap r) (t.schema.sizeRecord r) := by
  obtain ⟨fields, hclaimed, hcodec⟩ := block?_recordSteps h
  obtain ⟨hfields, -, hnodup⟩ := isFieldOf_of_fieldsFrom hclaimed
  unfold recordBehaviour
  rw [behaviour_eq hcodec]
  apply Behaviour.agrees_of_result
  · intro v bytes hv
    obtain ⟨self, values, hframe, -, hnames, hplaces, hencode⟩ :=
      recordFrame_of_encodeRecord hnodup hv
    rw [hencode] at hv ⊢
    simp only [hframe]
    exact runWrite_fields hfields hnames hplaces hv
  · intro v bytes hv
    refine ⟨sizeRecord_of_encodeRecord hv, ?_⟩
    obtain ⟨self, values, hframe, hentries, hnames, hplaces, hencode⟩ :=
      recordFrame_of_encodeRecord hnodup hv
    rw [hencode] at hv
    obtain ⟨sizes, hsum, hterms⟩ := termSize_fields hfields hnames hplaces hv
    simp only [hframe]
    show t.sizeExpression self (SizeTerm.sumText _).toList = _
    rw [sizeExpression, hentries, ← hsum]
    exact sizeSum_sumText hterms
  · exact runReadRecord_eq hfields

theorem coding_of_record {s : Schema} {cap : Nat} {id : TypeId} {r : RecordType}
    (ht : s.type id = .record r) :
    s.encode cap id = s.encodeRecord cap r ∧ s.decode cap id = s.decodeRecord cap r ∧
      s.size id = s.sizeRecord r := by
  refine ⟨?_, ?_, ?_⟩
  · funext v
    unfold encode
    rw [ht]
    cases v <;> rfl
  · rw [decode_eq, decodeWith, ht]
    rfl
  · funext v
    unfold size
    rw [ht]
    cases v <;> rfl

section Elements

variable {element : TypeId} {strategy : Strategy} {elements : List Value} {bytes : List UInt8}

/-- Where an element stands when its turn comes. -/
def elementScope (element : TypeId) (v : Value) : Scope := [⟨"*value".toList, element, v⟩]

theorem at?_elementScope (v : Value) :
    (elementScope element v).at? "*value".toList = some ⟨"*value".toList, element, v⟩ := rfl

theorem encodeElements_eq_foldr :
    t.schema.encodeElements t.cap element elements =
      (elements.map (t.schema.encode t.cap element)).foldr (· ++ ·) .done := by
  induction elements with
  | nil => exact encodeElements_nil
  | cons v elements ih => rw [encodeElements, ih, List.map_cons, List.foldr_cons]

/-- Each round of the loop writes what encoding the element writes. -/
theorem writeLines_elements (hs : t.strategy element = .ok strategy)
    {entries : Option (String × List Scope)}
    (h : (t.schema.encodeElements t.cap element elements).result = .ok bytes) :
    List.Forall₂ (fun entry o =>
        t.writeLines ⟨entry, entries⟩ (writeSteps [.value strategy "*value"]) = some o)
      (elements.map (elementScope element)) (elements.map (t.schema.encode t.cap element)) := by
  induction elements generalizing bytes with
  | nil => exact .nil
  | cons v elements ih =>
    obtain ⟨x, y, hx, hy, rfl⟩ := encodeElements_cons_eq_ok_iff.mp h
    refine .cons ?_ (ih hy)
    have hstatement : t.writeStatement ⟨elementScope element v, entries⟩
        (strategy.writeStatement "*value").toList = some (t.schema.encode t.cap element v) :=
      writeStatement_eq hs hx (at?_elementScope v)
    show t.writeLines _ [.line (strategy.writeStatement "*value")] = _
    simp [writeLines, hstatement]

theorem termSize_elements (hs : t.strategy element = .ok strategy)
    (h : (t.schema.encodeElements t.cap element elements).result = .ok bytes) :
    ∃ sizes : List (List Nat), (sizes.map List.sum).sum = bytes.length ∧
      List.Forall₂ (fun entry => List.Forall₂ (t.TermSize entry) [.ofStrategy strategy "*value"])
        (elements.map (elementScope element)) sizes := by
  induction elements generalizing bytes with
  | nil =>
    rw [encodeElements_nil, Output.result_done] at h
    cases h
    exact ⟨[], rfl, .nil⟩
  | cons v elements ih =>
    obtain ⟨x, y, hx, hy, rfl⟩ := encodeElements_cons_eq_ok_iff.mp h
    obtain ⟨sizes, hsum, hterms⟩ := ih hy
    have hterm := termSize_ofStrategy hs hx (at?_elementScope v) (by decide)
    exact ⟨[x.length] :: sizes, by simp [hsum], .cons (.cons hterm .nil) hterms⟩

end Elements

/-- The file of a sequence has its bound and the codec of its elements. -/
theorem block?_sequenceSteps {q : SequenceType} {file : List Step}
    (h : t.sequenceSteps q = .ok file) :
    ∃ strategy, t.strategy q.element = .ok strategy ∧
      maxElements? file (camel q.name.name) = some t.cap ∧
      block? (· == "impl Xdr for " ++ camel q.name.name) file =
        block? (· == "impl Xdr for " ++ camel q.name.name)
          [(CodecBody.sequence q.name.text strategy).step t (camel q.name.name)] := by
  unfold sequenceSteps at h
  cases hs : t.strategy q.element with
  | error e => simp [hs, bind, Except.bind] at h
  | ok strategy =>
    rw [hs] at h
    obtain rfl := Except.ok.inj h
    refine ⟨strategy, rfl, ?_, ?_⟩
    · exact maxElements?_of_block? block?_cons_self
    · have hfrom : "impl TryFrom<" ++ ("Vec<" ++ strategy.typeText ++ ">") ++ "> for " ++
          camel q.name.name ≠ "impl Xdr for " ++ camel q.name.name := by
        rw [String.append_assoc, String.append_assoc]
        exact header_ne 5 (by decide) _ _
      have hderef : "impl std::ops::Deref for " ++ camel q.name.name ≠
          "impl Xdr for " ++ camel q.name.name := header_ne 5 (by decide) _ _
      exact (block?_cons_of_ne impl_ne_codec).trans
        ((block?_cons_of_ne hfrom).trans (block?_cons_of_ne hderef))

/-- The codec of a sequence does what coding its values does. -/
theorem sequenceBehaviour_agrees {id : TypeId} {q : SequenceType} {file : List Step}
    (ht : t.schema.type id = .sequence q) (h : t.sequenceSteps q = .ok file) :
    (t.sequenceBehaviour q file).Agrees (t.schema.encode t.cap id) (t.schema.decode t.cap id)
      (t.schema.size id) := by
  obtain ⟨strategy, hs, hmax, hcodec⟩ := block?_sequenceSteps h
  unfold sequenceBehaviour
  simp only
  rw [behaviour_eq hcodec, hmax]
  apply Behaviour.agrees_of_result
  · intro v bytes hv
    obtain ⟨elements, rfl, hencode⟩ := encode_of_sequence hv ht
    rw [hencode, Output.result_append_eq_ok_iff] at hv
    obtain ⟨x, y, hx, hy, rfl⟩ := hv
    have hlength : (elements.map (elementScope q.element)).length = elements.length :=
      List.length_map _
    rw [hencode, encodeElements_eq_foldr, ← hlength]
    exact runWrite_entries (writeLines_elements hs hy)
  · intro v bytes hv
    refine ⟨size_of_encode hv, ?_⟩
    obtain ⟨elements, rfl, hencode⟩ := encode_of_sequence hv ht
    rw [hencode, Output.result_append_eq_ok_iff] at hv
    obtain ⟨x, y, hx, hy, rfl⟩ := hv
    obtain ⟨-, rfl⟩ := Output.result_count_eq_ok_iff.mp hx
    obtain ⟨sizes, hsum, hterms⟩ := termSize_elements hs hy
    rw [List.length_append, length_bigEndian, ← hsum]
    show t.sizeExpression ⟨[], some ("value", elements.map (elementScope q.element))⟩ _ = _
    exact sizeExpression_entries hterms
  · rw [decode_eq, decodeWith, ht]
    exact runReadList_eq hs q.name.text

theorem block?_enumerationSteps {e : EnumType} {file : List Step}
    (h : t.enumerationSteps e = .ok file) :
    block? (· == "pub enum " ++ camel e.name.name) file = some (enumeratorLines e) ∧
      block? (· == "impl TryFrom<i32> for " ++ camel e.name.name) file =
        some [t.errorType, .blank, .block ("fn try_from(value: i32) -> " ++ t.result "Self")
          [.block "match value" (t.ordinalArms e)]] ∧
      block? (· == "impl Xdr for " ++ camel e.name.name) file =
        block? (· == "impl Xdr for " ++ camel e.name.name)
          [(CodecBody.enumeration (t.path e.name)).step t (camel e.name.name)] := by
  unfold enumerationSteps at h
  cases hclaim : (Namespace.fresh e.name).claimAll
      (e.enumerators.map fun v => (camel v.name, v.name)) with
  | error err => simp [hclaim, bind, Except.bind] at h
  | ok claimed =>
    rw [hclaim] at h
    obtain rfl := Except.ok.inj h
    have henum : "pub enum " ++ camel e.name.name ≠ "impl TryFrom<i32> for " ++ camel e.name.name :=
      header_ne 0 (by decide) _ _
    have henum' : "pub enum " ++ camel e.name.name ≠ "impl Xdr for " ++ camel e.name.name :=
      header_ne 0 (by decide) _ _
    have hfrom : "impl From<" ++ camel e.name.name ++ "> for i32" ≠
        "impl TryFrom<i32> for " ++ camel e.name.name := by
      rw [String.append_assoc]
      exact header_ne 5 (by decide) _ _
    have hfrom' : "impl From<" ++ camel e.name.name ++ "> for i32" ≠
        "impl Xdr for " ++ camel e.name.name := by
      rw [String.append_assoc]
      exact header_ne 5 (by decide) _ _
    have hmatch : "impl TryFrom<i32> for " ++ camel e.name.name ≠
        "impl Xdr for " ++ camel e.name.name := header_ne 5 (by decide) _ _
    simp only [block?_codecHeader, block?_line]
    refine ⟨block?_cons_self, ?_, ?_⟩
    · exact (block?_cons_of_ne henum).trans ((block?_cons_of_ne hfrom).trans block?_cons_self)
    · exact (block?_cons_of_ne henum').trans
        ((block?_cons_of_ne hfrom').trans (block?_cons_of_ne hmatch))

/-- The codec of an enumeration does what coding its values does. -/
theorem enumerationBehaviour_agrees {id : TypeId} {e : EnumType} {file : List Step}
    (ht : t.schema.type id = .enumeration e) (h : t.enumerationSteps e = .ok file) :
    (t.enumerationBehaviour id e file).Agrees (t.schema.encode t.cap id) (t.schema.decode t.cap id)
      (t.schema.size id) := by
  obtain ⟨hdeclared, hconversion, hcodec⟩ := block?_enumerationSteps h
  have hs : t.strategy id = .ok (.enumeration (t.path e.name)) := by
    rw [Target.strategy, ht]
  have hfunction : block?
      (fun header => "fn try_from(value: i32) -> ".toList.isPrefixOf header.toList)
      [t.errorType, .blank, .block ("fn try_from(value: i32) -> " ++ t.result "Self")
        [.block "match value" (t.ordinalArms e)]] = some [.block "match value" (t.ordinalArms e)] :=
    if_pos (isPrefixOf_append ..)
  unfold enumerationBehaviour
  simp only
  rw [behaviour_eq hcodec]
  apply Behaviour.agrees_of_result
  · intro v bytes hv
    obtain ⟨w, rfl, -⟩ := encode_of_enumeration hv ht
    have hstatement : t.writeStatement ⟨[⟨"*self".toList, id, .ordinal w⟩], none⟩
        ((Strategy.enumeration (t.path e.name)).writeStatement "*self").toList =
          some (t.schema.encode t.cap id (.ordinal w)) := writeStatement_eq hs hv rfl
    have hend : t.runWrite ⟨[⟨"*self".toList, id, .ordinal w⟩], none⟩ [.line "Ok(())"] =
        some .done := rfl
    show t.runWrite _ [.line ((Strategy.enumeration (t.path e.name)).writeStatement "*self"), _] = _
    rw [runWrite, hstatement]
    simp only [hend]
    exact congrArg some (Output.append_done _)
  · intro v bytes hv
    refine ⟨size_of_encode hv, ?_⟩
    obtain ⟨w, rfl, hencode⟩ := encode_of_enumeration hv ht
    rw [hencode, Output.result_number] at hv
    obtain rfl := Except.ok.inj hv
    have hterm : t.TermSize [⟨"*self".toList, id, .ordinal w⟩] (.fixed 4) 4 := rfl
    have hframe : ordinalFrame id (.ordinal w) =
        some ⟨[⟨"*self".toList, id, .ordinal w⟩], none⟩ := rfl
    have htext : (CodecBody.enumeration (t.path e.name)).size.text =
        SizeTerm.sumText [.fixed 4] := rfl
    simp only [hframe, htext, Option.bind_eq_bind, Option.bind_some, runSize, sizeExpression,
      Numeric.length_bytes]
    exact sizeSum_sumText (.cons hterm .nil)
  · show t.runReadOrdinal _ file [.line "Self::try_from(de.read_enum()?)"] = _
    rw [← readOrdinal_eq ht, runReadOrdinal]
    simp only [hdeclared, hconversion, hfunction, Option.bind_eq_bind, Option.bind_some,
      block?_cons_self, if_true]

theorem exists_eq_ok {ε α : Type} {x : Except ε α} (h : x.toBool) : ∃ a, x = .ok a := by
  cases x with
  | error e => cases h
  | ok a => exact ⟨a, rfl⟩

def sky : EnumType := { name := .top "Sky", enumerators := [⟨"clear", 0⟩, ⟨"cloudy", 3⟩] }

def days : SequenceType := { name := .top "Days", element := ⟨1⟩ }

def forecast : RecordType :=
  { name := .top "Forecast", kind := .plain, members := [⟨"place", ⟨0⟩⟩, ⟨"days", ⟨2⟩⟩] }

/-- Forecasts for a place, with the sky of every day. -/
def forecasts : Target where
  schema := {
    types := #[.text false, .enumeration sky, .sequence days, .record forecast]
    modules := [] }
  config := {}

def outlook : Value := .record "" [("place", .text "Rome"), ("days", .sequence [.ordinal 3])]

def outlookBytes : List UInt8 := [0, 0, 0, 4, 82, 111, 109, 101, 0, 0, 0, 1, 0, 0, 0, 3]

end Target
end WireSchema.Source
