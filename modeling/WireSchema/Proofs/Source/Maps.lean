import WireSchema.Proofs.Schema.Acceptance
import WireSchema.Proofs.Source.Agreement
import WireSchema.Proofs.Value.Keys

/-!
# Emitted codecs of maps

The codec that is emitted for a map keeps the pairs in the order of their keys. So it writes and
measures maps in that order as coding them does, and it reads what decoding reads, put in order. It
fails on the same inputs, but not always with the same error: a repeated key is found after its
value is read.
-/
namespace WireSchema.Source

open Command Identifier Schema Text Wire

namespace Target

variable (t : Target)

structure MapLocals extends Locals where
  entries : Option (List (Value × Value))
  key : Option Value

/-- A statement of the function that reads a map of at most `max` pairs. The number of pairs and the
values are read as those of a list are. -/
def readMapStatement (m : MapType) (max : Nat) (l : MapLocals) (text : List Char) :
    Reading MapLocals :=
  match between? "let key = " ";" text with
  | some expression => do return { l with key := some (← t.readExpression m.key expression) }
  | none =>
    if text = "let mut entries = std::collections::BTreeMap::new();".toList then
      pure { l with entries := some [] }
    else do return { l with toLocals := ← t.readStatement m.value max l.toLocals text }

def returnDuplicate : List Step → Reading MapLocals
  | [.line text] =>
    let error := t.runtime "Error::DuplicateMapKey " ++ "\x7b type_name: "
    match (between? ("return Err(" ++ error) ".to_owned() \x7d);" text.toList).bind unquote? with
    | some name => OptionT.lift (.fail (.duplicateMapKey name))
    | none => failure
  | _ => failure

/-- Moves the bound pair into the map. The body is run if the key was there. -/
def insertBlock (l : MapLocals) (header : String) (body : List Step) : Reading MapLocals :=
  match l.entries, l.key, l.value with
  | some entries, some k, some v => do
    guard (header = "if entries.insert(key, value).is_some()")
    let placed := insertEntry k v entries
    if placed.1.isSome then t.returnDuplicate body
    else return { l with entries := some placed.2, key := none, value := none }
  | _, _, _ => failure

def readMapLines (m : MapType) (max : Nat) : MapLocals → List Step → Reading MapLocals
  | l, [] => pure l
  | l, .line text :: steps => do
    readMapLines m max (← t.readMapStatement m max l text.toList) steps
  | l, .block header body :: steps => do readMapLines m max (← t.insertBlock l header body) steps
  | _, _ => failure

def repeatMapReading (body : MapLocals → Reading MapLocals) : Nat → MapLocals → Reading MapLocals
  | 0, l => pure l
  | n + 1, l => do repeatMapReading body n (← body l)

def runReadMap (m : MapType) (max : Nat) : MapLocals → List Step → Reading Value
  | l, [.line text] =>
    match l.entries with
    | some entries => if text = "Ok(Self(entries))" then pure (.map entries) else failure
    | none => failure
  | l, .line text :: steps => do
    runReadMap m max (← t.readMapStatement m max l text.toList) steps
  | l, .block header body :: steps =>
    match l.count with
    | some n => do
      guard (header = "for _ in 0..count")
      let l ← repeatMapReading (t.readMapLines m max · body) n l
      runReadMap m max l steps
    | none => failure
  | _, _ => failure

/-- Where a pair stands when its turn comes. -/
def pairScope (m : MapType) (p : Value × Value) : Scope :=
  [⟨"*key".toList, m.key, p.1⟩, ⟨"*value".toList, m.value, p.2⟩]

/-- The pairs of a map. They are in order, or there is no such map. -/
def mapFrame (m : MapType) : Value → Option Frame
  | .map pairs =>
    if Ascending pairs then
      some { scope := [], entries := some ("(key, value)", pairs.map (pairScope m)) }
    else none
  | _ => none

def mapBehaviour (m : MapType) (file : List Step) : Behaviour :=
  let ident := camel m.name.name
  t.behaviour file ident (mapFrame m) fun body =>
    match maxElements? file ident with
    | some max => t.runReadMap m max ⟨⟨none, none, none⟩, none, none⟩ body
    | none => failure

end Target

/-- A codec of maps agrees with a coding of values up to the order of pairs: it writes and measures
ascending maps as the coding does, and it reads the same pairs from the same bytes, in ascending
order. Where the coding reads nothing, it fails. -/
structure Behaviour.AgreesInOrder (b : Behaviour) (encode : Value → Output) (decode : Decoder Value)
    (size : Value → Except WireError Nat) : Prop where
  write : ∀ pairs bytes, Ascending pairs →
    Sink.unbounded.drain (encode (.map pairs)) = (.ok (), ⟨none, bytes⟩) →
    b.write (.map pairs) = some (encode (.map pairs))
  size : ∀ pairs bytes, Ascending pairs →
    Sink.unbounded.drain (encode (.map pairs)) = (.ok (), ⟨none, bytes⟩) →
    ∃ n, size (.map pairs) = .ok n ∧ b.size (.map pairs) = some n
  read : ∀ input v rest, decode input = (.ok v, rest) →
    ∃ pairs ordered, v = .map pairs ∧ ordered.Perm pairs ∧ Ascending ordered ∧
      b.read.run input = (.ok (some (.map ordered)), rest)
  fail : ∀ input e rest, decode input = (.error e, rest) →
    ∃ e' rest', b.read.run input = (.error e', rest')

namespace Target

variable {t : Target} {m : MapType} {key value : Strategy} {max : Nat}

section Reading

variable {l : MapLocals}

theorem readMapStatement_other {text : List Char} (hkey : between? "let key = " ";" text = none)
    (hnew : text ≠ "let mut entries = std::collections::BTreeMap::new();".toList) :
    t.readMapStatement m max l text = do
      let locals ← t.readStatement m.value max l.toLocals text
      return { l with toLocals := locals } := by
  unfold readMapStatement
  simp only [hkey, if_neg hnew]

theorem readMapStatement_count (typeName : String) :
    t.readMapStatement m max l
        ("let count = de.read_count(" ++ quoted typeName ++ ", Self::MAX_ELEMS)?;").toList = do
      let n ← OptionT.lift (Decoder.count typeName max)
      return { l with count := some n } := by
  rw [readMapStatement_other, readStatement_count]
  · simp only [bind_assoc, pure_bind]
  · rw [String.toList_append, String.toList_append, List.append_assoc]
    exact between?_eq_none rfl
  · rw [String.toList_append, String.toList_append, List.append_assoc]
    intro h
    have hchar : some 'c' = some 'm' := congrArg (fun text : List Char => text[4]?) h
    exact absurd hchar (by decide)

theorem readMapStatement_newMap :
    t.readMapStatement m max l "let mut entries = std::collections::BTreeMap::new();".toList =
      pure { l with entries := some [] } := by
  have hkey : between? "let key = " ";"
      "let mut entries = std::collections::BTreeMap::new();".toList = none := between?_eq_none rfl
  unfold readMapStatement
  simp only [hkey, if_true]

theorem readMapStatement_key (hs : t.strategy m.key = .ok key) :
    t.readMapStatement m max l (key.bindStatement "key").toList = do
      let k ← OptionT.lift (t.schema.decode t.cap m.key)
      return { l with key := some k } := by
  show t.readMapStatement m max l ("let key = " ++ key.readExpression ++ ";").toList = _
  rw [String.toList_append, String.toList_append, List.append_assoc]
  unfold readMapStatement
  simp only [between?_append, readExpression_eq hs]

theorem readMapStatement_value (hs : t.strategy m.value = .ok value) :
    t.readMapStatement m max l (value.bindStatement "value").toList = do
      let v ← OptionT.lift (t.schema.decode t.cap m.value)
      return { l with value := some v } := by
  rw [readMapStatement_other, readStatement_bind hs]
  · simp only [bind_assoc, pure_bind]
  · show between? _ _ ("let value = " ++ value.readExpression ++ ";").toList = _
    rw [String.toList_append, String.toList_append, List.append_assoc]
    exact between?_eq_none rfl
  · show ("let value = " ++ value.readExpression ++ ";").toList ≠ _
    rw [String.toList_append, String.toList_append, List.append_assoc]
    intro h
    have hchar : some 'v' = some 'm' := congrArg (fun text : List Char => text[4]?) h
    exact absurd hchar (by decide)

theorem returnDuplicate_eq (name : QualifiedName) :
    t.returnDuplicate [.line ("return Err(" ++ t.duplicateKey name ++ ");")] =
      OptionT.lift (.fail (.duplicateMapKey name.text)) := by
  have htext : between?
      ("return Err(" ++ (t.runtime "Error::DuplicateMapKey " ++ "\x7b type_name: "))
      ".to_owned() \x7d);" ("return Err(" ++ t.duplicateKey name ++ ");").toList =
        some (quoted name.text).toList := by
    rw [← between?_append
      ("return Err(" ++ (t.runtime "Error::DuplicateMapKey " ++ "\x7b type_name: "))
      ".to_owned() \x7d);"]
    show between? _ _ ("return Err(" ++ (t.runtime "Error::DuplicateMapKey " ++
      ("\x7b " ++ ("type_name: " ++ quoted name.text ++ ".to_owned()") ++ " \x7d")) ++
        ");").toList = _
    simp only [String.toList_append, List.append_assoc]
    rfl
  unfold returnDuplicate
  simp only [htext, Option.bind_some, unquote?_quoted]

/-- One round of the loop reads a pair and puts it at its place. -/
theorem readMapLines_pair (hk : t.strategy m.key = .ok key) (hv : t.strategy m.value = .ok value)
    {count : Option Nat} {entries : List (Value × Value)} :
    t.readMapLines m max ⟨⟨count, none, none⟩, some entries, none⟩
        (readSteps [.bind "key" key, .bind "value" value, .insert (t.duplicateKey m.name)]) = do
      let k ← OptionT.lift (t.schema.decode t.cap m.key)
      let v ← OptionT.lift (t.schema.decode t.cap m.value)
      if (insertEntry k v entries).1.isSome then
        OptionT.lift (.fail (.duplicateMapKey m.name.text))
      else return ⟨⟨count, none, none⟩, some (insertEntry k v entries).2, none⟩ := by
  show t.readMapLines m max ⟨⟨count, none, none⟩, some entries, none⟩ [
    .line (key.bindStatement "key"), .line (value.bindStatement "value"),
    .block "if entries.insert(key, value).is_some()"
      [.line ("return Err(" ++ t.duplicateKey m.name ++ ");")]] = _
  simp only [readMapLines, readMapStatement_key hk, readMapStatement_value hv, bind_assoc,
    pure_bind]
  congr 1
  funext k
  congr 1
  funext v
  simp only [insertBlock, guard, if_true, pure_bind, returnDuplicate_eq, bind_pure]

theorem repeatMapReading_pairs (hk : t.strategy m.key = .ok key)
    (hv : t.strategy m.value = .ok value) {count : Option Nat} (n : Nat)
    (entries : List (Value × Value)) :
    repeatMapReading (t.readMapLines m max · (readSteps
          [.bind "key" key, .bind "value" value, .insert (t.duplicateKey m.name)])) n
        ⟨⟨count, none, none⟩, some entries, none⟩ = do
      let entries ← OptionT.lift (readEntries m.name.text (t.schema.decode t.cap m.key)
        (t.schema.decode t.cap m.value) n entries)
      return ⟨⟨count, none, none⟩, some entries, none⟩ := by
  induction n generalizing entries with
  | zero => rfl
  | succ n ih =>
    rw [repeatMapReading, readMapLines_pair hk hv, readEntries]
    simp only [OptionT.lift_bind, bind_assoc]
    congr 1
    funext k
    congr 1
    funext v
    by_cases hold : (insertEntry k v entries).1.isSome
    · rw [if_pos hold, if_pos hold]
      rfl
    · rw [if_neg hold, if_neg hold, pure_bind, ih]

theorem runReadMap_eq (hk : t.strategy m.key = .ok key) (hv : t.strategy m.value = .ok value) :
    t.runReadMap m t.cap ⟨⟨none, none, none⟩, none, none⟩
        (readSteps (CodecBody.map m.name.text (t.duplicateKey m.name) key value).read) =
      OptionT.lift (t.schema.decodeOrdered t.cap m) := by
  unfold decodeOrdered
  show (do
    let l ← t.readMapStatement m t.cap ⟨⟨none, none, none⟩, none, none⟩
      ("let count = de.read_count(" ++ quoted m.name.text ++ ", Self::MAX_ELEMS)?;").toList
    let l ← t.readMapStatement m t.cap l
      "let mut entries = std::collections::BTreeMap::new();".toList
    t.runReadMap m t.cap l [
      .block "for _ in 0..count" (readSteps
        [.bind "key" key, .bind "value" value, .insert (t.duplicateKey m.name)]),
      .line "Ok(Self(entries))"]) = _
  rw [readMapStatement_count, OptionT.lift_bind]
  simp only [bind_assoc, pure_bind]
  congr 1
  funext n
  rw [readMapStatement_newMap, pure_bind, runReadMap]
  simp only [guard, if_true, pure_bind, repeatMapReading_pairs hk hv, bind_assoc, runReadMap,
    OptionT.lift_bind, OptionT.lift_pure]

end Reading

section Pairs

variable {pairs : List (Value × Value)} {bytes : List UInt8}

theorem at?_pairScope_key (p : Value × Value) :
    (pairScope m p).at? "*key".toList = some ⟨"*key".toList, m.key, p.1⟩ := rfl

theorem at?_pairScope_value (p : Value × Value) :
    (pairScope m p).at? "*value".toList = some ⟨"*value".toList, m.value, p.2⟩ := rfl

theorem encodePairs_eq_foldr :
    t.schema.encodePairs t.cap m.key m.value pairs =
      (pairs.map fun p => t.schema.encode t.cap m.key p.1 ++
        t.schema.encode t.cap m.value p.2).foldr (· ++ ·) .done := by
  induction pairs with
  | nil => exact encodePairs_nil
  | cons p pairs ih => rw [encodePairs, ih, List.map_cons, List.foldr_cons]

theorem writeLines_pairs (hk : t.strategy m.key = .ok key) (hv : t.strategy m.value = .ok value)
    {entries : Option (String × List Scope)}
    (h : (t.schema.encodePairs t.cap m.key m.value pairs).result = .ok bytes) :
    List.Forall₂ (fun entry o => t.writeLines ⟨entry, entries⟩
        (writeSteps [.value key "*key", .value value "*value"]) = some o)
      (pairs.map (pairScope m)) (pairs.map fun p => t.schema.encode t.cap m.key p.1 ++
        t.schema.encode t.cap m.value p.2) := by
  induction pairs generalizing bytes with
  | nil => exact .nil
  | cons p pairs ih =>
    obtain ⟨x, y, z, hx, hy, hz, rfl⟩ := encodePairs_cons_eq_ok_iff.mp h
    refine .cons ?_ (ih hz)
    have hkey : t.writeStatement ⟨pairScope m p, entries⟩ (key.writeStatement "*key").toList =
        some (t.schema.encode t.cap m.key p.1) := writeStatement_eq hk hx (at?_pairScope_key p)
    have hvalue : t.writeStatement ⟨pairScope m p, entries⟩
        (value.writeStatement "*value").toList = some (t.schema.encode t.cap m.value p.2) :=
      writeStatement_eq hv hy (at?_pairScope_value p)
    show t.writeLines _ [.line (key.writeStatement "*key"),
      .line (value.writeStatement "*value")] = _
    simp [writeLines, hkey, hvalue]

/-- The sizes of a pair are the lengths of its encodings. -/
theorem termSize_pairs (hk : t.strategy m.key = .ok key) (hv : t.strategy m.value = .ok value)
    (h : (t.schema.encodePairs t.cap m.key m.value pairs).result = .ok bytes) :
    ∃ sizes : List (List Nat), (sizes.map List.sum).sum = bytes.length ∧
      List.Forall₂ (fun entry => List.Forall₂ (t.TermSize entry)
          [.ofStrategy key "*key", .ofStrategy value "*value"])
        (pairs.map (pairScope m)) sizes := by
  induction pairs generalizing bytes with
  | nil =>
    rw [encodePairs_nil, Output.result_done] at h
    cases h
    exact ⟨[], rfl, .nil⟩
  | cons p pairs ih =>
    obtain ⟨x, y, z, hx, hy, hz, rfl⟩ := encodePairs_cons_eq_ok_iff.mp h
    obtain ⟨sizes, hsum, hterms⟩ := ih hz
    have hkey := termSize_ofStrategy hk hx (at?_pairScope_key p) (by decide)
    have hvalue := termSize_ofStrategy hv hy (at?_pairScope_value p) (by decide)
    refine ⟨[x.length, y.length] :: sizes, ?_, .cons (.cons hkey (.cons hvalue .nil)) hterms⟩
    simp [hsum, Nat.add_assoc]

end Pairs

theorem block?_mapSteps (hk : t.strategy m.key = .ok key) (hv : t.strategy m.value = .ok value) :
    ∃ file, t.mapSteps m = .ok file ∧ maxElements? file (camel m.name.name) = some t.cap ∧
      block? (· == "impl Xdr for " ++ camel m.name.name) file =
        block? (· == "impl Xdr for " ++ camel m.name.name)
          [(CodecBody.map m.name.text (t.duplicateKey m.name) key value).step t
            (camel m.name.name)] := by
  unfold mapSteps
  rw [hk, hv]
  refine ⟨_, rfl, maxElements?_of_block? block?_cons_self, ?_⟩
  have hfrom : "impl TryFrom<" ++ ("std::collections::BTreeMap<" ++ key.typeText ++ ", " ++
      value.typeText ++ ">") ++ "> for " ++ camel m.name.name ≠
        "impl Xdr for " ++ camel m.name.name := by
    rw [String.append_assoc, String.append_assoc]
    exact header_ne 5 (by decide) _ _
  have hderef : "impl std::ops::Deref for " ++ camel m.name.name ≠
      "impl Xdr for " ++ camel m.name.name := header_ne 5 (by decide) _ _
  exact (block?_cons_of_ne impl_ne_codec).trans
    ((block?_cons_of_ne hfrom).trans (block?_cons_of_ne hderef))

theorem run_lift {α : Type} (d : Decoder α) (input : List UInt8) :
    (OptionT.lift d : Reading α).run input = ((d input).1.map some, (d input).2) := by
  show (d >>= fun a => pure (some a)) input = _
  rw [Decoder.run_bind]
  rcases d input with ⟨e | a, rest⟩ <;> rfl

/-- The codec of a map does what coding its values does, up to the order of pairs. -/
theorem mapBehaviour_agrees {id : TypeId} (ht : t.schema.type id = .map m)
    (horder : (t.schema.type m.key).isOrderable) (hk : t.strategy m.key = .ok key)
    (hv : t.strategy m.value = .ok value) :
    ∃ file, t.mapSteps m = .ok file ∧
      (t.mapBehaviour m file).AgreesInOrder (t.schema.encode t.cap id) (t.schema.decode t.cap id)
        (t.schema.size id) := by
  obtain ⟨file, hfile, hmax, hcodec⟩ := block?_mapSteps hk hv
  refine ⟨file, hfile, ?_⟩
  unfold mapBehaviour
  simp only
  rw [behaviour_eq hcodec, hmax]
  refine ⟨?_, ?_, ?_, ?_⟩
  · intro pairs bytes hascending hdrain
    have hwritten := Sink.drain_unbounded_eq_ok_iff.mp hdrain
    obtain ⟨_, ⟨⟩, hencode⟩ := encode_of_map hwritten ht
    rw [hencode, Output.result_append_eq_ok_iff] at hwritten
    obtain ⟨x, y, hx, hy, rfl⟩ := hwritten
    have hlength : (pairs.map (pairScope m)).length = pairs.length := List.length_map _
    rw [hencode, encodePairs_eq_foldr, ← hlength]
    simp only [mapFrame, if_pos hascending]
    exact runWrite_entries (writeLines_pairs hk hv hy)
  · intro pairs bytes hascending hdrain
    have hwritten := Sink.drain_unbounded_eq_ok_iff.mp hdrain
    refine ⟨bytes.length, size_of_encode hwritten, ?_⟩
    obtain ⟨_, ⟨⟩, hencode⟩ := encode_of_map hwritten ht
    rw [hencode, Output.result_append_eq_ok_iff] at hwritten
    obtain ⟨x, y, hx, hy, rfl⟩ := hwritten
    obtain ⟨-, rfl⟩ := Output.result_count_eq_ok_iff.mp hx
    obtain ⟨sizes, hsum, hterms⟩ := termSize_pairs hk hv hy
    rw [List.length_append, length_bigEndian, ← hsum]
    simp only [mapFrame, if_pos hascending]
    show t.sizeExpression ⟨[], some ("(key, value)", pairs.map (pairScope m))⟩ _ = _
    exact sizeExpression_entries hterms
  · intro input v rest hdecode
    obtain ⟨pairs, ordered, rfl, hperm, hascending, hread⟩ := decodeOrdered_of_ok ht horder hdecode
    refine ⟨pairs, ordered, rfl, hperm, hascending, ?_⟩
    simp only [runReadMap_eq hk hv, run_lift, hread]
    rfl
  · intro input e rest hdecode
    obtain ⟨e', rest', hread⟩ := decodeOrdered_of_error ht horder hdecode
    refine ⟨e', rest', ?_⟩
    simp only [runReadMap_eq hk hv, run_lift, hread]
    rfl

theorem exists_strategy (hpolicy : t.config.mapPolicy = .codec) (id : TypeId) :
    ∃ strategy, t.strategy id = .ok strategy := by
  unfold Target.strategy
  cases t.schema.type id with
  | map m =>
    dsimp only
    rw [hpolicy]
    exact ⟨_, rfl⟩
  | _ => exact ⟨_, rfl⟩

/-- If maps are coded, every map of a built schema has an emitted codec, and it agrees with the
coding of values up to the order of pairs: ascending maps that can be encoded are written and
measured alike, what is decoded is read with its pairs in order, and what is refused is refused. -/
theorem emitted_map_codecs_agree (t : Target) (doc : Document)
    (hbuilt : Schema.build doc = .ok t.schema) (hpolicy : t.config.mapPolicy = .codec) (id : TypeId)
    (m : MapType) (ht : t.schema.type id = .map m) :
    ∃ file, t.mapSteps m = .ok file ∧
      (t.mapBehaviour m file).AgreesInOrder (t.schema.encode t.cap id) (t.schema.decode t.cap id)
        (t.schema.size id) := by
  obtain ⟨key, hk⟩ := exists_strategy hpolicy m.key
  obtain ⟨value, hv⟩ := exists_strategy hpolicy m.value
  exact mapBehaviour_agrees ht (isOrderable_key hbuilt ht) hk hv

/-- Prices of items, by the numbers of the items. -/
def prices : MapType := { name := ⟨["shop", "Prices"]⟩, key := ⟨1⟩, value := ⟨1⟩ }

def shop : Document where
  modules := [{
    name := "shop"
    modules := []
    types := [⟨"Prices", .map "int" "int"⟩]
    interfaces := []
    constants := [] }]

def shopTarget : Target where
  schema := {
    types := #[.map prices, .numeric .int32]
    modules := [{
      name := ⟨["shop"]⟩
      modules := []
      types := [⟨0⟩]
      interfaces := []
      constants := [] }] }
  config := {}

/-- Two prices as they are written in order, and written the other way round. -/
def priceBytes : List UInt8 := [0, 0, 0, 2, 0, 0, 0, 1, 0, 0, 0, 7, 0, 0, 0, 2, 0, 0, 0, 9]

def swappedBytes : List UInt8 := [0, 0, 0, 2, 0, 0, 0, 2, 0, 0, 0, 9, 0, 0, 0, 1, 0, 0, 0, 7]

theorem emitted_map_codecs_agree_shop :
    Schema.build shop = .ok shopTarget.schema ∧
    ∃ file, shopTarget.mapSteps prices = .ok file ∧
      (shopTarget.mapBehaviour prices file).write (.map [(.int 1, .int 7), (.int 2, .int 9)]) =
        some (shopTarget.schema.encode shopTarget.cap ⟨0⟩
          (.map [(.int 1, .int 7), (.int 2, .int 9)])) ∧
      (shopTarget.mapBehaviour prices file).size (.map [(.int 1, .int 7), (.int 2, .int 9)]) =
        some 20 ∧
      ∃ ordered, ordered.Perm [(.int 2, .int 9), (.int 1, .int 7)] ∧ Ascending ordered ∧
        (shopTarget.mapBehaviour prices file).read.run swappedBytes =
          (.ok (some (.map ordered)), []) := by
  have hbuilt : Schema.build shop = .ok shopTarget.schema := rfl
  obtain ⟨file, hfile, hagrees⟩ :=
    emitted_map_codecs_agree shopTarget shop hbuilt rfl ⟨0⟩ prices rfl
  have hascending : Ascending [(.int 1, .int 7), (.int 2, .int 9)] := by decide
  have hwritten : Sink.unbounded.drain (shopTarget.schema.encode shopTarget.cap ⟨0⟩
      (.map [(.int 1, .int 7), (.int 2, .int 9)])) = (.ok (), ⟨none, priceBytes⟩) := by
    decide +kernel
  have htwenty : shopTarget.schema.size ⟨0⟩
      (.map [(.int 1, .int 7), (.int 2, .int 9)]) = .ok 20 := by decide +kernel
  -- What is read from the other bytes follows from their being written for the reversed pairs.
  have hswapped : (shopTarget.schema.encode shopTarget.cap ⟨0⟩
      (.map [(.int 2, .int 9), (.int 1, .int 7)])).result = .ok swappedBytes := by decide +kernel
  have hnormal : shopTarget.schema.normalize ⟨0⟩ (.map [(.int 2, .int 9), (.int 1, .int 7)]) =
      .map [(.int 2, .int 9), (.int 1, .int 7)] := rfl
  have hdecode := reads_decode hswapped []
  rw [hnormal] at hdecode
  obtain ⟨n, hn, hsize⟩ := hagrees.size _ _ hascending hwritten
  obtain rfl : 20 = n := Except.ok.inj (htwenty.symm.trans hn)
  obtain ⟨_, ordered, ⟨⟩, hperm, hordered, hread⟩ := hagrees.read _ _ _ hdecode
  exact ⟨hbuilt, file, hfile, hagrees.write _ _ hascending hwritten, hsize, ordered, hperm,
    hordered, hread⟩

end Target
end WireSchema.Source
