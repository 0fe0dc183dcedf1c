import WireSchema.Proofs.Source.Meaning
import WireSchema.Proofs.Value.FixedPoint

/-!
# Emitted expressions that read

Each strategy emits one expression that reads a value, and an enumeration comes with a match that
turns a number into an enumerator. What they do is what decoding the type does, on every input and
with every failure.
-/
namespace WireSchema.Source

open Identifier Schema Text Wire

theorem space_notMem_toString_int (v : Int) : ' ' ∉ (toString v).toList := by
  cases v with
  | ofNat n => exact space_notMem_toString n
  | negSucc n =>
    rw [show toString (Int.negSucc n) = "-" ++ toString (n + 1) from rfl, String.toList_append]
    simpa using space_notMem_toString (n + 1)

theorem dropSuffix?_eq_none {text after : List Char}
    (h : text.reverse.dropPrefix? after.reverse = none) : text.dropSuffix? after = none := by
  cases hd : text.dropSuffix? after with
  | none => rfl
  | some mid =>
    obtain ⟨after', rfl, heq⟩ := List.dropSuffix?_eq_some_iff.mp hd
    obtain rfl := eq_of_beq heq
    rw [List.reverse_append, dropPrefix?_append] at h
    cases h

namespace Target

variable {t : Target} {id : TypeId} {strategy : Strategy}

section Match

variable {ident : String} {declarations arms : List Step} {v : Int32}

/-- An arm decides for its own number and leaves the others to the arms after it. -/
theorem runMatch_arm {variant : String} {number : Int}
    (hdeclared : declares declarations variant.toList number) :
    t.runMatch ident declarations v
        (.line (toString number ++ " => Ok(" ++ ident ++ "::" ++ variant ++ "),") :: arms) =
      if number = v.toInt then some (.ok (.ordinal (.ofInt number)))
      else t.runMatch ident declarations v arms := by
  have htext : (toString number ++ " => Ok(" ++ ident ++ "::" ++ variant ++ "),").toList =
      (toString number).toList ++ ' ' :: ("=> Ok(".toList ++ (ident.toList ++ ("::".toList ++
        (variant.toList ++ "),".toList)))) := by
    simp only [String.toList_append, List.append_assoc]
    rfl
  have hresult : between? (" => Ok(" ++ ident ++ "::") "),"
      (' ' :: ("=> Ok(".toList ++ (ident.toList ++ ("::".toList ++
        (variant.toList ++ "),".toList))))) = some variant.toList := by
    rw [← between?_append (" => Ok(" ++ ident ++ "::") "),"]
    simp only [String.toList_append, List.append_assoc]
    rfl
  rw [runMatch]
  simp only [htext, takeWhile_append_of_notMem (space_notMem_toString_int number), List.drop_left,
    integer?_toString, hresult]
  simp [hdeclared, guard]

theorem runMatch_default {name : QualifiedName} :
    t.runMatch ident declarations v (.line ("_ => Err(" ++ t.invalidOrdinal name ++ "),") :: arms) =
      some (.error (.invalidEnumValue name.text v.toInt)) := by
  have hend : ("_ => Err(" ++ t.invalidOrdinal name ++ "),").toList =
      ['_'] ++ ' ' :: ("=> Err(".toList ++ ((t.runtime "Error::InvalidEnumValue ").toList ++
        ("\x7b type_name: ".toList ++ ((quoted name.text).toList ++
          ".to_owned(), value \x7d),".toList)))) := by
    show ("_ => Err(" ++ (t.runtime "Error::InvalidEnumValue " ++
      ("\x7b " ++ ("type_name: " ++ quoted name.text ++ ".to_owned(), value") ++ " \x7d")) ++
        "),").toList = _
    simp only [String.toList_append, List.append_assoc]
    rfl
  have hresult : between?
      (" => Err(" ++ (t.runtime "Error::InvalidEnumValue " ++ "\x7b type_name: "))
      ".to_owned(), value \x7d),"
      (' ' :: ("=> Err(".toList ++ ((t.runtime "Error::InvalidEnumValue ").toList ++
        ("\x7b type_name: ".toList ++ ((quoted name.text).toList ++
          ".to_owned(), value \x7d),".toList))))) = some (quoted name.text).toList := by
    rw [← between?_append
      (" => Err(" ++ (t.runtime "Error::InvalidEnumValue " ++ "\x7b type_name: "))
      ".to_owned(), value \x7d),"]
    simp only [String.toList_append, List.append_assoc]
    rfl
  have hnone : integer? ['_'] = none := by decide
  rw [runMatch]
  simp only [hend, takeWhile_append_of_notMem (by decide : ' ' ∉ ['_']), List.drop_left, hnone,
    hresult]
  simp [unquote?_quoted, guard]

end Match

theorem declares_enumeratorLines {e : EnumType} {x : Enumerator} (hx : x ∈ e.enumerators) :
    declares (enumeratorLines e) (camel x.name).toList x.value.toInt := by
  apply List.any_eq_true.mpr
  refine ⟨.line (camel x.name ++ " = " ++ toString x.value.toInt ++ ","), ?_, ?_⟩
  · exact List.mem_append_right _ (List.mem_map_of_mem (f := fun x : Enumerator =>
      Step.line s!"{camel x.name} = {x.value.toInt},") hx)
  · simp only [String.toList_append, beq_iff_eq]
    rfl

/-- The emitted match finds the enumerators of the type, and no others. -/
theorem runMatch_ordinalArms (e : EnumType) (v : Int32) :
    t.runMatch (camel e.name.name) (enumeratorLines e) v (t.ordinalArms e) =
      some (if e.contains v then .ok (.ordinal v)
        else .error (.invalidEnumValue e.name.text v.toInt)) := by
  have hrun : ∀ xs : List Enumerator, xs ⊆ e.enumerators →
      t.runMatch (camel e.name.name) (enumeratorLines e) v
        (xs.map (fun x => .line s!"{x.value.toInt} => Ok({camel e.name.name}::{camel x.name}),") ++
          [.line s!"_ => Err({t.invalidOrdinal e.name}),"]) =
        some (if xs.any (·.value == v) then .ok (.ordinal v)
          else .error (.invalidEnumValue e.name.text v.toInt)) := by
    intro xs hxs
    induction xs with
    | nil => exact runMatch_default
    | cons x xs ih =>
      have hdeclared := declares_enumeratorLines (hxs List.mem_cons_self)
      rw [List.map_cons, List.cons_append]
      refine (runMatch_arm hdeclared).trans ?_
      rw [ih fun y hy => hxs (.tail _ hy)]
      by_cases hv : x.value = v
      · simp [hv]
      · have hne : x.value.toInt ≠ v.toInt := fun h => hv (Int32.toInt_inj.mp h)
        simp [hv, hne]
  exact hrun e.enumerators fun _ h => h

theorem readOrdinal_eq {e : EnumType} (ht : t.schema.type id = .enumeration e) :
    t.readOrdinal (camel e.name.name) (enumeratorLines e) (t.ordinalArms e) =
      OptionT.lift (t.schema.decode t.cap id) := by
  rw [decode_eq, decodeWith, ht, OptionT.lift_bind]
  unfold readOrdinal
  congr 1
  funext v
  rw [runMatch_ordinalArms]
  split_ifs with hv
  · rfl
  · rfl

theorem readExpression_method (method : String)
    (hend : ("de.read_" ++ method ++ "()?").toList.dropSuffix?
      "::try_from(de.read_enum()?)?".toList = none) :
    t.readExpression id ("de.read_" ++ method ++ "()?").toList = readMethod method := by
  have hmethod : between? "de.read_" "()?" ("de.read_" ++ method ++ "()?").toList =
      some method.toList := by
    rw [String.toList_append, String.toList_append, List.append_assoc, between?_append]
  have hother : between? "<" " as Xdr>::deserialize(de)?"
      ("de.read_" ++ method ++ "()?").toList = none := by
    rw [String.toList_append, String.toList_append, List.append_assoc]
    exact between?_eq_none rfl
  unfold readExpression
  simp only [hend, hother, hmethod, String.ofList_toList]

theorem readExpression_compound {name : QualifiedName}
    (hname : (t.schema.type id).name? = some name) :
    t.readExpression id (Strategy.compound (t.path name)).readExpression.toList =
      OptionT.lift (t.schema.decode t.cap id) := by
  show t.readExpression id ("<" ++ t.path name ++ " as Xdr>::deserialize(de)?").toList = _
  rw [String.toList_append, String.toList_append, List.append_assoc]
  have hend : ("<".toList ++ ((t.path name).toList ++
      " as Xdr>::deserialize(de)?".toList)).dropSuffix? "::try_from(de.read_enum()?)?".toList =
        none := by
    apply dropSuffix?_eq_none
    rw [← List.append_assoc, List.reverse_append]
    rfl
  unfold readExpression
  simp only [hend, between?_append, hname, if_true]

/-- The emitted expression reads what decoding the type reads. -/
theorem readExpression_eq (hs : t.strategy id = .ok strategy) :
    t.readExpression id strategy.readExpression.toList =
      OptionT.lift (t.schema.decode t.cap id) := by
  unfold Target.strategy at hs
  cases ht : t.schema.type id with
  | bool =>
    obtain rfl : .bool = strategy := by simpa [ht] using hs
    refine (readExpression_method "bool" (by decide)).trans ?_
    rw [decode_eq, decodeWith, ht, OptionT.lift_bind]
    rfl
  | numeric n =>
    obtain rfl : .numeric n = strategy := by simpa [ht] using hs
    have hmethod : readMethod n.keyword = do
        return n.toValue (← OptionT.lift (Decoder.number n)) := by
      cases n <;> rfl
    refine (readExpression_method n.keyword (by cases n <;> decide)).trans ?_
    rw [decode_eq, decodeWith, ht, OptionT.lift_bind, hmethod]
    rfl
  | text wide =>
    obtain rfl : .text = strategy := by simpa [ht] using hs
    refine (readExpression_method "string" (by decide)).trans ?_
    rw [decode_eq, decodeWith, ht, OptionT.lift_bind]
    rfl
  | blob =>
    obtain rfl : .blob = strategy := by simpa [ht] using hs
    refine (readExpression_method "opaque" (by decide)).trans ?_
    rw [decode_eq, decodeWith, ht, OptionT.lift_bind]
    rfl
  | enumeration e =>
    obtain rfl : .enumeration (t.path e.name) = strategy := by simpa [ht] using hs
    show t.readExpression id (t.path e.name ++ "::try_from(de.read_enum()?)?").toList = _
    rw [String.toList_append]
    unfold readExpression
    simp only [dropSuffix?_append, ht, if_true, readOrdinal_eq ht]
  | map m =>
    simp only [ht] at hs
    split at hs
    · obtain rfl : .compound (t.path m.name) = strategy := by simpa using hs
      exact readExpression_compound (by rw [ht]; rfl)
    · cases hs
  | record r | sequence q | forward name =>
    simp only [ht, Except.ok.injEq] at hs
    subst hs
    exact readExpression_compound (by rw [ht]; rfl)

section Lists

variable {element : TypeId} {max : Nat} {l : Locals}

theorem readStatement_count (typeName : String) :
    t.readStatement element max l
        ("let count = de.read_count(" ++ quoted typeName ++ ", Self::MAX_ELEMS)?;").toList = do
      let n ← OptionT.lift (Decoder.count typeName max)
      return { l with count := some n } := by
  rw [String.toList_append, String.toList_append, List.append_assoc]
  unfold readStatement
  simp only [between?_append, unquote?_quoted]

theorem readStatement_newList {n : Nat} (hn : l.count = some n) :
    t.readStatement element max l
        "let mut values = Vec::with_capacity(count.min(de.remaining().len()));".toList =
      pure { l with values := some [] } := by
  have hcount : between? "let count = de.read_count(" ", Self::MAX_ELEMS)?;"
      "let mut values = Vec::with_capacity(count.min(de.remaining().len()));".toList = none :=
    between?_eq_none rfl
  have hvalue : between? "let value = " ";"
      "let mut values = Vec::with_capacity(count.min(de.remaining().len()));".toList = none :=
    between?_eq_none rfl
  unfold readStatement
  simp only [hcount, hvalue, if_true, hn]

theorem readStatement_bind (hs : t.strategy element = .ok strategy) :
    t.readStatement element max l (strategy.bindStatement "value").toList = do
      let v ← OptionT.lift (t.schema.decode t.cap element)
      return { l with value := some v } := by
  show t.readStatement element max l ("let value = " ++ strategy.readExpression ++ ";").toList = _
  rw [String.toList_append, String.toList_append, List.append_assoc]
  have hcount : between? "let count = de.read_count(" ", Self::MAX_ELEMS)?;"
      ("let value = ".toList ++ (strategy.readExpression.toList ++ ";".toList)) = none :=
    between?_eq_none rfl
  unfold readStatement
  simp only [hcount, between?_append, readExpression_eq hs]

theorem readStatement_push {count : Option Nat} {values : List Value} {v : Value} :
    t.readStatement element max ⟨count, some values, some v⟩ "values.push(value);".toList =
      pure ⟨count, some (values ++ [v]), none⟩ := by
  have hcount : between? "let count = de.read_count(" ", Self::MAX_ELEMS)?;"
      "values.push(value);".toList = none := between?_eq_none rfl
  have hvalue : between? "let value = " ";" "values.push(value);".toList = none :=
    between?_eq_none rfl
  have hnew : "values.push(value);".toList ≠
      "let mut values = Vec::with_capacity(count.min(de.remaining().len()));".toList := by decide
  unfold readStatement
  simp only [hcount, hvalue, if_neg hnew, if_true]

theorem readLines_element (hs : t.strategy element = .ok strategy) {count : Option Nat}
    {values : List Value} :
    t.readLines element max ⟨count, some values, none⟩
        [.line (strategy.bindStatement "value"), .line "values.push(value);"] = do
      let v ← OptionT.lift (t.schema.decode t.cap element)
      return ⟨count, some (values ++ [v]), none⟩ := by
  rw [readLines, readStatement_bind hs]
  simp only [bind_assoc, pure_bind, readLines, readStatement_push]

theorem repeatReading_elements (hs : t.strategy element = .ok strategy) {count : Option Nat}
    (n : Nat) (values : List Value) :
    repeatReading (t.readLines element max ·
          [.line (strategy.bindStatement "value"), .line "values.push(value);"]) n
        ⟨count, some values, none⟩ = do
      let values ← OptionT.lift ((t.schema.decode t.cap element).repeatInto n values.reverse)
      return ⟨count, some values, none⟩ := by
  induction n generalizing values with
  | zero =>
    rw [repeatReading]
    show _ = (do
      let values ← OptionT.lift (pure values.reverse.reverse : Decoder (List Value))
      return (⟨count, some values, none⟩ : Locals))
    rw [List.reverse_reverse, OptionT.lift_pure, pure_bind]
  | succ n ih =>
    rw [repeatReading, readLines_element hs, Decoder.repeatInto_succ, OptionT.lift_bind]
    simp only [bind_assoc, pure_bind, ih, List.reverse_append, List.reverse_singleton,
      List.singleton_append]

/-- The emitted body reads a count and that many elements. -/
theorem runReadList_eq (hs : t.strategy element = .ok strategy) (typeName : String) :
    t.runReadList element max ⟨none, none, none⟩
        (readSteps (CodecBody.sequence typeName strategy).read) = OptionT.lift (do
      let n ← Decoder.count typeName max
      return .sequence (← (t.schema.decode t.cap element).times n)) := by
  show (do
    let l ← t.readStatement element max ⟨none, none, none⟩
      ("let count = de.read_count(" ++ quoted typeName ++ ", Self::MAX_ELEMS)?;").toList
    let l ← t.readStatement element max l
      "let mut values = Vec::with_capacity(count.min(de.remaining().len()));".toList
    t.runReadList element max l [
      .block "for _ in 0..count"
        [.line (strategy.bindStatement "value"), .line "values.push(value);"],
      .line "Ok(Self(values))"]) = _
  rw [readStatement_count, OptionT.lift_bind]
  simp only [bind_assoc, pure_bind]
  congr 1
  funext n
  rw [readStatement_newList rfl, pure_bind, runReadList]
  simp only [guard, if_true, pure_bind, repeatReading_elements hs, bind_assoc, runReadList,
    List.reverse_nil, OptionT.lift_bind, OptionT.lift_pure]
  rfl

end Lists

end Target
end WireSchema.Source
