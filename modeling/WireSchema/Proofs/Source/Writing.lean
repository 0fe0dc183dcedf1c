import Mathlib.Data.List.Forall2
import WireSchema.Proofs.Identifier.Spelling
import WireSchema.Proofs.Source.Meaning
import WireSchema.Proofs.Value.Size

/-!
# Emitted statements that write and expressions for sizes

Each strategy emits one statement that writes a value and one expression for its size. What they do
is what the coding of the value's type does. Sizes that all values of a type share are added up when
the source is emitted, which does not change the sum.
-/
namespace WireSchema.Source

open Command Identifier Schema Text Wire

namespace Target

variable {t : Target} {id : TypeId} {strategy : Strategy} {v : Value} {bytes : List UInt8}
variable {self : Frame} {place : String}

theorem writeStatement_method {method : String} (hmethod : '(' ∉ method.toList)
    (argument : String) :
    t.writeStatement self ("ser.write_" ++ method ++ "(" ++ argument ++ ")?;").toList =
      writeMethod self method argument.toList := by
  have htext : ("ser.write_" ++ method ++ "(" ++ argument ++ ")?;").toList =
      "ser.write_".toList ++ (method.toList ++ '(' :: argument.toList ++ ")?;".toList) := by
    simp only [String.toList_append, List.append_assoc]
    rfl
  have hother : between? "Xdr::serialize(&" ", ser)?;"
      ("ser.write_".toList ++ (method.toList ++ '(' :: argument.toList ++ ")?;".toList)) = none :=
    between?_eq_none rfl
  have hargument : (method.toList ++ '(' :: argument.toList).drop (method.toList.length + 1) =
      argument.toList := by
    rw [← List.drop_drop, List.drop_left]
    rfl
  unfold writeStatement
  simp only [htext, hother, between?_append, Option.bind_eq_bind, Option.bind_some,
    takeWhile_append_of_notMem hmethod, String.ofList_toList, hargument]

section Methods

variable {x : Binding} (hplace : self.scope.at? place.toList = some x)
include hplace

theorem writeStatement_bool {b : Bool} (hx : asBool x.value = some b) :
    t.writeStatement self (Strategy.bool.writeStatement place).toList = some (.bool b) := by
  show t.writeStatement self ("ser.write_" ++ "bool" ++ "(" ++ place ++ ")?;").toList = _
  rw [writeStatement_method (by decide)]
  show (do return Output.bool (← asBool (← self.scope.at? place.toList).value)) = _
  simp [hplace, hx]

theorem writeStatement_numeric {n : Numeric} {w : n.Word} (hx : n.ofValue? x.value = some w) :
    t.writeStatement self ((Strategy.numeric n).writeStatement place).toList =
      some (.number n w) := by
  have hparen : '(' ∉ n.keyword.toList := by cases n <;> decide
  have hnumber : writeMethod self n.keyword place.toList = do
      return .number n (← n.ofValue? (← self.scope.at? place.toList).value) := by
    cases n <;> rfl
  show t.writeStatement self ("ser.write_" ++ n.keyword ++ "(" ++ place ++ ")?;").toList = _
  rw [writeStatement_method hparen, hnumber]
  simp [hplace, hx]

theorem writeStatement_text {s : String} (hx : asText x.value = some s) :
    t.writeStatement self (Strategy.text.writeStatement place).toList = some (.text s) := by
  show t.writeStatement self ("ser.write_" ++ "string" ++ "(" ++ "&" ++ place ++ ")?;").toList = _
  rw [@String.append_assoc _ "&" place, writeStatement_method (by decide), String.toList_append]
  show (do
    let place ← ("&".toList ++ place.toList).dropPrefix? "&".toList
    return Output.text (← asText (← self.scope.at? place).value)) = _
  rw [dropPrefix?_append]
  simp [hplace, hx]

theorem writeStatement_blob {data : List UInt8} (hx : asBlob x.value = some data) :
    t.writeStatement self (Strategy.blob.writeStatement place).toList = some (.blob data) := by
  show t.writeStatement self ("ser.write_" ++ "opaque" ++ "(" ++ "&" ++ place ++ ")?;").toList = _
  rw [@String.append_assoc _ "&" place, writeStatement_method (by decide), String.toList_append]
  show (do
    let place ← ("&".toList ++ place.toList).dropPrefix? "&".toList
    return Output.blob (← asBlob (← self.scope.at? place).value)) = _
  rw [dropPrefix?_append]
  simp [hplace, hx]

theorem writeStatement_enumeration {path : String} {v : Int32} (hx : asOrdinal x.value = some v) :
    t.writeStatement self ((Strategy.enumeration path).writeStatement place).toList =
      some (.number .int32 v) := by
  have htext : (Strategy.enumeration path).writeStatement place =
      "ser.write_" ++ "enum" ++ "(" ++ ("i32::from(" ++ (place ++ ")")) ++ ")?;" := by
    show "ser.write_enum(i32::from(" ++ place ++ "))?;" = _
    apply String.toList_injective
    simp only [String.toList_append, List.append_assoc]
    rfl
  rw [htext, writeStatement_method (by decide), String.toList_append, String.toList_append]
  show (do
    let place ← between? "i32::from(" ")" ("i32::from(".toList ++ (place.toList ++ ")".toList))
    return Output.number .int32 (← asOrdinal (← self.scope.at? place).value)) = _
  rw [between?_append]
  simp [hplace, hx]

theorem writeStatement_compound (path : String) :
    t.writeStatement self ((Strategy.compound path).writeStatement place).toList =
      some (t.schema.encode t.cap x.type x.value) := by
  show t.writeStatement self ("Xdr::serialize(&" ++ place ++ ", ser)?;").toList = _
  rw [String.toList_append, String.toList_append, List.append_assoc]
  unfold writeStatement
  rw [between?_append]
  simp [hplace]

end Methods

/-- The emitted statement writes what encoding the value writes. -/
theorem writeStatement_eq (hs : t.strategy id = .ok strategy)
    (hv : (t.schema.encode t.cap id v).result = .ok bytes)
    (hplace : self.scope.at? place.toList = some ⟨place.toList, id, v⟩) :
    t.writeStatement self (strategy.writeStatement place).toList =
      some (t.schema.encode t.cap id v) := by
  unfold Target.strategy at hs
  cases ht : t.schema.type id with
  | bool =>
    obtain rfl : .bool = strategy := by simpa [ht] using hs
    obtain ⟨b, rfl, henc⟩ := encode_of_bool hv ht
    rw [henc, writeStatement_bool hplace rfl]
  | numeric n =>
    obtain rfl : .numeric n = strategy := by simpa [ht] using hs
    obtain ⟨w, hw, henc⟩ := encode_of_numeric hv ht
    rw [henc, writeStatement_numeric hplace hw]
  | text wide =>
    obtain rfl : .text = strategy := by simpa [ht] using hs
    obtain ⟨x, rfl, henc⟩ := encode_of_text hv ht
    rw [henc, writeStatement_text hplace rfl]
  | blob =>
    obtain rfl : .blob = strategy := by simpa [ht] using hs
    obtain ⟨data, rfl, henc⟩ := encode_of_blob hv ht
    rw [henc, writeStatement_blob hplace rfl]
  | enumeration e =>
    obtain rfl : .enumeration (t.path e.name) = strategy := by simpa [ht] using hs
    obtain ⟨w, rfl, henc⟩ := encode_of_enumeration hv ht
    rw [henc, writeStatement_enumeration hplace rfl]
  | record r =>
    obtain rfl : .compound (t.path r.name) = strategy := by simpa [ht] using hs
    exact writeStatement_compound hplace _
  | sequence q =>
    obtain rfl : .compound (t.path q.name) = strategy := by simpa [ht] using hs
    exact writeStatement_compound hplace _
  | map m =>
    simp only [ht] at hs
    split at hs
    · obtain rfl : .compound (t.path m.name) = strategy := by simpa using hs
      exact writeStatement_compound hplace _
    · cases hs
  | forward name =>
    obtain rfl : .compound (t.path name) = strategy := by simpa [ht] using hs
    exact writeStatement_compound hplace _

theorem digits?_cons_eq_none {c : Char} (hc : digit? 10 c = none) (cs : List Char) :
    digits? 10 (c :: cs) = none := by
  simp [digits?, hc]

theorem size_eq_of_fixedSize? (hs : t.strategy id = .ok strategy)
    (hv : (t.schema.encode t.cap id v).result = .ok bytes) {n : Nat}
    (hn : strategy.fixedSize? = some n) : t.schema.size id v = .ok n := by
  rw [size_of_encode hv]
  unfold Target.strategy at hs
  cases ht : t.schema.type id with
  | bool =>
    obtain rfl : .bool = strategy := by simpa [ht] using hs
    obtain ⟨b, rfl, henc⟩ := encode_of_bool hv ht
    obtain rfl : 4 = n := Option.some.inj hn
    rw [henc, Output.result_bool] at hv
    rw [← Except.ok.inj hv, length_bigEndian]
  | numeric k =>
    obtain rfl : .numeric k = strategy := by simpa [ht] using hs
    obtain ⟨w, -, henc⟩ := encode_of_numeric hv ht
    obtain rfl : k.width = n := Option.some.inj hn
    rw [henc, Output.result_number] at hv
    rw [← Except.ok.inj hv, k.length_bytes]
  | enumeration e =>
    obtain rfl : .enumeration (t.path e.name) = strategy := by simpa [ht] using hs
    obtain ⟨w, -, henc⟩ := encode_of_enumeration hv ht
    obtain rfl : 4 = n := Option.some.inj hn
    rw [henc, Output.result_number] at hv
    rw [← Except.ok.inj hv, Numeric.length_bytes]
    rfl
  | map m =>
    simp only [ht] at hs
    split at hs
    · obtain rfl : .compound (t.path m.name) = strategy := by simpa using hs
      cases hn
    · cases hs
  | _ =>
    simp only [ht, Except.ok.injEq] at hs
    subst hs
    cases hn

theorem sizeTerm_eq {scope : Scope} (hs : t.strategy id = .ok strategy)
    (hv : (t.schema.encode t.cap id v).result = .ok bytes)
    (hplace : scope.at? place.toList = some ⟨place.toList, id, v⟩)
    (hfixed : strategy.fixedSize? = none) :
    t.sizeTerm scope (strategy.sizeExpression place).toList = some bytes.length := by
  have hsize := size_of_encode hv
  have hcompound : ∀ path,
      t.sizeTerm scope ((Strategy.compound path).sizeExpression place).toList =
        some bytes.length := by
    intro path
    show t.sizeTerm scope ("Xdr::size(&" ++ place ++ ")").toList = _
    rw [String.toList_append, String.toList_append, List.append_assoc]
    have hdigits : digits? 10 ("Xdr::size(&".toList ++ (place.toList ++ ")".toList)) = none :=
      digits?_cons_eq_none (by decide) _
    have htext : between? "string_size(&" ")"
        ("Xdr::size(&".toList ++ (place.toList ++ ")".toList)) = none := between?_eq_none rfl
    have hblob : between? "opaque_size(&" ")"
        ("Xdr::size(&".toList ++ (place.toList ++ ")".toList)) = none := between?_eq_none rfl
    unfold sizeTerm
    simp only [hdigits, htext, hblob, between?_append]
    simp [hplace, hsize, Except.toOption]
  unfold Target.strategy at hs
  cases ht : t.schema.type id with
  | text wide =>
    obtain rfl : .text = strategy := by simpa [ht] using hs
    obtain ⟨x, rfl, -⟩ := encode_of_text hv ht
    have hx : textSize x = bytes.length := by
      unfold size at hsize
      rw [ht] at hsize
      exact Except.ok.inj hsize
    show t.sizeTerm scope ("string_size(&" ++ place ++ ")").toList = _
    rw [String.toList_append, String.toList_append, List.append_assoc]
    have hdigits : digits? 10 ("string_size(&".toList ++ (place.toList ++ ")".toList)) = none :=
      digits?_cons_eq_none (by decide) _
    unfold sizeTerm
    simp only [hdigits, between?_append]
    simp [hplace, hx, asText]
  | blob =>
    obtain rfl : .blob = strategy := by simpa [ht] using hs
    obtain ⟨data, rfl, -⟩ := encode_of_blob hv ht
    have hx : blobSize data.length = bytes.length := by
      unfold size at hsize
      rw [ht] at hsize
      exact Except.ok.inj hsize
    show t.sizeTerm scope ("opaque_size(&" ++ place ++ ")").toList = _
    rw [String.toList_append, String.toList_append, List.append_assoc]
    have hdigits : digits? 10 ("opaque_size(&".toList ++ (place.toList ++ ")".toList)) = none :=
      digits?_cons_eq_none (by decide) _
    have htext : between? "string_size(&" ")"
        ("opaque_size(&".toList ++ (place.toList ++ ")".toList)) = none := between?_eq_none rfl
    unfold sizeTerm
    simp only [hdigits, htext, between?_append]
    simp [hplace, hx, asBlob]
  | map m =>
    simp only [ht] at hs
    split at hs
    · obtain rfl : .compound (t.path m.name) = strategy := by simpa using hs
      exact hcompound _
    · cases hs
  | record r | sequence q | forward name =>
    simp only [ht, Except.ok.injEq] at hs
    subst hs
    exact hcompound _
  | bool | numeric n | enumeration e =>
    simp only [ht, Except.ok.injEq] at hs
    subst hs
    cases hfixed

theorem space_notMem_sizeExpression (strategy : Strategy) (h : ' ' ∉ place.toList) :
    ' ' ∉ (strategy.sizeExpression place).toList := by
  have hcall : ∀ callee : String, ' ' ∉ callee.toList → ' ' ∉ (callee ++ place ++ ")").toList := by
    intro callee hcallee
    simp [String.toList_append, h, hcallee]
  cases strategy with
  | bool | enumeration _ =>
    show ' ' ∉ "4".toList
    decide
  | numeric n => exact space_notMem_toString n.width
  | text => exact hcall "string_size(&" (by decide)
  | blob => exact hcall "opaque_size(&" (by decide)
  | compound _ => exact hcall "Xdr::size(&" (by decide)

theorem sizeSum_intercalate {scope : Scope} {parts : List String} {sizes : List Nat}
    (hne : parts ≠ []) (hblank : ∀ p ∈ parts, ' ' ∉ p.toList)
    (h : parts.map (fun p => t.sizeTerm scope p.toList) = sizes.map some) :
    t.sizeSum scope (splitWhere (· == ' ') (" + ".intercalate parts).toList) = some sizes.sum := by
  induction parts generalizing sizes with
  | nil => exact absurd rfl hne
  | cons p parts ih =>
    obtain ⟨n, sizes, rfl⟩ := List.exists_cons_of_ne_nil (l := sizes) (by rintro rfl; simp at h)
    have hp : t.sizeTerm scope p.toList = some n := (List.cons_eq_cons.mp h).1
    have hrest := (List.cons_eq_cons.mp h).2
    have hpblank := hblank p List.mem_cons_self
    cases parts with
    | nil =>
      obtain rfl : sizes = [] := by simpa using hrest.symm
      rw [String.intercalate_singleton, splitWhere_of_notMem hpblank, sizeSum, hp]
      simp
    | cons q parts =>
      have htail := ih (by simp) (fun r hr => hblank r (.tail _ hr)) hrest
      have htext : (" + ".intercalate (p :: q :: parts)).toList =
          p.toList ++ ' ' :: ("+".toList ++ ' ' :: (" + ".intercalate (q :: parts)).toList) := by
        rw [String.intercalate_cons_cons, String.toList_append, String.toList_append,
          List.append_assoc]
        rfl
      rw [htext, splitWhere_append hpblank, splitWhere_append (by decide)]
      show t.sizeSum scope (p.toList :: ['+'] :: _) = _
      rw [sizeSum, hp, htail]
      simp

/-- What a summand comes to. -/
def TermSize (t : Target) (scope : Scope) : SizeTerm → Nat → Prop
  | .fixed m, n => m = n
  | .varying strategy place, n =>
    t.sizeTerm scope (strategy.sizeExpression place).toList = some n ∧ ' ' ∉ place.toList

theorem termSize_ofStrategy {scope : Scope} (hs : t.strategy id = .ok strategy)
    (hv : (t.schema.encode t.cap id v).result = .ok bytes)
    (hplace : scope.at? place.toList = some ⟨place.toList, id, v⟩) (hblank : ' ' ∉ place.toList) :
    t.TermSize scope (.ofStrategy strategy place) bytes.length := by
  unfold SizeTerm.ofStrategy
  cases hfixed : strategy.fixedSize? with
  | some n =>
    have hsize := size_eq_of_fixedSize? hs hv hfixed
    rw [size_of_encode hv] at hsize
    exact (Except.ok.inj hsize).symm
  | none => exact ⟨sizeTerm_eq hs hv hplace hfixed, hblank⟩

/-- Folding the fixed summands does not change the sum. -/
theorem exists_varying_sizes {scope : Scope} {terms : List SizeTerm} {sizes : List Nat}
    (h : List.Forall₂ (t.TermSize scope) terms sizes) :
    ∃ varying : List Nat,
      (terms.filterMap SizeTerm.varying?).map (fun p => t.sizeTerm scope p.toList) =
        varying.map some ∧
      (∀ p ∈ terms.filterMap SizeTerm.varying?, ' ' ∉ p.toList) ∧
      SizeTerm.fixedTotal terms + varying.sum = sizes.sum := by
  induction h with
  | nil => exact ⟨[], rfl, by simp, rfl⟩
  | @cons term n terms sizes hterm _ ih =>
    obtain ⟨varying, hmap, hblank, hsum⟩ := ih
    cases term with
    | fixed m =>
      obtain rfl : m = n := hterm
      refine ⟨varying, hmap, hblank, ?_⟩
      rw [List.sum_cons, ← hsum, ← Nat.add_assoc]
      rfl
    | varying strategy place =>
      obtain ⟨hsize, hplace⟩ := hterm
      refine ⟨n :: varying, ?_, ?_, ?_⟩
      · exact congrArg₂ List.cons hsize hmap
      · exact List.forall_mem_cons.mpr ⟨space_notMem_sizeExpression strategy hplace, hblank⟩
      · rw [List.sum_cons, List.sum_cons, ← hsum]
        show SizeTerm.fixedTotal terms + (n + varying.sum) = _
        omega

theorem sizeTerm_toString {scope : Scope} (n : Nat) :
    t.sizeTerm scope (toString n).toList = some n := by
  unfold sizeTerm
  rw [digits?_toString]

/-- The emitted sum comes to the sum of what its terms come to. -/
theorem sizeSum_sumText {scope : Scope} {terms : List SizeTerm} {sizes : List Nat}
    (h : List.Forall₂ (t.TermSize scope) terms sizes) :
    t.sizeSum scope (splitWhere (· == ' ') (SizeTerm.sumText terms).toList) = some sizes.sum := by
  obtain ⟨varying, hmap, hblank, hsum⟩ := exists_varying_sizes h
  unfold SizeTerm.sumText
  simp only
  split_ifs with hfold
  · rw [← hsum, ← List.sum_cons]
    apply sizeSum_intercalate (by simp)
    · exact List.forall_mem_cons.mpr ⟨space_notMem_toString _, hblank⟩
    · rw [List.map_cons, List.map_cons, sizeTerm_toString, hmap]
  · simp only [not_or, Nat.not_lt, Nat.le_zero_eq, List.isEmpty_iff] at hfold
    rw [← hsum, hfold.1, Nat.zero_add]
    exact sizeSum_intercalate hfold.2 hblank hmap

theorem mapM_eq_some_of_forall₂ {α β : Type} {f : α → Option β} {xs : List α} {ys : List β}
    (h : List.Forall₂ (fun x y => f x = some y) xs ys) : xs.mapM f = some ys := by
  induction h with
  | nil => rfl
  | cons hx _ ih => simp [List.mapM_cons, hx, ih]

section Entries

variable {scope : Scope} {pattern : String} {entries : List Scope}

/-- A container is written as its count and its entries, one after the other. -/
theorem runWrite_entries {body : List Step} {outputs : List Output}
    (h : List.Forall₂ (fun entry o =>
      t.writeLines ⟨entry, some (pattern, entries)⟩ body = some o) entries outputs) :
    t.runWrite ⟨scope, some (pattern, entries)⟩ [.line "ser.write_count(self.0.len())?;",
        .block ("for " ++ pattern ++ " in &self.0") body, .line "Ok(())"] =
      some (.count entries.length ++ outputs.foldr (· ++ ·) .done) := by
  have hcount : t.writeStatement ⟨scope, some (pattern, entries)⟩
      "ser.write_count(self.0.len())?;".toList = some (.count entries.length) := rfl
  have hbody := mapM_eq_some_of_forall₂ h
  have hend : t.runWrite ⟨scope, some (pattern, entries)⟩ [.line "Ok(())"] = some .done := rfl
  have hloop : t.runWrite ⟨scope, some (pattern, entries)⟩
      [.block ("for " ++ pattern ++ " in &self.0") body, .line "Ok(())"] =
        some (outputs.foldr (· ++ ·) .done) := by
    rw [runWrite]
    simp [hbody, hend, guard]
  rw [runWrite, hcount]
  simp [hloop]

/-- The emitted size of a container is that of its count and of the terms of every entry. -/
theorem sizeExpression_entries {terms : List SizeTerm} {sizes : List (List Nat)}
    (h : List.Forall₂ (fun entry => List.Forall₂ (t.TermSize entry) terms) entries sizes) :
    t.sizeExpression ⟨scope, some (pattern, entries)⟩
        (SizeExpression.entries pattern terms).text.toList =
      some (4 + (sizes.map List.sum).sum) := by
  unfold SizeExpression.text
  simp only
  split_ifs with hfixed
  · have hvarying : terms.filterMap SizeTerm.varying? = [] := by
      rw [List.filterMap_eq_nil_iff]
      intro term hterm
      have hsome := List.all_eq_true.mp hfixed term hterm
      cases term with
      | fixed n => rfl
      | varying strategy place => cases hsome
    have hsum : (sizes.map List.sum).sum = entries.length * SizeTerm.fixedTotal terms := by
      induction h with
      | nil => simp
      | @cons entry counts entries sizes hentry _ ih =>
        obtain ⟨varying, hmap, -, htotal⟩ := exists_varying_sizes hentry
        obtain rfl : varying = [] := by simpa [hvarying] using hmap.symm
        rw [List.map_cons, List.sum_cons, ih, ← htotal, List.length_cons, Nat.succ_mul]
        simp [Nat.add_comm]
    show t.sizeExpression _
      ("4 + self.0.len() * " ++ toString (SizeTerm.fixedTotal terms)).toList = _
    rw [String.toList_append]
    unfold sizeExpression
    simp only [dropPrefix?_append, digits?_toString, hsum]
    rfl
  · have hsizes : entries.mapM (fun entry =>
        t.sizeSum entry (splitWhere (· == ' ') (SizeTerm.sumText terms).toList)) =
          some (sizes.map List.sum) := by
      apply mapM_eq_some_of_forall₂
      rw [List.forall₂_map_right_iff]
      exact h.imp fun _ _ => sizeSum_sumText
    show t.sizeExpression _ ("4 + self.0.iter().map(|" ++ pattern ++ "| " ++
      SizeTerm.sumText terms ++ ").sum::<usize>()").toList = _
    rw [String.toList_append, String.toList_append, List.append_assoc]
    have hstart : (("4 + self.0.iter().map(|" ++ pattern ++ "| ").toList ++
        ((SizeTerm.sumText terms).toList ++ ").sum::<usize>()".toList)).dropPrefix?
          "4 + self.0.len() * ".toList = none := by
      rw [String.append_assoc, String.toList_append, List.append_assoc]
      rfl
    unfold sizeExpression
    simp only [hstart, between?_append]
    simp [hsizes]

end Entries

end Target
end WireSchema.Source
