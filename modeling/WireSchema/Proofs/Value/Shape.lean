import WireSchema.Proofs.Value.Size

/-!
# Shapes of values

Whether a value has a size depends on its shape alone: on how records, sequences and maps are nested
and on the names of fields, not on ranges, enumerators, caps or the names of records. A value
without the shape of a type is refused as a mismatch and never for another reason.
-/
namespace WireSchema

open Wire Schema

namespace Schema

/-- The values that are built as a type asks for. -/
inductive HasShape (s : Schema) : TypeId → Value → Prop
  | bool {id : TypeId} {b : Bool} (ht : s.type id = .bool) : HasShape s id (.bool b)
  | number {id : TypeId} {n : Numeric} {v : Value} (ht : s.type id = .numeric n)
    (hv : v.IsNumber) : HasShape s id v
  | text {id : TypeId} {wide : Bool} {t : String} (ht : s.type id = .text wide) :
    HasShape s id (.text t)
  | blob {id : TypeId} {data : List UInt8} (ht : s.type id = .blob) : HasShape s id (.blob data)
  | ordinal {id : TypeId} {e : EnumType} {w : Int32} (ht : s.type id = .enumeration e) :
    HasShape s id (.ordinal w)
  | record {id : TypeId} {r : RecordType} {name : String} {fields : List (String × Value)}
    (ht : s.type id = .record r) (hnames : fields.map (·.1) = r.members.map (·.name))
    (hfields : ∀ p ∈ r.members.zip fields, HasShape s p.1.type p.2.2) :
    HasShape s id (.record name fields)
  | sequence {id : TypeId} {q : SequenceType} {elements : List Value} (ht : s.type id = .sequence q)
    (helements : ∀ v ∈ elements, HasShape s q.element v) : HasShape s id (.sequence elements)
  | map {id : TypeId} {m : MapType} {pairs : List (Value × Value)} (ht : s.type id = .map m)
    (hkeys : ∀ p ∈ pairs, HasShape s m.key p.1) (hvalues : ∀ p ∈ pairs, HasShape s m.value p.2) :
    HasShape s id (.map pairs)

end Schema

/-- A result that is there exactly if `P` holds, and otherwise fails with a mismatch. -/
def Matched {α : Type} (P : Prop) (x : Except WireError α) : Prop :=
  (P ∧ ∃ a, x = .ok a) ∨ (¬ P ∧ ∃ typeName, x = .error (.typeMismatch typeName))

namespace Matched

variable {α β : Type} {P Q : Prop} {x : Except WireError α}

theorem of_ok {a : α} (h : P) : Matched P (.ok a) := .inl ⟨h, a, rfl⟩

theorem of_mismatch {typeName : String} (h : ¬ P) :
    Matched P (.error (.typeMismatch typeName) : Except WireError α) :=
  .inr ⟨h, typeName, rfl⟩

theorem congr (h : Matched P x) (hiff : P ↔ Q) : Matched Q x := by
  unfold Matched at h ⊢
  rwa [← hiff]

theorem map (h : Matched P x) (f : α → β) : Matched P (do return f (← x)) := by
  rcases h with ⟨hp, a, rfl⟩ | ⟨hp, typeName, rfl⟩
  · exact of_ok hp
  · exact of_mismatch hp

theorem bind {f : α → Except WireError β} (hx : Matched P x) (hf : ∀ a, Matched Q (f a)) :
    Matched (P ∧ Q) (x >>= f) := by
  rcases hx with ⟨hp, a, rfl⟩ | ⟨hp, typeName, rfl⟩
  · exact (hf a).congr ⟨fun hq => ⟨hp, hq⟩, And.right⟩
  · exact of_mismatch fun h => hp h.1

end Matched

namespace Schema

variable {s : Schema}

theorem matched_sizeFields {P : TypeId → Value → Prop} {members : List Member}
    {fields : List (String × Value)}
    (hnames : fields.map (·.1) = members.map (·.name))
    (h : ∀ f ∈ fields, ∀ id, Matched (P id f.2) (s.size id f.2)) :
    Matched (∀ p ∈ members.zip fields, P p.1.type p.2.2) (s.sizeFields members fields) := by
  induction members generalizing fields with
  | nil =>
    obtain rfl : fields = [] := by simpa using hnames
    rw [sizeFields_nil]
    exact .of_ok (by simp)
  | cons m members ih =>
    cases fields with
    | nil => simp at hnames
    | cons f fields =>
      obtain ⟨hf, hrest⟩ := List.forall_mem_cons.mp h
      rw [sizeFields, List.zip_cons_cons, List.forall_mem_cons]
      exact (hf m.type).bind fun n => (ih (List.cons_eq_cons.mp hnames).2 hrest).map (n + ·)

theorem matched_sizeElements {P : TypeId → Value → Prop} {element : TypeId} {elements : List Value}
    (h : ∀ v ∈ elements, ∀ id, Matched (P id v) (s.size id v)) :
    Matched (∀ v ∈ elements, P element v) (s.sizeElements element elements) := by
  induction elements with
  | nil =>
    rw [sizeElements_nil]
    exact .of_ok (by simp)
  | cons v elements ih =>
    obtain ⟨hv, hrest⟩ := List.forall_mem_cons.mp h
    rw [sizeElements, List.forall_mem_cons]
    exact (hv element).bind fun n => (ih hrest).map (n + ·)

theorem matched_sizePairs {P : TypeId → Value → Prop} {key value : TypeId}
    {pairs : List (Value × Value)}
    (h : ∀ p ∈ pairs, (∀ id, Matched (P id p.1) (s.size id p.1)) ∧
      ∀ id, Matched (P id p.2) (s.size id p.2)) :
    Matched (∀ p ∈ pairs, P key p.1 ∧ P value p.2) (s.sizePairs key value pairs) := by
  induction pairs with
  | nil =>
    rw [sizePairs_nil]
    exact .of_ok (by simp)
  | cons p pairs ih =>
    obtain ⟨⟨hk, hv⟩, hrest⟩ := List.forall_mem_cons.mp h
    rw [sizePairs, List.forall_mem_cons, and_assoc]
    exact (hk key).bind fun m => (hv value).bind fun n => (ih hrest).map (m + n + ·)

/-- A value has a size exactly if it has the shape of the type. -/
theorem matched_size (id : TypeId) (v : Value) : Matched (s.HasShape id v) (s.size id v) := by
  induction v using Value.induction generalizing id with
  | sequence elements ih =>
    unfold size
    cases ht : s.type id with
    | sequence q =>
      refine ((matched_sizeElements ih).map (4 + ·)).congr ⟨.sequence ht, fun h => ?_⟩
      cases h <;> grind
    | _ => exact .of_mismatch fun h => by cases h <;> grind [cases Value.IsNumber]
  | record name fields ih =>
    unfold size
    cases ht : s.type id with
    | record r =>
      dsimp only
      split
      next hfit =>
        have hnames := names_of_fits hfit
        refine (matched_sizeFields hnames ih).congr ⟨.record ht hnames, fun h => ?_⟩
        cases h <;> grind
      next hfit => exact .of_mismatch fun h => by cases h <;> grind [RecordType.fits]
    | _ => exact .of_mismatch fun h => by cases h <;> grind [cases Value.IsNumber]
  | map pairs ih =>
    unfold size
    cases ht : s.type id with
    | map q =>
      refine ((matched_sizePairs ih).map (4 + ·)).congr ⟨fun h => .map ht ?_ ?_, fun h => ?_⟩
      · exact fun p hp => (h p hp).1
      · exact fun p hp => (h p hp).2
      · cases h <;> grind
    | _ => exact .of_mismatch fun h => by cases h <;> grind [cases Value.IsNumber]
  | number v hv =>
    unfold size
    cases hv <;> cases ht : s.type id with
    | numeric n => exact .of_ok (.number ht (by constructor))
    | _ =>
      refine .of_mismatch fun h => ?_
      cases h
      grind
  | bool b =>
    unfold size
    cases ht : s.type id with
    | bool => exact .of_ok (.bool ht)
    | _ => exact .of_mismatch fun h => by cases h <;> grind [cases Value.IsNumber]
  | text t =>
    unfold size
    cases ht : s.type id with
    | text wide => exact .of_ok (.text ht)
    | _ => exact .of_mismatch fun h => by cases h <;> grind [cases Value.IsNumber]
  | blob bytes =>
    unfold size
    cases ht : s.type id with
    | blob => exact .of_ok (.blob ht)
    | _ => exact .of_mismatch fun h => by cases h <;> grind [cases Value.IsNumber]
  | ordinal w =>
    unfold size
    cases ht : s.type id with
    | enumeration e => exact .of_ok (.ordinal ht)
    | _ => exact .of_mismatch fun h => by cases h <;> grind [cases Value.IsNumber]

end Schema
end WireSchema
