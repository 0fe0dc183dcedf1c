import WireSchema.Json.Value

/-!
# Records in JSON

A record with fixed fields is written as an object, or as an array of its fields in their declared
order. An object may name each field once and no other field; an array may leave off fields at its
end.
-/
namespace WireSchema.Json

/-- The fields that a value gives, each at most once. -/
structure Record where
  fields : List (String × Json)

def distinctKeys (fields : List (String × Json)) : Bool :=
  decide (fields.map (·.1)).Nodup

/-- Reads a value as a record with the given field names. -/
def record? (names : List String) : Json → Option Record
  | .obj fields =>
    if distinctKeys fields && fields.all (fun f => f.1 ∈ names) then some ⟨fields⟩ else none
  | .arr items => if items.length ≤ names.length then some ⟨names.zip items⟩ else none
  | _ => none

namespace Record

variable {α : Type} (r : Record)

def required (name : String) (decode : Json → Option α) : Option α :=
  (r.fields.lookup name).bind decode

/-- A field that takes `default` when it is left out. -/
def optional (name : String) (default : α) (decode : Json → Option α) : Option α :=
  match r.fields.lookup name with
  | none => some default
  | some j => decode j

/-- The items of an array field, none if it is left out. -/
def childItems (name : String) : Option (List Json) :=
  r.optional name [] items?

end Record

def list? {α : Type} (decode : Json → Option α) (j : Json) : Option (List α) :=
  j.items?.bind (·.mapM decode)

def nullable? {α : Type} (decode : Json → Option α) : Json → Option (Option α)
  | .null => some none
  | j => (decode j).map some

theorem sizeOf_lt_of_lookup {fields : List (String × Json)} {key : String} {j : Json}
    (h : fields.lookup key = some j) : sizeOf j < sizeOf fields := by
  induction fields with
  | nil => simp at h
  | cons f fields ih =>
    obtain ⟨k, v⟩ := f
    rw [List.lookup_cons] at h
    split at h
    · cases h
      simp
      omega
    · have := ih h
      simp
      omega

theorem sizeOf_lt_of_lookup_zip {names : List String} {items : List Json} {key : String} {j : Json}
    (h : (names.zip items).lookup key = some j) : sizeOf j < sizeOf items := by
  induction names generalizing items with
  | nil => simp at h
  | cons n names ih =>
    cases items with
    | nil => simp at h
    | cons i items =>
      rw [List.zip_cons_cons, List.lookup_cons] at h
      split at h
      · cases h
        simp
        omega
      · have := ih h
        simp
        omega

namespace Record

/-- A field of a record is smaller than the value that gave the record. -/
theorem sizeOf_lookup_lt {names : List String} {j v : Json} {r : Record} {key : String}
    (hr : j.record? names = some r) (hv : r.fields.lookup key = some v) : sizeOf v < sizeOf j := by
  cases j with
  | obj fields =>
    simp only [record?] at hr
    split at hr
    · cases hr
      have smaller : sizeOf v < sizeOf fields := sizeOf_lt_of_lookup hv
      simp
      omega
    · contradiction
  | arr items =>
    simp only [record?] at hr
    split at hr
    · cases hr
      have := sizeOf_lt_of_lookup_zip hv
      simp
      omega
    · contradiction
  | _ => simp [record?] at hr

theorem sizeOf_childItems_lt {names : List String} {j : Json} {r : Record} {key : String}
    {items : List Json} (hr : j.record? names = some r) (hi : r.childItems key = some items) :
    sizeOf items < sizeOf j := by
  simp only [childItems, optional] at hi
  split at hi
  · cases hi
    cases j with
    | obj fields =>
      cases fields <;>
        simp only [obj.sizeOf_spec, List.nil.sizeOf_spec, List.cons.sizeOf_spec] <;> omega
    | arr items =>
      cases items <;>
        simp only [arr.sizeOf_spec, List.nil.sizeOf_spec, List.cons.sizeOf_spec] <;> omega
    | _ => simp [record?] at hr
  · rename_i v hv
    have := sizeOf_lookup_lt hr hv
    cases v with
    | arr items' =>
      cases hi
      simp at this
      omega
    | _ => simp [items?] at hi

end Record
end WireSchema.Json
