import Mathlib.Data.List.Nodup
import Mathlib.Data.List.Sort
import WireSchema.Document.Json

/-!
# The order of fields

An object says what stands under each of its keys, and the order in which it does so is a matter of
the writer. Two values are rearrangements of each other when sorting the fields of all their objects
makes them equal. Records are read key by key, so a rearrangement is read in the same way.
-/
namespace WireSchema.Json

mutual

/-- The same value with the fields of every object in the order of their keys. -/
def sorted : Json → Json
  | .arr items => .arr (sortedItems items)
  | .obj fields => .obj ((sortedFields fields).insertionSort fun f g => (compare f.1 g.1).isLE)
  | j => j

def sortedItems : List Json → List Json
  | [] => []
  | j :: items => j.sorted :: sortedItems items

def sortedFields : List (String × Json) → List (String × Json)
  | [] => []
  | (key, j) :: fields => (key, j.sorted) :: sortedFields fields

end

/-- Values that differ in the order of the fields of their objects only. -/
def Rearranges (j k : Json) : Prop := j.sorted = k.sorted

def sortField (f : String × Json) : String × Json := (f.1, f.2.sorted)

theorem sortedItems_eq (items : List Json) : sortedItems items = items.map sorted := by
  induction items with
  | nil => rfl
  | cons j items ih => rw [sortedItems, ih, List.map_cons]

theorem sortedFields_eq (fields : List (String × Json)) :
    sortedFields fields = fields.map sortField := by
  induction fields with
  | nil => rfl
  | cons f fields ih => rw [sortedFields, ih, List.map_cons, sortField]

theorem sorted_arr (items : List Json) : (arr items).sorted = .arr (items.map sorted) := by
  rw [sorted, sortedItems_eq]

/-- Sorting permutes the fields and sorts what stands under them. -/
theorem sorted_obj (fields : List (String × Json)) :
    ∃ fields', (obj fields).sorted = .obj fields' ∧ fields'.Perm (fields.map sortField) := by
  refine ⟨_, ?_, List.perm_insertionSort (fun f g => (compare f.1 g.1).isLE) (fields.map sortField)⟩
  rw [sorted, sortedFields_eq]

theorem map_fst_sortField (fields : List (String × Json)) :
    (fields.map sortField).map (·.1) = fields.map (·.1) := by
  rw [List.map_map]
  rfl

theorem lookup_map_sortField (fields : List (String × Json)) (key : String) :
    (fields.map sortField).lookup key = (fields.lookup key).map sorted := by
  induction fields with
  | nil => rfl
  | cons f fields ih =>
    rw [List.map_cons, sortField, List.lookup_cons, List.lookup_cons, ih]
    split <;> rfl

theorem lookup_eq_some_iff_mem {fields : List (String × Json)} {key : String} {j : Json}
    (hnodup : (fields.map (·.1)).Nodup) : fields.lookup key = some j ↔ (key, j) ∈ fields := by
  rw [List.lookup_eq_some_iff]
  constructor
  · rintro ⟨before, after, rfl, -⟩
    exact List.mem_append_right before List.mem_cons_self
  · intro h
    obtain ⟨before, after, rfl⟩ := List.append_of_mem h
    refine ⟨before, after, rfl, fun f hf => ?_⟩
    rw [List.map_append, List.map_cons] at hnodup
    have hne : f.1 ≠ key := (List.nodup_append.mp hnodup).2.2 _ (List.mem_map_of_mem hf) _
      List.mem_cons_self
    exact bne_iff_ne.mpr hne.symm

/-- With distinct keys the order of the fields does not matter. -/
theorem lookup_perm {fields fields' : List (String × Json)} (h : fields'.Perm fields)
    (hnodup : (fields.map (·.1)).Nodup) (key : String) :
    fields'.lookup key = fields.lookup key := by
  have hnodup' : (fields'.map (·.1)).Nodup := (h.map (·.1)).nodup_iff.mpr hnodup
  apply Option.ext
  intro j
  rw [lookup_eq_some_iff_mem hnodup', lookup_eq_some_iff_mem hnodup, h.mem_iff]

theorem unique?_perm {fields fields' : List (String × Json)}
    (h : fields'.Perm (fields.map sortField)) (key : String) :
    unique? key fields' = (unique? key fields).map (Option.map sorted) := by
  have hfilter : (fields'.filter (·.1 == key)).Perm
      ((fields.filter (·.1 == key)).map sortField) := by
    have hperm := h.filter (·.1 == key)
    rwa [List.filter_map] at hperm
  unfold unique?
  generalize fields'.filter (·.1 == key) = found' at hfilter
  generalize fields.filter (·.1 == key) = found at hfilter
  match found with
  | [] =>
    obtain rfl := List.perm_nil.mp hfilter
    rfl
  | [f] =>
    obtain rfl := List.perm_singleton.mp hfilter
    rfl
  | f :: g :: rest =>
    have hlength := hfilter.length_eq
    match found' with
    | [] => cases hlength
    | [_] => cases hlength
    | _ :: _ :: _ => rfl

theorem exactlyOne?_perm {fields fields' : List (String × Json)}
    (h : fields'.Perm (fields.map sortField)) (key : String) :
    exactlyOne? key fields' = (exactlyOne? key fields).map sorted := by
  rw [exactlyOne?, exactlyOne?, unique?_perm h]
  cases unique? key fields with
  | none => rfl
  | some found => rfl

/-- A reader that gives the same answer for a value and its rearrangements. -/
def IgnoresOrder {α : Type} (read : Json → Option α) : Prop := ∀ j, read j.sorted = read j

theorem IgnoresOrder.of_rearranges {α : Type} {read : Json → Option α} (h : IgnoresOrder read)
    {j k : Json} (hjk : j.Rearranges k) : read j = read k := by
  rw [← h j, ← h k, hjk]

variable {α : Type} {decode : Json → Option α}

theorem IgnoresOrder.map_sorted (h : IgnoresOrder decode) (found : Option Json) :
    (found.map sorted).bind decode = found.bind decode := by
  cases found with
  | none => rfl
  | some j => exact h j

theorem ignoresOrder_of_scalar (harr : ∀ items, decode (.arr items) = none)
    (hobj : ∀ fields, decode (.obj fields) = none) : IgnoresOrder decode := by
  intro j
  cases j with
  | arr items => rw [sorted_arr, harr, harr]
  | obj fields =>
    obtain ⟨fields', hsorted, -⟩ := sorted_obj fields
    rw [hsorted, hobj, hobj]
  | _ => rfl

theorem ignoresOrder_text? : IgnoresOrder text? :=
  ignoresOrder_of_scalar (fun _ => rfl) fun _ => rfl

theorem ignoresOrder_bool? : IgnoresOrder bool? :=
  ignoresOrder_of_scalar (fun _ => rfl) fun _ => rfl

theorem ignoresOrder_int64? : IgnoresOrder int64? :=
  ignoresOrder_of_scalar (fun _ => rfl) fun _ => rfl

theorem items?_sorted (j : Json) : j.sorted.items? = j.items?.map (·.map sorted) := by
  cases j with
  | arr items => rw [sorted_arr]; rfl
  | obj fields =>
    obtain ⟨fields', hsorted, -⟩ := sorted_obj fields
    rw [hsorted]
    rfl
  | _ => rfl

theorem ignoresOrder_list? (h : IgnoresOrder decode) : IgnoresOrder (list? decode) := by
  intro j
  have hitems : ∀ items : List Json, (items.map sorted).mapM decode = items.mapM decode := by
    intro items
    rw [List.mapM_map]
    exact congrArg (fun f => items.mapM f) (funext h)
  rw [list?, list?, items?_sorted]
  cases j.items? with
  | none => rfl
  | some items => exact hitems items

theorem ignoresOrder_nullable? (h : IgnoresOrder decode) : IgnoresOrder (nullable? decode) := by
  intro j
  have hnotNull : ∀ k : Json, k ≠ .null → nullable? decode k = (decode k).map some := by
    intro k hk
    cases k with
    | null => exact absurd rfl hk
    | _ => rfl
  by_cases hj : j = .null
  · rw [hj]
    rfl
  · have hsorted : j.sorted ≠ .null := by
      cases j with
      | null => exact absurd rfl hj
      | arr items => simp [sorted_arr]
      | obj fields =>
        obtain ⟨fields', hsorted, -⟩ := sorted_obj fields
        simp [hsorted]
      | _ => exact hj
    rw [hnotNull _ hsorted, hnotNull j hj, h j]

def Record.Sorts (r r' : Record) : Prop :=
  ∀ key, r'.fields.lookup key = (r.fields.lookup key).map sorted

section Record

variable {r r' : Record}

theorem Record.Sorts.required_eq (h : r.Sorts r') (hdecode : IgnoresOrder decode) (name : String) :
    r'.required name decode = r.required name decode := by
  rw [Record.required, Record.required, h]
  exact hdecode.map_sorted _

theorem Record.Sorts.optional_eq (h : r.Sorts r') (hdecode : IgnoresOrder decode) (name : String)
    (default : α) : r'.optional name default decode = r.optional name default decode := by
  rw [Record.optional, Record.optional, h]
  cases r.fields.lookup name with
  | none => rfl
  | some j => exact hdecode j

theorem Record.Sorts.childItems_eq (h : r.Sorts r') (name : String) :
    r'.childItems name = (r.childItems name).map (·.map sorted) := by
  rw [Record.childItems, Record.childItems, Record.optional, Record.optional, h]
  cases r.fields.lookup name with
  | none => rfl
  | some j => exact items?_sorted j

theorem lookup_zip_sorted (names : List String) (items : List Json) (key : String) :
    (names.zip (items.map sorted)).lookup key = ((names.zip items).lookup key).map sorted := by
  have hzip : names.zip (items.map sorted) = (names.zip items).map sortField := by
    rw [List.zip_map_right]
    rfl
  rw [hzip, lookup_map_sortField]

/-- A rearranged value gives a record with the same fields, or none as well. -/
theorem record?_sorted (names : List String) (j : Json) :
    (j.record? names = none ∧ j.sorted.record? names = none) ∨
      ∃ r r', j.record? names = some r ∧ j.sorted.record? names = some r' ∧ r.Sorts r' := by
  cases j with
  | arr items =>
    rw [sorted_arr]
    by_cases hlength : items.length ≤ names.length
    · refine .inr ⟨_, _, if_pos hlength, if_pos (by simpa using hlength), ?_⟩
      exact lookup_zip_sorted names items
    · exact .inl ⟨if_neg hlength, if_neg (by simpa using hlength)⟩
  | obj fields =>
    obtain ⟨fields', hsorted, hperm⟩ := sorted_obj fields
    have hkeys : (fields'.map (·.1)).Perm (fields.map (·.1)) := by
      rw [← map_fst_sortField fields]
      exact hperm.map (·.1)
    have hallowed : fields'.all (fun f => f.1 ∈ names) = fields.all (fun f => f.1 ∈ names) := by
      have hall : ∀ fs : List (String × Json),
          fs.all (fun f => f.1 ∈ names) = (fs.map (·.1)).all (· ∈ names) := by
        intro fs
        rw [List.all_map]
        rfl
      rw [hall, hall, hkeys.all_eq]
    have hdistinct : distinctKeys fields' = distinctKeys fields := by
      rw [distinctKeys, distinctKeys, decide_eq_decide]
      exact hkeys.nodup_iff
    rw [hsorted]
    by_cases hfits : (distinctKeys fields && fields.all fun f => f.1 ∈ names) = true
    · refine .inr ⟨⟨fields⟩, ⟨fields'⟩, if_pos hfits, ?_, ?_⟩
      · exact if_pos (by rw [hdistinct, hallowed, hfits])
      · intro key
        have hnodup : (fields.map (·.1)).Nodup :=
          of_decide_eq_true (Bool.and_eq_true_iff.mp hfits).1
        rw [← lookup_map_sortField]
        exact lookup_perm hperm (by rwa [map_fst_sortField]) key
    · exact .inl ⟨if_neg hfits, if_neg (by rwa [hdistinct, hallowed])⟩
  | _ => exact .inl ⟨rfl, rfl⟩

theorem ignoresOrder_record {names : List String} {read : Record → Option α}
    (h : ∀ r r' : Record, r.Sorts r' → read r' = read r) :
    IgnoresOrder fun j => (j.record? names).bind read := by
  intro j
  rcases record?_sorted names j with ⟨hnone, hnone'⟩ | ⟨r, r', hr, hr', hsorts⟩
  · simp only [hnone, hnone']
  · simp only [hr, hr', Option.bind_some, h r r' hsorts]

end Record

end WireSchema.Json
