import Mathlib.Algebra.Group.Int.Defs
import Mathlib.Algebra.Group.Nat.Defs
import WireSchema.Proofs.Json.Order

/-!
# Documents read back

A document is written with every field present. It is read back from that form, in whatever order
the fields of an object stand, exactly if each of its constants could have been read in the first
place: an integer that fits a signed word is not kept as a natural number, and a double is finite.
Whatever was read has only such constants, so reading, writing and reading again changes nothing.
-/
namespace WireSchema

open Json

namespace Json

/-- A writer and a reader that belong together. What was written is read back exactly for the values
with `P`, and no other values are ever read. -/
structure Codes {α : Type} (write : α → Json) (read : Json → Option α) (P : α → Prop) : Prop where
  read_write_iff : ∀ a, read (write a) = some a ↔ P a
  of_read : ∀ j a, read j = some a → P a
  ignoresOrder : IgnoresOrder read

section Codes

variable {α : Type} {write : α → Json} {read : Json → Option α} {P : α → Prop}

theorem codes_of_read_write (h : ∀ a, read (write a) = some a) (hread : IgnoresOrder read) :
    Codes write read fun _ => True :=
  ⟨fun a => iff_true_intro (h a), fun _ _ _ => trivial, hread⟩

theorem mapM_write_iff (h : Codes write read P) (as : List α) :
    (as.map write).mapM read = some as ↔ ∀ a ∈ as, P a := by
  induction as with
  | nil => simp
  | cons a as ih =>
    rw [List.forall_mem_cons, ← ih, ← h.read_write_iff]
    simp only [List.map_cons, List.mapM_cons, Option.bind_eq_bind, Option.bind_eq_some_iff,
      Option.pure_def, Option.some.injEq, List.cons.injEq]
    constructor
    · rintro ⟨b, hb, bs, hbs, rfl, rfl⟩
      exact ⟨hb, hbs⟩
    · rintro ⟨ha, has⟩
      exact ⟨a, ha, as, has, rfl, rfl⟩

theorem of_mapM_read (h : Codes write read P) {items : List Json} {as : List α}
    (has : items.mapM read = some as) : ∀ a ∈ as, P a := by
  induction items generalizing as with
  | nil =>
    obtain rfl : as = [] := by simpa using has.symm
    simp
  | cons j items ih =>
    simp only [List.mapM_cons, Option.bind_eq_bind, Option.bind_eq_some_iff, Option.pure_def,
      Option.some.injEq] at has
    obtain ⟨a, ha, rest, hrest, rfl⟩ := has
    exact List.forall_mem_cons.mpr ⟨h.of_read j a ha, ih hrest⟩

theorem Codes.list (h : Codes write read P) :
    Codes (fun as => .arr (as.map write)) (list? read) fun as => ∀ a ∈ as, P a where
  read_write_iff := mapM_write_iff h
  of_read := by
    intro j as has
    obtain ⟨items, -, hitems⟩ := Option.bind_eq_some_iff.mp has
    exact of_mapM_read h hitems
  ignoresOrder := ignoresOrder_list? h.ignoresOrder

/-- Lists of values that are always read back. -/
theorem Codes.read_list (h : Codes write read fun _ => True) (as : List α) :
    list? read (.arr (as.map write)) = some as :=
  (h.list.read_write_iff as).mpr fun _ _ => trivial

/-- An array field may be left out. -/
theorem Codes.of_optional (h : Codes write read P) {r : Record} {name : String} {as : List α}
    (has : r.optional name [] (list? read) = some as) : ∀ a ∈ as, P a := by
  unfold Record.optional at has
  split at has
  · obtain rfl := Option.some.inj has
    simp
  · exact h.list.of_read _ as has

end Codes

theorem int64?_toInt (v : Int64) : int64? (.int v.toInt) = some v := by
  have hlow : -2 ^ 63 ≤ v.toInt := v.le_toInt
  have hhigh : v.toInt < 2 ^ 63 := v.toInt_lt
  rw [int64?, if_pos ⟨hlow, hhigh⟩, Int64.ofInt_toInt]

theorem nullable?_text (s : Option String) :
    nullable? text? ((s.map Json.str).getD .null) = some s := by
  cases s <;> rfl

end Json

namespace Literal

/-- A literal that can be read: an integer is kept as a natural number only if it does not fit a
signed word, and a double is finite. -/
def IsCanonical : Literal → Prop
  | .natural v => 2 ^ 63 ≤ v.toNat
  | .float x => x.isFinite = true
  | _ => True

instance : DecidablePred IsCanonical
  | .bool _ => .isTrue trivial
  | .integer _ => .isTrue trivial
  | .natural v => inferInstanceAs (Decidable (2 ^ 63 ≤ v.toNat))
  | .float x => inferInstanceAs (Decidable (x.isFinite = true))
  | .text _ => .isTrue trivial

theorem ofJson?_integer (v : Int64) : ofJson? (.int v.toInt) = some (.integer v) := by
  have hlow : -2 ^ 63 ≤ v.toInt := v.le_toInt
  have hhigh : v.toInt < 2 ^ 63 := v.toInt_lt
  rw [ofJson?, if_pos ⟨hlow, hhigh⟩, Int64.ofInt_toInt]

theorem ofJson?_natural_iff (v : UInt64) :
    ofJson? (.int v.toNat) = some (.natural v) ↔ 2 ^ 63 ≤ v.toNat := by
  have hhigh : v.toNat < 2 ^ 64 := v.toNat_lt
  rw [ofJson?]
  split_ifs with hsigned hword
  · simp only [Option.some.injEq, reduceCtorEq, false_iff]
    omega
  · simp only [Int.toNat_natCast, UInt64.ofNat_toNat, true_iff]
    omega
  · omega

theorem ofJson?_float_iff (x : Binary.Binary64) :
    ofJson? ((ofDouble? x).getD .null) = some (.float x) ↔ x.isFinite = true := by
  unfold ofDouble?
  split_ifs with hfinite
  · exact iff_of_true rfl hfinite
  · exact iff_of_false (by simp [ofJson?]) hfinite

theorem isCanonical_of_ofJson? {j : Json} {l : Literal} (h : ofJson? j = some l) :
    l.IsCanonical := by
  cases j with
  | int v =>
    rw [ofJson?] at h
    split_ifs at h with hsigned hword
    · obtain rfl := Option.some.inj h
      trivial
    · obtain rfl := Option.some.inj h
      change 2 ^ 63 ≤ (UInt64.ofNat v.toNat).toNat
      rw [UInt64.toNat_ofNat_of_lt' (by rw [UInt64.size]; omega)]
      omega
  | float x hfinite =>
    obtain rfl := Option.some.inj h
    exact hfinite
  | bool b =>
    obtain rfl := Option.some.inj h
    trivial
  | str s =>
    obtain rfl := Option.some.inj h
    trivial
  | null => cases h
  | arr items => cases h
  | obj fields => cases h

theorem codes : Codes toJson ofJson? IsCanonical where
  read_write_iff
    | .bool _ => iff_of_true rfl trivial
    | .integer v => iff_of_true (ofJson?_integer v) trivial
    | .natural v => ofJson?_natural_iff v
    | .float x => ofJson?_float_iff x
    | .text _ => iff_of_true rfl trivial
  of_read _ _ := isCanonical_of_ofJson?
  ignoresOrder := ignoresOrder_of_scalar (fun _ => rfl) fun _ => rfl

end Literal

namespace Document

theorem Member.codes : Codes Member.toJson Member.ofJson? fun _ => True := by
  refine codes_of_read_write (fun m => rfl) (ignoresOrder_record ?_)
  intro r r' h
  simp only [h.required_eq ignoresOrder_text?]

theorem Enumerator.codes : Codes Enumerator.toJson Enumerator.ofJson? fun _ => True := by
  refine codes_of_read_write ?_ (ignoresOrder_record ?_)
  · intro e
    change (int64? (.int e.value.toInt)).bind _ = _
    rw [int64?_toInt]
    rfl
  · intro r r' h
    simp only [h.required_eq ignoresOrder_text?, h.required_eq ignoresOrder_int64?]

theorem Param.codes : Codes Param.toJson Param.ofJson? fun _ => True := by
  refine codes_of_read_write (fun p => rfl) (ignoresOrder_record ?_)
  intro r r' h
  simp only [h.required_eq ignoresOrder_text?, h.optional_eq ignoresOrder_bool?]

theorem Exception.codes : Codes Exception.toJson Exception.ofJson? fun _ => True := by
  refine codes_of_read_write ?_ (ignoresOrder_record ?_)
  · intro e
    change (list? Member.ofJson? (.arr (e.members.map Member.toJson))).bind _ = _
    rw [Member.codes.read_list]
    rfl
  · intro r r' h
    simp only [h.required_eq ignoresOrder_text?,
      h.optional_eq (ignoresOrder_list? Member.codes.ignoresOrder)]

theorem Operation.codes : Codes Operation.toJson Operation.ofJson? fun _ => True := by
  refine codes_of_read_write ?_ (ignoresOrder_record ?_)
  · intro o
    change (int64? (.int o.uid.toInt)).bind (fun uid =>
      (list? Param.ofJson? (.arr (o.params.map Param.toJson))).bind fun params =>
      (nullable? text? ((o.returns.map Json.str).getD .null)).bind fun returns =>
        some (⟨o.name, uid, params, returns, o.oneway⟩ : Operation)) = _
    rw [int64?_toInt, Param.codes.read_list, nullable?_text]
    rfl
  · intro r r' h
    simp only [h.required_eq ignoresOrder_text?, h.required_eq ignoresOrder_int64?,
      h.optional_eq (ignoresOrder_list? Param.codes.ignoresOrder),
      h.optional_eq (ignoresOrder_nullable? ignoresOrder_text?), h.optional_eq ignoresOrder_bool?]

theorem TypeBody.ofFields?_perm {fields fields' : List (String × Json)}
    (h : fields'.Perm (fields.map sortField)) (kind : String) :
    ofFields? kind fields' = ofFields? kind fields := by
  have htext : ∀ key,
      (exactlyOne? key fields').bind text? = (exactlyOne? key fields).bind text? := by
    intro key
    rw [exactlyOne?_perm h]
    exact ignoresOrder_text?.map_sorted _
  have hlist : (exactlyOne? "enumerators" fields').bind (list? Enumerator.ofJson?) =
      (exactlyOne? "enumerators" fields).bind (list? Enumerator.ofJson?) := by
    rw [exactlyOne?_perm h]
    exact (ignoresOrder_list? Enumerator.codes.ignoresOrder).map_sorted _
  have hmembers : members? fields' = members? fields := by
    rw [members?, members?, unique?_perm h]
    cases unique? "members" fields with
    | none => rfl
    | some found =>
      cases found with
      | none => rfl
      | some j => exact ignoresOrder_list? Member.codes.ignoresOrder j
  unfold ofFields?
  split
  · rw [hmembers]
  · rw [hmembers]
  · simp only [Option.bind_eq_bind, ← Option.bind_assoc, htext]
  · simp only [Option.bind_eq_bind, ← Option.bind_assoc, htext]
  · simp only [Option.bind_eq_bind, ← Option.bind_assoc, hlist]
  · simp only [Option.bind_eq_bind, ← Option.bind_assoc, htext]
  · rfl
  · rfl

theorem TypeDecl.codes : Codes TypeDecl.toJson TypeDecl.ofJson? fun _ => True := by
  refine codes_of_read_write ?_ ?_
  · rintro ⟨name, body⟩
    cases body with
    | record members =>
      change ((list? Member.ofJson? (.arr (members.map Member.toJson))).map TypeBody.record).bind
        (fun body => some (⟨name, body⟩ : TypeDecl)) = _
      rw [Member.codes.read_list]
      rfl
    | exception members =>
      change ((list? Member.ofJson? (.arr (members.map Member.toJson))).map TypeBody.exception).bind
        (fun body => some (⟨name, body⟩ : TypeDecl)) = _
      rw [Member.codes.read_list]
      rfl
    | enumeration enumerators =>
      change ((list? Enumerator.ofJson? (.arr (enumerators.map Enumerator.toJson))).bind
        fun es => some (TypeBody.enumeration es)).bind
        (fun body => some (⟨name, body⟩ : TypeDecl)) = _
      rw [Enumerator.codes.read_list]
      rfl
    | _ => rfl
  · intro j
    cases j with
    | obj fields =>
      obtain ⟨fields', hsorted, hperm⟩ := sorted_obj fields
      have hkind : IgnoresOrder TypeBody.kind? :=
        ignoresOrder_of_scalar (fun _ => rfl) fun _ => rfl
      rw [hsorted]
      simp only [ofJson?, Option.bind_eq_bind, exactlyOne?_perm hperm, ← Option.bind_assoc,
        TypeBody.ofFields?_perm hperm, ignoresOrder_text?.map_sorted, hkind.map_sorted]
    | arr items => rw [sorted_arr]; rfl
    | _ => rfl

def Constant.IsCanonical (c : Constant) : Prop := c.value.IsCanonical

instance : DecidablePred Constant.IsCanonical :=
  fun c => inferInstanceAs (Decidable c.value.IsCanonical)

theorem Constant.codes : Codes Constant.toJson Constant.ofJson? Constant.IsCanonical where
  read_write_iff c := by
    rw [Constant.IsCanonical, ← Literal.codes.read_write_iff]
    change (Literal.ofJson? c.value.toJson).bind (fun value =>
      some (⟨c.name, c.type, value⟩ : Constant)) = some c ↔ _
    rw [Option.bind_eq_some_iff]
    constructor
    · rintro ⟨value, hvalue, heq⟩
      rw [hvalue, ← Option.some.inj heq]
    · intro hvalue
      exact ⟨c.value, hvalue, rfl⟩
  of_read j c h := by
    simp only [ofJson?, Option.bind_eq_bind, Option.bind_eq_some_iff, Option.pure_def,
      Option.some.injEq] at h
    obtain ⟨r, -, name, -, type, -, value, hvalue, rfl⟩ := h
    obtain ⟨written, -, hread⟩ := Option.bind_eq_some_iff.mp hvalue
    exact Literal.codes.of_read written value hread
  ignoresOrder := by
    refine ignoresOrder_record ?_
    intro r r' h
    simp only [h.required_eq ignoresOrder_text?, h.required_eq Literal.codes.ignoresOrder]

theorem Interface.codes :
    Codes Interface.toJson Interface.ofJson? fun i => ∀ c ∈ i.constants, c.IsCanonical where
  read_write_iff i := by
    rw [← Constant.codes.list.read_write_iff]
    change (int64? (.int i.uid.toInt)).bind (fun uid =>
      (list? Operation.ofJson? (.arr (i.operations.map Operation.toJson))).bind fun operations =>
      (list? Exception.ofJson? (.arr (i.exceptions.map Exception.toJson))).bind fun exceptions =>
      (list? Constant.ofJson? (.arr (i.constants.map Constant.toJson))).bind fun constants =>
        some (⟨i.name, uid, operations, exceptions, constants⟩ : Interface)) = some i ↔ _
    rw [int64?_toInt, Operation.codes.read_list, Exception.codes.read_list, Option.bind_some,
      Option.bind_some, Option.bind_some, Option.bind_eq_some_iff]
    constructor
    · rintro ⟨constants, hconstants, heq⟩
      rw [hconstants, ← Option.some.inj heq]
    · intro hconstants
      exact ⟨i.constants, hconstants, rfl⟩
  of_read j i h := by
    simp only [ofJson?, Option.bind_eq_bind, Option.bind_eq_some_iff, Option.pure_def,
      Option.some.injEq] at h
    obtain ⟨r, -, name, -, uid, -, operations, -, exceptions, -, constants, hconstants, rfl⟩ := h
    exact Constant.codes.of_optional hconstants
  ignoresOrder := by
    refine ignoresOrder_record ?_
    intro r r' h
    simp only [h.required_eq ignoresOrder_text?, h.required_eq ignoresOrder_int64?,
      h.optional_eq (ignoresOrder_list? Operation.codes.ignoresOrder),
      h.optional_eq (ignoresOrder_list? Exception.codes.ignoresOrder),
      h.optional_eq (ignoresOrder_list? Constant.codes.ignoresOrder)]

mutual

/-- The constants of a module, of its interfaces and of the modules in it. -/
def Module.allConstants : Module → List Constant
  | ⟨_, modules, _, interfaces, constants⟩ =>
    constants ++ interfaces.flatMap (·.constants) ++ constantsOf modules

def constantsOf : List Module → List Constant
  | [] => []
  | m :: modules => m.allConstants ++ constantsOf modules

end

theorem Module.ofJson?_eq (j : Json) :
    Module.ofJson? j =
      (j.record? ["name", "modules", "types", "interfaces", "constants"]).bind fun r =>
        (r.childItems "modules").bind fun items => do
          return {
            name := ← r.required "name" text?
            modules := ← modulesOfJson? items
            types := ← r.optional "types" [] (list? TypeDecl.ofJson?)
            interfaces := ← r.optional "interfaces" [] (list? Interface.ofJson?)
            constants := ← r.optional "constants" [] (list? Constant.ofJson?) } := by
  rw [Module.ofJson?]
  split
  · rename_i hr
    rw [hr, Option.bind_none]
  · rename_i r hr
    rw [hr, Option.bind_some]
    split
    · rename_i hm
      rw [hm, Option.bind_none]
    · rename_i items hm
      rw [hm, Option.bind_some]

theorem modulesOfJson?_cons (j : Json) (items : List Json) :
    modulesOfJson? (j :: items) = (Module.ofJson? j).bind fun m =>
      (modulesOfJson? items).bind fun modules => some (m :: modules) := by
  rw [modulesOfJson?]
  rfl

mutual

theorem Module.read_write_iff : (m : Module) →
    (Module.ofJson? m.toJson = some m ↔ ∀ c ∈ m.allConstants, c.IsCanonical)
  | ⟨name, modules, types, interfaces, constants⟩ => by
    have hmodules := modules_read_write_iff modules
    have hinterfaces := Interface.codes.list.read_write_iff interfaces
    have hconstants := Constant.codes.list.read_write_iff constants
    rw [Module.ofJson?_eq, Module.allConstants]
    change (modulesOfJson? (modulesToJson modules)).bind (fun ms =>
      (list? TypeDecl.ofJson? (.arr (types.map TypeDecl.toJson))).bind fun ts =>
      (list? Interface.ofJson? (.arr (interfaces.map Interface.toJson))).bind fun is =>
      (list? Constant.ofJson? (.arr (constants.map Constant.toJson))).bind fun cs =>
        some (⟨name, ms, ts, is, cs⟩ : Module)) = _ ↔ _
    rw [List.forall_mem_append, List.forall_mem_append, List.forall_mem_flatMap, ← hconstants,
      ← hinterfaces, ← hmodules]
    simp only [TypeDecl.codes.read_list, Option.bind_some, Option.bind_eq_some_iff]
    constructor
    · rintro ⟨ms, hms, is, his, cs, hcs, heq⟩
      obtain ⟨-, rfl, -, rfl, rfl⟩ := Module.mk.inj (Option.some.inj heq)
      exact ⟨⟨hcs, his⟩, hms⟩
    · rintro ⟨⟨hcs, his⟩, hms⟩
      exact ⟨modules, hms, interfaces, his, constants, hcs, rfl⟩

theorem modules_read_write_iff : (ms : List Module) →
    (modulesOfJson? (modulesToJson ms) = some ms ↔ ∀ c ∈ constantsOf ms, c.IsCanonical)
  | [] => by simp [modulesToJson, modulesOfJson?, constantsOf]
  | m :: ms => by
    have hfirst := Module.read_write_iff m
    have hrest := modules_read_write_iff ms
    rw [modulesToJson, modulesOfJson?_cons, constantsOf, List.forall_mem_append, ← hfirst, ← hrest]
    simp only [Option.bind_eq_some_iff]
    constructor
    · rintro ⟨m', hm, ms', hms, heq⟩
      obtain ⟨rfl, rfl⟩ := List.cons.inj (Option.some.inj heq)
      exact ⟨hm, hms⟩
    · rintro ⟨hm, hms⟩
      exact ⟨m, hm, ms, hms, rfl⟩

end

mutual

theorem Module.of_read (j : Json) (m : Module) (h : Module.ofJson? j = some m) :
    ∀ c ∈ m.allConstants, c.IsCanonical := by
  rw [Module.ofJson?_eq] at h
  obtain ⟨r, hr, h⟩ := Option.bind_eq_some_iff.mp h
  obtain ⟨items, hm, h⟩ := Option.bind_eq_some_iff.mp h
  simp only [Option.bind_eq_bind, Option.bind_eq_some_iff, Option.pure_def,
    Option.some.injEq] at h
  obtain ⟨name, -, modules, hmodules, types, -, interfaces, hinterfaces, constants, hconstants,
    rfl⟩ := h
  rw [Module.allConstants, List.forall_mem_append, List.forall_mem_append, List.forall_mem_flatMap]
  exact ⟨⟨Constant.codes.of_optional hconstants, Interface.codes.of_optional hinterfaces⟩,
    modules_of_read items modules hmodules⟩
termination_by sizeOf j
decreasing_by exact Record.sizeOf_childItems_lt hr hm

theorem modules_of_read (items : List Json) (ms : List Module)
    (h : modulesOfJson? items = some ms) : ∀ c ∈ constantsOf ms, c.IsCanonical := by
  cases items with
  | nil =>
    rw [modulesOfJson?] at h
    obtain rfl := Option.some.inj h
    simp [constantsOf]
  | cons j items =>
    rw [modulesOfJson?_cons] at h
    obtain ⟨m, hm, h⟩ := Option.bind_eq_some_iff.mp h
    obtain ⟨rest, hrest, h⟩ := Option.bind_eq_some_iff.mp h
    obtain rfl := Option.some.inj h
    rw [constantsOf, List.forall_mem_append]
    exact ⟨Module.of_read j m hm, modules_of_read items rest hrest⟩
termination_by sizeOf items

end

mutual

theorem Module.ofJson?_sorted (j : Json) : Module.ofJson? j.sorted = Module.ofJson? j := by
  rw [Module.ofJson?_eq, Module.ofJson?_eq]
  rcases record?_sorted ["name", "modules", "types", "interfaces", "constants"] j with
    ⟨hnone, hnone'⟩ | ⟨r, r', hr, hr', h⟩
  · rw [hnone, hnone']
  · rw [hr, hr', Option.bind_some, Option.bind_some, h.childItems_eq]
    cases hm : r.childItems "modules" with
    | none => rfl
    | some items =>
      simp only [Option.map_some, Option.bind_some, modulesOfJson?_sorted items,
        h.required_eq ignoresOrder_text?,
        h.optional_eq (ignoresOrder_list? TypeDecl.codes.ignoresOrder),
        h.optional_eq (ignoresOrder_list? Interface.codes.ignoresOrder),
        h.optional_eq (ignoresOrder_list? Constant.codes.ignoresOrder)]
termination_by sizeOf j
decreasing_by exact Record.sizeOf_childItems_lt hr hm

theorem modulesOfJson?_sorted (items : List Json) :
    modulesOfJson? (items.map sorted) = modulesOfJson? items := by
  cases items with
  | nil => rfl
  | cons j items =>
    rw [List.map_cons, modulesOfJson?_cons, modulesOfJson?_cons, Module.ofJson?_sorted j,
      modulesOfJson?_sorted items]
termination_by sizeOf items

end

end Document

namespace Document

def allConstants (d : Document) : List Document.Constant := constantsOf d.modules

/-- A document whose constants can be read. -/
def IsCanonical (d : Document) : Prop := ∀ c ∈ d.allConstants, c.IsCanonical

instance : DecidablePred IsCanonical :=
  fun d => inferInstanceAs (Decidable (∀ c ∈ d.allConstants, c.IsCanonical))

theorem ofJson?_eq (j : Json) : ofJson? j = (j.record? ["modules"]).bind fun r =>
    (r.childItems "modules").bind fun items =>
      (modulesOfJson? items).bind fun modules => some { modules } := rfl

theorem codes : Codes toJson ofJson? IsCanonical where
  read_write_iff d := by
    rw [IsCanonical, allConstants, ← modules_read_write_iff, ofJson?_eq]
    change (modulesOfJson? (modulesToJson d.modules)).bind (fun modules =>
      some ({ modules } : Document)) = some d ↔ _
    rw [Option.bind_eq_some_iff]
    constructor
    · rintro ⟨modules, hmodules, heq⟩
      rw [hmodules, ← Option.some.inj heq]
    · intro hmodules
      exact ⟨d.modules, hmodules, rfl⟩
  of_read j d h := by
    rw [ofJson?_eq] at h
    obtain ⟨r, -, h⟩ := Option.bind_eq_some_iff.mp h
    obtain ⟨items, -, h⟩ := Option.bind_eq_some_iff.mp h
    obtain ⟨modules, hmodules, h⟩ := Option.bind_eq_some_iff.mp h
    obtain rfl := Option.some.inj h
    exact modules_of_read items modules hmodules
  ignoresOrder := by
    refine ignoresOrder_record ?_
    intro r r' h
    rw [h.childItems_eq]
    cases r.childItems "modules" with
    | none => rfl
    | some items => simp only [Option.map_some, Option.bind_eq_bind, Option.bind_some,
        modulesOfJson?_sorted]

/-- A document is read back from every arrangement of what it is written as, exactly if it is
canonical. What was read is canonical, so reading what was written of it changes nothing. -/
theorem read_back_iff_canonical :
    (∀ (d : Document) (j : Json), j.Rearranges d.toJson → (ofJson? j = some d ↔ d.IsCanonical)) ∧
      (∀ (j : Json) (d : Document), ofJson? j = some d → d.IsCanonical) ∧
      ∀ j : Json, (ofJson? j).bind (fun d => ofJson? d.toJson) = ofJson? j := by
  refine ⟨?_, codes.of_read, ?_⟩
  · intro d j hj
    rw [codes.ignoresOrder.of_rearranges hj]
    exact codes.read_write_iff d
  · intro j
    cases h : ofJson? j with
    | none => rfl
    | some d => exact (codes.read_write_iff d).mpr (codes.of_read j d h)

/-- Constants at the limits of their kinds, in a module inside another one. -/
def limits : Document where
  modules := [{
    name := "edge"
    modules := [{
      name := "numbers"
      modules := []
      types := [⟨"Sign", .enumeration [⟨"minus", -1⟩, ⟨"plus", 1⟩]⟩]
      interfaces := []
      constants := [⟨"TOP", "uint64", .natural 0x8000000000000000⟩,
        ⟨"BOTTOM", "int64", .integer (-0x8000000000000000)⟩,
        ⟨"ZERO", "double", .float ⟨0x8000000000000000⟩⟩] }]
    types := []
    interfaces := []
    constants := [] }]

/-- The same document with its fields in another order. -/
def limitsJson : Json :=
  .obj [("modules", .arr [.obj [("constants", .arr []), ("interfaces", .arr []), ("types", .arr []),
    ("name", .str "edge"), ("modules", .arr [.obj [
      ("name", .str "numbers"), ("modules", .arr []), ("interfaces", .arr []),
      ("types", .arr [.obj [("kind", .str "enum"), ("name", .str "Sign"), ("enumerators", .arr [
        .obj [("value", .int (-1)), ("name", .str "minus")],
        .obj [("name", .str "plus"), ("value", .int 1)]])]]),
      ("constants", .arr [
        .obj [("value", .int 0x8000000000000000), ("type", .str "uint64"), ("name", .str "TOP")],
        .obj [("name", .str "BOTTOM"), ("value", .int (-0x8000000000000000)),
          ("type", .str "int64")],
        .obj [("name", .str "ZERO"), ("type", .str "double"),
          ("value", .float ⟨0x8000000000000000⟩ (by decide))]])]])]])]

theorem read_back_iff_canonical_limits :
    limitsJson.Rearranges limits.toJson ∧ ofJson? limitsJson = some limits := by
  have hsame : limitsJson.Rearranges limits.toJson := by rfl
  have hcanonical : limits.IsCanonical := by decide
  exact ⟨hsame, (read_back_iff_canonical.1 limits limitsJson hsame).mpr hcanonical⟩

end Document
end WireSchema
