import WireSchema.Proofs.Schema.Resolution

/-!
# How steps of the construction end

A step ends with a result and another draft, or with an error. Both are described at once, so that
one walk through a pass tells what an accepted document comes to and why another one is rejected.
-/
namespace WireSchema

/-- The errors about numbers, about the directions of parameters and about oneway operations. -/
def SchemaError.IsInterfaceFault : SchemaError → Prop
  | .nonPositiveUid .. | .duplicateUid .. | .malformedParameter .. | .onewayWithResults .. => True
  | _ => False

def SchemaError.IsOther (e : SchemaError) : Prop := ¬ e.IsInterfaceFault

namespace Schema

namespace Build

variable {α β : Type} {d : Draft} {E : SchemaError → Prop}

/-- A step ends with a result and a draft of which `Q` holds, or with an error of which `E` holds.
-/
def Ends (x : Build α) (d : Draft) (Q : α → Draft → Prop) (E : SchemaError → Prop) : Prop :=
  match x d with
  | .ok (a, d') => Q a d'
  | .error e => E e

variable {x : Build α} {Q : α → Draft → Prop}

theorem Ends.of_ok (h : x.Ends d Q E) {a : α} {d' : Draft} (hx : x d = .ok (a, d')) :
    Q a d' := by
  rwa [Ends, hx] at h

theorem Ends.of_error (h : x.Ends d Q E) {e : SchemaError} (hx : x d = .error e) :
    E e := by
  rwa [Ends, hx] at h

theorem ends_pure {a : α} (h : Q a d) : (pure a : Build α).Ends d Q E := h

theorem ends_modify {f : Draft → Draft} {Q : Unit → Draft → Prop} (h : Q () (f d)) :
    (modify f : Build Unit).Ends d Q E := h

theorem ends_throw {e : SchemaError} (h : E e) : (throw e : Build α).Ends d Q E := h

theorem Ends.mono {Q' : α → Draft → Prop} {E' : SchemaError → Prop}
    (h : x.Ends d Q E) (hresult : ∀ a d', Q a d' → Q' a d')
    (hfault : ∀ e, E e → E' e) : x.Ends d Q' E' := by
  unfold Ends at h ⊢
  cases hx : x d with
  | ok p =>
    rw [hx] at h
    exact hresult _ _ h
  | error e =>
    rw [hx] at h
    exact hfault e h

theorem Ends.with_run (h : x.Ends d Q E) :
    x.Ends d (fun a d' => Q a d' ∧ x d = .ok (a, d')) E := by
  unfold Ends at h ⊢
  cases hx : x d with
  | ok p =>
    rw [hx] at h
    exact ⟨h, rfl⟩
  | error e =>
    rw [hx] at h
    exact h

theorem Ends.bind {f : α → Build β} {Q' : β → Draft → Prop} (h : x.Ends d Q E)
    (hf : ∀ a d', Q a d' → (f a).Ends d' Q' E) : (x >>= f).Ends d Q' E := by
  unfold Ends at h
  show match x d >>= fun p => f p.1 p.2 with
    | .ok (b, d') => Q' b d'
    | .error e => E e
  cases hx : x d with
  | ok p =>
    rw [hx] at h
    exact hf _ _ h
  | error e =>
    rw [hx] at h
    exact h

theorem ends_get_bind {f : Draft → Build α} (h : (f d).Ends d Q E) :
    (get >>= f : Build α).Ends d Q E := h

theorem ends_check {c : Prop} [Decidable c] {e : SchemaError} {next : Unit → Build α}
    (hfault : c → E e) (h : ¬ c → (next ()).Ends d Q E) :
    (if c then (throw e : Build Unit) >>= next else next ()).Ends d Q E := by
  by_cases hc : c
  · rw [if_pos hc]
    exact hfault hc
  · rw [if_neg hc]
    exact h hc

theorem ends_lift {y : Except SchemaError α} (hok : ∀ a, y = .ok a → Q a d)
    (herror : ∀ e, y = .error e → E e) : (liftM y : Build α).Ends d Q E := by
  cases hy : y with
  | ok a => exact hok a hy
  | error e => exact herror e hy

theorem ends_forM {as : List α} {f : α → Build Unit} {P : Draft → Prop}
    (hround : ∀ a ∈ as, ∀ d, P d → (f a).Ends d (fun _ => P) E) (hd : P d) :
    (as.forM f).Ends d (fun _ => P) E := by
  induction as generalizing d with
  | nil => exact ends_pure hd
  | cons a as ih =>
    apply (hround a List.mem_cons_self d hd).bind
    intro _ mid hmid
    exact ih (fun b hb => hround b (List.mem_cons_of_mem a hb)) hmid

end Build

namespace Draft

variable {d d' d'' : Draft}

/-- A later draft has the same names, and every type keeps its place. -/
structure Keeps (d d' : Draft) : Prop where
  names_eq : d'.names = d.names
  type_eq : ∀ {i : Nat} {type : TypeDef}, d.types[i]? = some type → d'.types[i]? = some type

theorem Keeps.trans (h : d.Keeps d') (h' : d'.Keeps d'') : d.Keeps d'' where
  names_eq := h'.names_eq.trans h.names_eq
  type_eq htype := h'.type_eq (h.type_eq htype)

theorem Keeps.size_le (h : d.Keeps d') : d.types.size ≤ d'.types.size := by
  by_contra hlt
  have hsome := Array.getElem?_eq_getElem (Nat.lt_of_not_le hlt)
  have hlast := (Array.getElem?_eq_some_iff.mp (h.type_eq hsome)).1
  exact Nat.lt_irrefl _ hlast

/-- A later draft that differs only by what resolving adds. -/
structure Grows (d d' : Draft) : Prop extends d.Keeps d' where
  uids_eq : d'.interfaceUids = d.interfaceUids

theorem Grows.refl (d : Draft) : d.Grows d := ⟨⟨rfl, fun h => h⟩, rfl⟩

theorem Grows.trans (h : d.Grows d') (h' : d'.Grows d'') : d.Grows d'' :=
  ⟨h.toKeeps.trans h'.toKeeps, h'.uids_eq.trans h.uids_eq⟩

theorem grows_intern {type : TypeDef} {id : TypeId} (h : intern type d = .ok (id, d')) :
    d.Grows d' := by
  rw [intern_eq] at h
  cases hlookup : d.primitives.lookup type.describe with
  | some place =>
    rw [hlookup] at h
    obtain ⟨-, rfl⟩ := Prod.mk.inj (Except.ok.inj h)
    exact .refl d
  | none =>
    rw [hlookup] at h
    obtain ⟨-, rfl⟩ := Prod.mk.inj (Except.ok.inj h)
    refine ⟨⟨rfl, ?_⟩, rfl⟩
    intro i other hother
    have hi : i < d.types.size := (Array.getElem?_eq_some_iff.mp hother).1
    rw [Array.getElem?_push, if_neg (by omega), hother]

/-- Resolving adds to a draft, or the reference is unknown or comes back to an alias. -/
theorem Resolves.grows {following : List String} {scope : QualifiedName} {reference : String}
    {result : Except SchemaError (TypeId × Draft)}
    (h : d.Resolves following scope reference result) :
    (∀ id d', result = .ok (id, d') → d.Grows d') ∧ ∀ e, result = .error e → e.IsOther := by
  induction h with
  | @primitive _ _ _ type hprimitive =>
    refine ⟨fun id d' => grows_intern, ?_⟩
    intro e he
    rw [intern_eq] at he
    cases he
  | unknown | cycle =>
    refine ⟨nofun, ?_⟩
    rintro e he
    obtain rfl := Except.error.inj he
    exact not_false
  | type | remembered =>
    refine ⟨?_, nofun⟩
    intro id d' h
    obtain ⟨-, rfl⟩ := Prod.mk.inj (Except.ok.inj h)
    exact .refl d
  | @follow _ _ _ _ name _ result _ _ _ _ _ ih =>
    cases result with
    | error e => exact ⟨nofun, ih.2⟩
    | ok p =>
      refine ⟨?_, nofun⟩
      intro id d' h
      obtain ⟨-, rfl⟩ := Prod.mk.inj (Except.ok.inj h)
      have hgrows := ih.1 p.1 p.2 rfl
      exact ⟨⟨hgrows.names_eq, hgrows.type_eq⟩, hgrows.uids_eq⟩

end Draft

theorem ends_resolve (scope : QualifiedName) (reference : String) (d : Draft) :
    (resolve scope reference).Ends d (fun _ d' => d.Grows d') SchemaError.IsOther := by
  obtain ⟨hok, herror⟩ := (d.resolves_resolve scope reference).grows
  unfold Build.Ends
  cases hresult : resolve scope reference d with
  | ok p => exact hok p.1 p.2 hresult
  | error e => exact herror e hresult

end Schema
end WireSchema
