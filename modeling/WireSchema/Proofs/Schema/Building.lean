import WireSchema.Schema.Build

/-!
# What steps of the construction come to

A step either fails or gives a result and another draft. These equivalences take a sequence of steps
that did not fail apart, step by step.
-/
namespace WireSchema.Schema

namespace Build

variable {α β : Type} {d d' : Draft}

theorem bind_eq_ok_iff {x : Build α} {f : α → Build β} {b : β} :
    (x >>= f) d = .ok (b, d') ↔ ∃ a mid, x d = .ok (a, mid) ∧ f a mid = .ok (b, d') := by
  show (x d >>= fun p => f p.1 p.2) = _ ↔ _
  cases x d with
  | error e => simp [bind, Except.bind]
  | ok p =>
    constructor
    · intro h
      exact ⟨p.1, p.2, rfl, h⟩
    · rintro ⟨a, mid, hp, h⟩
      obtain rfl := Except.ok.inj hp
      exact h

theorem pure_eq_ok_iff {a b : α} : (pure a : Build α) d = .ok (b, d') ↔ a = b ∧ d = d' := by
  show Except.ok (a, d) = _ ↔ _
  simp

theorem modify_eq_ok_iff {f : Draft → Draft} {u : Unit} :
    (modify f : Build Unit) d = .ok (u, d') ↔ f d = d' := by
  show Except.ok ((), f d) = _ ↔ _
  simp

theorem get_bind (f : Draft → Build α) : (get >>= f : Build α) d = f d d := rfl

/-- A check in front of a step has not found what it looks for. -/
theorem check_eq_ok_iff {c : Prop} [Decidable c] {e : SchemaError} {next : Unit → Build α} {a : α} :
    (if c then (throw e : Build Unit) >>= next else next ()) d = .ok (a, d') ↔
      ¬ c ∧ next () d = .ok (a, d') := by
  by_cases hc : c
  · simp only [hc, not_true_eq_false, false_and, iff_false]
    exact nofun
  · simp [hc]

theorem lift_eq_ok_iff {x : Except SchemaError α} {a : α} :
    (liftM x : Build α) d = .ok (a, d') ↔ x = .ok a ∧ d = d' := by
  show (x >>= fun a => pure (a, d)) = _ ↔ _
  cases x <;> simp [bind, Except.bind, pure, Except.pure]

theorem forM_cons_eq_ok_iff {a : α} {as : List α} {f : α → Build Unit} {u : Unit} :
    (a :: as).forM f d = .ok (u, d') ↔
      ∃ mid, f a d = .ok ((), mid) ∧ as.forM f mid = .ok (u, d') := by
  show (f a >>= fun _ => as.forM f) d = _ ↔ _
  rw [bind_eq_ok_iff]
  constructor
  · rintro ⟨_, mid, h⟩
    exact ⟨mid, h⟩
  · rintro ⟨mid, h⟩
    exact ⟨(), mid, h⟩

theorem forM_preserves {as : List α} {f : α → Build Unit} {u : Unit} {P : Draft → Prop}
    (hround : ∀ a ∈ as, ∀ d d', P d → f a d = .ok ((), d') → P d') (hd : P d)
    (h : as.forM f d = .ok (u, d')) : P d' := by
  induction as generalizing d with
  | nil =>
    obtain ⟨-, rfl⟩ := pure_eq_ok_iff.mp h
    exact hd
  | cons a as ih =>
    obtain ⟨mid, hfirst, hrest⟩ := forM_cons_eq_ok_iff.mp h
    have hmid := hround a List.mem_cons_self d mid hd hfirst
    exact ih (fun b hb => hround b (List.mem_cons_of_mem a hb)) hmid hrest

theorem mapM_cons_eq_ok_iff {a : α} {as : List α} {f : α → Build β} {bs : List β} :
    (a :: as).mapM f d = .ok (bs, d') ↔
      ∃ b mid rest, f a d = .ok (b, mid) ∧ as.mapM f mid = .ok (rest, d') ∧ bs = b :: rest := by
  rw [List.mapM_cons, bind_eq_ok_iff]
  constructor
  · rintro ⟨b, mid, hb, htail⟩
    obtain ⟨rest, mid', hrest, hpure⟩ := bind_eq_ok_iff.mp htail
    obtain ⟨rfl, rfl⟩ := pure_eq_ok_iff.mp hpure
    exact ⟨b, mid, rest, hb, hrest, rfl⟩
  · rintro ⟨b, mid, rest, hb, hrest, rfl⟩
    exact ⟨b, mid, hb, bind_eq_ok_iff.mpr ⟨rest, d', hrest, pure_eq_ok_iff.mpr ⟨rfl, rfl⟩⟩⟩

end Build

namespace Draft

variable {d d' : Draft}

theorem enter_eq_ok_iff {name : QualifiedName} {what : Declared} {u : Unit} :
    enter name what d = .ok (u, d') ↔
      d.names.lookup name.text = none ∧ { d with names := (name.text, what) :: d.names } = d' := by
  unfold enter
  rw [Build.get_bind, Build.check_eq_ok_iff, Build.modify_eq_ok_iff, Option.not_isSome_iff_eq_none]

/-- A primitive type that is in use keeps its place, and another one takes the next place. -/
theorem intern_eq (type : TypeDef) (d : Draft) :
    intern type d = .ok (match d.primitives.lookup type.describe with
      | some id => (id, d)
      | none => (⟨d.types.size⟩, { d with
          types := d.types.push type
          primitives := (type.describe, ⟨d.types.size⟩) :: d.primitives })) := by
  unfold intern
  rw [Build.get_bind]
  cases d.primitives.lookup type.describe <;> rfl

end Draft
end WireSchema.Schema
