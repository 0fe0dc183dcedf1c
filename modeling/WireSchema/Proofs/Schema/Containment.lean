import Mathlib.Data.Finset.Card
import Mathlib.Data.Finset.Range
import Mathlib.Logic.Relation
import WireSchema.Proofs.Value.FixedPoint

/-!
# Records inside records

A record holds the records that are types of its members. Where no record comes to hold itself this
way, the number of records that can be reached from a type goes down from a record to each of its
members, so it measures how deep values of the type can nest before a byte of theirs is written.
-/
namespace WireSchema.Schema

open Relation

variable {s : Schema} {id outer inner : TypeId} {r : RecordType} {m : Member}

/-- The record at one place has a member whose type is the record at the other. -/
def Contains (s : Schema) (outer inner : TypeId) : Prop :=
  ∃ r r', s.type outer = .record r ∧ s.type inner = .record r' ∧ ∃ m ∈ r.members, m.type = inner

/-- No record holds itself, directly or through records that it holds. -/
def Acyclic (s : Schema) : Prop := ∀ id, ¬ TransGen s.Contains id id

/-- Whether the numbers go down from each record to the records that it holds. -/
def descends (s : Schema) (rank : TypeId → Nat) : Bool :=
  (List.range s.types.size).all fun i =>
    match s.type ⟨i⟩ with
    | .record r => r.members.all fun m =>
      match s.type m.type with
      | .record _ => rank m.type < rank ⟨i⟩
      | _ => true
    | _ => true

theorem rank_lt_of_descends {rank : TypeId → Nat} (h : s.descends rank)
    (hc : s.Contains outer inner) : rank inner < rank outer := by
  obtain ⟨r, r', hr, hr', m, hm, rfl⟩ := hc
  have hplace := List.all_eq_true.mp h outer.index (List.mem_range.mpr (index_lt_of_record hr))
  simp only [hr] at hplace
  have hmember := List.all_eq_true.mp hplace m hm
  simp only [hr'] at hmember
  exact of_decide_eq_true hmember

/-- Numbers that go down are a certificate that no record holds itself. -/
theorem acyclic_of_descends (rank : TypeId → Nat) (h : s.descends rank) : s.Acyclic := by
  have hdown : ∀ {a b}, TransGen s.Contains a b → rank b < rank a := by
    intro a b hab
    induction hab with
    | single hstep => exact rank_lt_of_descends h hstep
    | tail _ hstep ih => exact Nat.lt_trans (rank_lt_of_descends h hstep) ih
  exact fun id hid => Nat.lt_irrefl _ (hdown hid)

open Classical in
/-- The places of the records that a value of the type can hold without a sequence or a map between,
a record's own place among them. -/
noncomputable def reached (s : Schema) (id : TypeId) : Finset Nat :=
  (Finset.range s.types.size).filter fun i =>
    (∃ r, s.type ⟨i⟩ = .record r) ∧ ReflTransGen s.Contains id ⟨i⟩

theorem mem_reached {i : Nat} :
    i ∈ s.reached id ↔ (∃ r, s.type ⟨i⟩ = .record r) ∧ ReflTransGen s.Contains id ⟨i⟩ := by
  simp only [reached, Finset.mem_filter, Finset.mem_range, and_iff_right_iff_imp]
  rintro ⟨⟨r, hr⟩, -⟩
  exact index_lt_of_record hr

/-- How many records a value of the type can hold within each other. -/
noncomputable def nesting (s : Schema) (id : TypeId) : Nat := (s.reached id).card

theorem nesting_le_size (s : Schema) (id : TypeId) : s.nesting id ≤ s.types.size := by
  have h : s.reached id ⊆ Finset.range s.types.size := by
    intro i hi
    obtain ⟨⟨r, hr⟩, -⟩ := mem_reached.mp hi
    exact Finset.mem_range.mpr (index_lt_of_record hr)
  simpa [nesting] using Finset.card_le_card h

/-- What a member reaches is reached from its record as well. -/
theorem reached_subset_of_member (hr : s.type id = .record r) (hm : m ∈ r.members) :
    s.reached m.type ⊆ s.reached id := by
  intro i hi
  obtain ⟨⟨r', hr'⟩, hpath⟩ := mem_reached.mp hi
  have hinner : ∃ inner, s.type m.type = .record inner := by
    rcases hpath.cases_head with heq | ⟨next, ⟨inner, _, hinner, _⟩, _⟩
    · exact ⟨r', heq ▸ hr'⟩
    · exact ⟨inner, hinner⟩
  obtain ⟨inner, hinner⟩ := hinner
  exact mem_reached.mpr ⟨⟨r', hr'⟩, hpath.head ⟨r, inner, hr, hinner, m, hm, rfl⟩⟩

theorem nesting_member_lt (hs : s.Acyclic) (hr : s.type id = .record r) (hm : m ∈ r.members) :
    s.nesting m.type < s.nesting id := by
  apply Finset.card_lt_card
  rw [Finset.ssubset_iff_of_subset (reached_subset_of_member hr hm)]
  refine ⟨id.index, mem_reached.mpr ⟨⟨r, hr⟩, .refl⟩, fun hback => ?_⟩
  -- A way back from the member to its record would close a cycle.
  obtain ⟨-, hpath⟩ := mem_reached.mp hback
  rcases hpath.cases_head with heq | ⟨next, hstep, _⟩
  · exact hs id (.single ⟨r, r, hr, hr, m, hm, heq⟩)
  · obtain ⟨inner, _, hinner, _⟩ := hstep
    exact hs id (.head' ⟨r, inner, hr, hinner, m, hm, rfl⟩ hpath)

end WireSchema.Schema
