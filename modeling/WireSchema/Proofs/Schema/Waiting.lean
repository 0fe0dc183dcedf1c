import WireSchema.Proofs.Schema.Interfaces
import WireSchema.Proofs.Schema.Passes

/-!
# What waits is defined

Every place is waited for at most once: a definition takes over the place of forward declarations
only while no other definition has. So what stands at a place in the end is the one definition that
waited for it, and an exception is a record under its own name.
-/
namespace WireSchema.Schema

open Document (NamedInterface BreaksInterfaces)

variable {d d' d'' : Draft}

namespace Draft

structure Tidy (d : Draft) : Prop where
  nodup : (d.pending.map (·.id)).Nodup
  pending_inTable : ∀ p ∈ d.pending, d.InTable p.id
  forward_inTable : ∀ id ∈ d.forwardOnly, d.InTable id
  apart : ∀ p ∈ d.pending, p.id ∉ d.forwardOnly

theorem tidy_empty : Tidy {} := ⟨by simp, by simp, by simp, by simp⟩

theorem Tidy.await (hd : d.Tidy) {p : Pending} (hnew : p.id ∉ d.pending.map (·.id))
    (hplace : d.InTable p.id) (hforward : p.id ∉ d.forwardOnly) :
    Tidy { d with pending := d.pending ++ [p] } where
  nodup := nodup_map_append_singleton hd.nodup hnew
  pending_inTable q hq := by
    rcases List.mem_append.mp hq with hq | hq
    · exact hd.pending_inTable q hq
    · obtain rfl := List.mem_singleton.mp hq
      exact hplace
  forward_inTable := hd.forward_inTable
  apart q hq := by
    rcases List.mem_append.mp hq with hq | hq
    · exact hd.apart q hq
    · obtain rfl := List.mem_singleton.mp hq
      exact hforward

theorem Tidy.reserve (hd : d.Tidy) (name : QualifiedName) : (d.reserve name).Tidy where
  nodup := hd.nodup
  pending_inTable p hp := (hd.pending_inTable p hp).push _
  forward_inTable id hid := (hd.forward_inTable id hid).push _
  apart := hd.apart

/-- The next place of a table is not waited for. -/
theorem Tidy.next_not_mem (hd : d.Tidy) :
    (⟨d.types.size⟩ : TypeId) ∉ d.pending.map (·.id) ∧
      (⟨d.types.size⟩ : TypeId) ∉ d.forwardOnly := by
  constructor
  · intro hmem
    obtain ⟨p, hp, hid⟩ := List.mem_map.mp hmem
    have hlt : p.id.index < d.types.size := hd.pending_inTable p hp
    rw [hid] at hlt
    exact Nat.lt_irrefl _ hlt
  · intro hmem
    exact Nat.lt_irrefl d.types.size (hd.forward_inTable _ hmem)

theorem inTable_reserve (d : Draft) (name : QualifiedName) :
    (d.reserve name).InTable ⟨d.types.size⟩ := by
  unfold InTable Draft.reserve
  rw [Array.size_push]
  exact Nat.lt_succ_self _

/-- A definition waits under a name. -/
def Awaits (d : Draft) (name : QualifiedName) (body : Document.TypeBody) : Prop :=
  ∃ p ∈ d.pending, p.name = name ∧ p.body = body

/-- What declaring keeps. -/
structure Prepares (d d' : Draft) : Prop where
  tidy : d.Tidy → d'.Tidy
  pending_subset : d.pending ⊆ d'.pending
  declared : ∀ {key : String}, d'.names.lookup key = none → d.names.lookup key = none
  uids_eq : d'.interfaceUids = d.interfaceUids

theorem Prepares.refl (d : Draft) : d.Prepares d := ⟨id, fun _ h => h, id, rfl⟩

theorem Prepares.trans (h : d.Prepares d') (h' : d'.Prepares d'') : d.Prepares d'' where
  tidy hd := h'.tidy (h.tidy hd)
  pending_subset := List.Subset.trans h.pending_subset h'.pending_subset
  declared hkey := h.declared (h'.declared hkey)
  uids_eq := h'.uids_eq.trans h.uids_eq

theorem Prepares.awaits (h : d.Prepares d') {name : QualifiedName} {body : Document.TypeBody}
    (hbody : d.Awaits name body) : d'.Awaits name body := by
  obtain ⟨p, hp, hname⟩ := hbody
  exact ⟨p, h.pending_subset hp, hname⟩

theorem lookup_of_lookup_cons {α : Type} {entries : List (String × α)} {added key : String} {a : α}
    (h : ((added, a) :: entries).lookup key = none) : entries.lookup key = none := by
  rw [List.lookup_cons] at h
  split at h
  · cases h
  · exact h

theorem prepares_enter (d : Draft) (name : QualifiedName) (what : Declared) :
    d.Prepares { d with names := (name.text, what) :: d.names } where
  tidy hd := { hd with }
  pending_subset := fun _ h => h
  declared := lookup_of_lookup_cons
  uids_eq := rfl

theorem prepares_define (d : Draft) (name : QualifiedName) (body : Document.TypeBody) :
    d.Prepares { d.reserve name with
      pending := (d.reserve name).pending ++ [⟨⟨d.types.size⟩, name, body⟩] } where
  tidy hd := by
    obtain ⟨hpending, hforward⟩ := hd.next_not_mem
    exact (hd.reserve name).await hpending (d.inTable_reserve name) hforward
  pending_subset := fun _ h => List.mem_append_left _ h
  declared := lookup_of_lookup_cons
  uids_eq := rfl

theorem prepares_forward (d : Draft) (name : QualifiedName) :
    d.Prepares { d.reserve name with
      forwardOnly := ⟨d.types.size⟩ :: (d.reserve name).forwardOnly } where
  tidy hd := by
    obtain ⟨hpending, -⟩ := hd.next_not_mem
    refine { hd.reserve name with forward_inTable := ?_, apart := ?_ }
    · intro id hid
      rcases List.mem_cons.mp hid with rfl | hid
      · exact d.inTable_reserve name
      · exact (hd.reserve name).forward_inTable id hid
    · intro p hp hmem
      rcases List.mem_cons.mp hmem with hid | hmem
      · exact hpending (List.mem_map.mpr ⟨p, hp, hid⟩)
      · exact hd.apart p hp hmem
  pending_subset := fun _ h => h
  declared := lookup_of_lookup_cons
  uids_eq := rfl

theorem prepares_takeOver {p : Pending} (hid : p.id ∈ d.forwardOnly) :
    d.Prepares { d with
      forwardOnly := d.forwardOnly.filter (· ≠ p.id)
      pending := d.pending ++ [p] } where
  tidy hd := by
    have hfiltered : Tidy { d with forwardOnly := d.forwardOnly.filter (· ≠ p.id) } := {
      hd with
      forward_inTable := fun id hid => hd.forward_inTable id (List.mem_of_mem_filter hid)
      apart := fun q hq hmem => hd.apart q hq (List.mem_of_mem_filter hmem) }
    refine hfiltered.await ?_ (hd.forward_inTable p.id hid) (by simp)
    intro hmem
    obtain ⟨q, hq, hsame⟩ := List.mem_map.mp hmem
    exact hd.apart q hq (hsame ▸ hid)
  pending_subset := fun _ h => List.mem_append_left _ h
  declared := id
  uids_eq := rfl

end Draft

theorem ends_enter (name : QualifiedName) (what : Declared) (d : Draft) :
    (Draft.enter name what).Ends d
      (fun _ d' => d.names.lookup name.text = none ∧
        d' = { d with names := (name.text, what) :: d.names }) SchemaError.IsOther := by
  unfold Draft.enter
  apply Build.ends_get_bind
  apply Build.ends_check
  · exact fun _ => not_false
  intro hfresh
  exact Build.ends_modify ⟨Option.not_isSome_iff_eq_none.mp hfresh, rfl⟩

theorem ends_reserve {α : Type} {name : QualifiedName} {next : TypeId → Build α}
    {Q : α → Draft → Prop}
    (h : d.names.lookup name.text = none →
      (next ⟨d.types.size⟩).Ends (d.reserve name) Q SchemaError.IsOther) :
    (do
      let id ← Draft.push (.forward name)
      Draft.enter name (.type id)
      next id : Build α).Ends d Q SchemaError.IsOther := by
  have hpush : (Draft.push (.forward name)).Ends d (fun id d' =>
      id = ⟨d.types.size⟩ ∧ d' = { d with types := d.types.push (.forward name) })
      SchemaError.IsOther := ⟨rfl, rfl⟩
  apply hpush.bind
  rintro _ _ ⟨rfl, rfl⟩
  apply (ends_enter name _ _).bind
  rintro _ _ ⟨hfresh, rfl⟩
  exact h hfresh

theorem ends_declareFresh (scope : QualifiedName) (decl : Document.TypeDecl) (d : Draft) :
    (declareFresh scope decl).Ends d (fun _ d' => d.Prepares d') SchemaError.IsOther := by
  unfold declareFresh
  generalize decl.body = body
  cases body <;> dsimp only
  case «alias» target =>
    apply (ends_enter _ _ d).mono _ fun _ h => h
    rintro _ _ ⟨-, rfl⟩
    exact d.prepares_enter _ _
  case forward => exact ends_reserve fun _ => Build.ends_modify (d.prepares_forward _)
  all_goals exact ends_reserve fun _ => Build.ends_modify (d.prepares_define _ _)

theorem ends_declareType (scope : QualifiedName) (decl : Document.TypeDecl) (d : Draft) :
    (declareType scope decl).Ends d (fun _ d' => d.Prepares d') SchemaError.IsOther := by
  unfold declareType
  apply Build.ends_get_bind
  match hplace : d.names.lookup (scope.child decl.name).text with
  | none => exact ends_declareFresh scope decl d
  | some .interface => exact ends_declareFresh scope decl d
  | some (.alias target home) => exact ends_declareFresh scope decl d
  | some (.type id) =>
    dsimp only
    by_cases hforward : decl.body = .forward
    · rw [if_pos hforward]
      exact Build.ends_pure (.refl d)
    · rw [if_neg hforward]
      by_cases honly : id ∈ d.forwardOnly
      · rw [if_pos honly]
        have htaken := Draft.prepares_takeOver (d := d)
          (p := ⟨id, scope.child decl.name, decl.body⟩) honly
        exact htaken
      · rw [if_neg honly]
        exact ends_declareFresh scope decl d

/-- The exceptions of an interface wait for their definitions, and their names differ. -/
structure Draft.AwaitsExceptions (d : Draft) (i : NamedInterface) : Prop where
  nodup : (i.decl.exceptions.map (·.name)).Nodup
  awaits : ∀ e ∈ i.decl.exceptions, d.Awaits (i.name.child e.name) (.exception e.members)

theorem Draft.AwaitsExceptions.mono {i : NamedInterface} (h : d.AwaitsExceptions i)
    (hd : d.Prepares d') : d'.AwaitsExceptions i :=
  ⟨h.nodup, fun e he => hd.awaits (h.awaits e he)⟩

theorem ends_declareExceptions (name : QualifiedName) (es : List Document.Exception) (d : Draft) :
    Build.Ends (es.forM fun e => do
        let id ← Draft.push (.forward (name.child e.name))
        Draft.enter (name.child e.name) (.type id)
        Draft.await ⟨id, name.child e.name, .exception e.members⟩) d
      (fun _ d' => d.Prepares d' ∧ (es.map (·.name)).Nodup ∧
        (∀ e ∈ es, d.names.lookup (name.child e.name).text = none) ∧
        ∀ e ∈ es, d'.Awaits (name.child e.name) (.exception e.members)) SchemaError.IsOther := by
  induction es generalizing d with
  | nil => exact Build.ends_pure ⟨.refl d, by simp⟩
  | cons e es ih =>
    refine Build.Ends.bind (Q := fun _ mid => d.names.lookup (name.child e.name).text = none ∧
      d.Prepares mid ∧ mid.names.lookup (name.child e.name).text ≠ none ∧
      mid.Awaits (name.child e.name) (.exception e.members)) ?_ ?_
    · apply ends_reserve
      intro hfresh
      refine Build.ends_modify ⟨hfresh, d.prepares_define _ _, ?_, ?_⟩
      · show List.lookup _ (_ :: _) ≠ none
        rw [List.lookup_cons_self]
        exact Option.some_ne_none _
      · exact ⟨_, List.mem_append_right _ (List.mem_singleton_self _), rfl, rfl⟩
    rintro _ mid ⟨hfresh, hmid, hentered, hawaits⟩
    refine (ih mid).mono ?_ fun _ h => h
    rintro _ last ⟨hlast, hnodup, hothers, hrest⟩
    refine ⟨hmid.trans hlast, ?_, ?_, ?_⟩
    · rw [List.map_cons, List.nodup_cons]
      refine ⟨?_, hnodup⟩
      intro hmem
      obtain ⟨other, hother, hsame⟩ := List.mem_map.mp hmem
      exact hentered (hsame ▸ hothers other hother)
    · intro other hother
      rcases List.mem_cons.mp hother with rfl | hother
      · exact hfresh
      · exact hmid.declared (hothers other hother)
    · intro other hother
      rcases List.mem_cons.mp hother with rfl | hother
      · exact hlast.awaits hawaits
      · exact hrest other hother

theorem ends_declareInterface (scope : QualifiedName) (decl : Document.Interface) (d : Draft) :
    (declareInterface scope decl).Ends d (fun _ d' => d.Prepares d' ∧
      d'.AwaitsExceptions ⟨scope.child decl.name, decl⟩) SchemaError.IsOther := by
  unfold declareInterface
  apply (ends_enter _ _ d).bind
  rintro _ mid ⟨-, rfl⟩
  refine (ends_declareExceptions _ decl.exceptions _).mono ?_ fun _ h => h
  rintro _ last ⟨hlast, hnodup, -, hawaits⟩
  exact ⟨(d.prepares_enter _ _).trans hlast, hnodup, hawaits⟩

theorem ends_declareInterfaces (scope : QualifiedName) (decls : List Document.Interface)
    (d : Draft) :
    (decls.forM (declareInterface scope)).Ends d (fun _ d' => d.Prepares d' ∧
      ∀ decl ∈ decls, d'.AwaitsExceptions ⟨scope.child decl.name, decl⟩) SchemaError.IsOther := by
  induction decls generalizing d with
  | nil => exact Build.ends_pure ⟨.refl d, by simp⟩
  | cons decl decls ih =>
    apply (ends_declareInterface scope decl d).bind
    rintro _ mid ⟨hmid, hfirst⟩
    refine (ih mid).mono ?_ fun _ h => h
    rintro _ last ⟨hlast, hrest⟩
    refine ⟨hmid.trans hlast, ?_⟩
    intro other hother
    rcases List.mem_cons.mp hother with rfl | hother
    · exact hfirst.mono hlast
    · exact hrest other hother

mutual

theorem ends_declareModule (name : QualifiedName) (m : Document.Module) (d : Draft) :
    (declareModule name m).Ends d (fun _ d' => d.Prepares d' ∧
      ∀ i ∈ m.namedInterfaces name, d'.AwaitsExceptions i) SchemaError.IsOther := by
  obtain ⟨own, modules, types, decls, constants⟩ := m
  rw [declareModule, Document.Module.namedInterfaces]
  refine Build.Ends.bind (Build.ends_forM (P := d.Prepares) ?_ (.refl d)) ?_
  · intro decl _ mid hmid
    exact (ends_declareType name decl mid).mono (fun _ _ h => hmid.trans h) fun _ h => h
  intro _ mid hmid
  apply (ends_declareInterfaces name decls mid).bind
  rintro _ mid' ⟨hmid', hdecls⟩
  refine (ends_declareModules name modules mid').mono ?_ fun _ h => h
  rintro _ last ⟨hlast, hmodules⟩
  refine ⟨(hmid.trans hmid').trans hlast, ?_⟩
  intro i hi
  rcases List.mem_append.mp hi with hi | hi
  · obtain ⟨decl, hdecl, rfl⟩ := List.mem_map.mp hi
    exact (hdecls decl hdecl).mono hlast
  · exact hmodules i hi

theorem ends_declareModules (scope : QualifiedName) (modules : List Document.Module) (d : Draft) :
    (declareModules scope modules).Ends d (fun _ d' => d.Prepares d' ∧
      ∀ i ∈ Document.namedInterfacesOf scope modules, d'.AwaitsExceptions i)
      SchemaError.IsOther := by
  cases modules with
  | nil =>
    rw [declareModules, Document.namedInterfacesOf]
    exact Build.ends_pure ⟨.refl d, by simp⟩
  | cons m modules =>
    rw [declareModules, Document.namedInterfacesOf]
    apply (ends_declareModule _ m d).bind
    rintro _ mid ⟨hmid, hfirst⟩
    refine (ends_declareModules scope modules mid).mono ?_ fun _ h => h
    rintro _ last ⟨hlast, hrest⟩
    refine ⟨hmid.trans hlast, ?_⟩
    intro i hi
    rcases List.mem_append.mp hi with hi | hi
    · exact (hfirst i hi).mono hlast
    · exact hrest i hi

end

theorem ends_resolveMembers (owner : QualifiedName) (seen : List String)
    (decls : List Document.Member) (d : Draft) :
    (resolveMembers owner seen decls).Ends d
      (fun members d' => d.Grows d' ∧ members.map (·.name) = decls.map (·.name))
      SchemaError.IsOther := by
  induction decls generalizing seen d with
  | nil => exact Build.ends_pure ⟨.refl d, rfl⟩
  | cons m decls ih =>
    rw [resolveMembers]
    apply Build.ends_check
    · exact fun _ => not_false
    intro _
    apply (ends_resolve owner.scope m.type d).bind
    intro type mid hmid
    apply (ih (m.name :: seen) mid).bind
    rintro members last ⟨hlast, hnames⟩
    refine Build.ends_pure ⟨hmid.trans hlast, ?_⟩
    rw [List.map_cons, List.map_cons, hnames]

theorem isOther_of_checkEnumerators {owner : QualifiedName} {names : List String}
    {values : List Int32} {decls : List Document.Enumerator} {e : SchemaError}
    (h : checkEnumerators owner names values decls = .error e) : e.IsOther := by
  induction decls generalizing names values with
  | nil => cases h
  | cons decl decls ih =>
    rw [checkEnumerators] at h
    split at h
    · obtain rfl := Except.error.inj h
      exact not_false
    · dsimp only at h
      cases hvalue : ordinal? decl.value with
      | none =>
        rw [hvalue] at h
        obtain rfl := Except.error.inj h
        exact not_false
      | some v =>
        rw [hvalue] at h
        dsimp only at h
        split at h
        · obtain rfl := Except.error.inj h
          exact not_false
        · cases hrest : checkEnumerators owner (decl.name :: names) (v :: values) decls with
          | error e' =>
            rw [hrest] at h
            obtain rfl := Except.error.inj h
            exact ih hrest
          | ok rest =>
            rw [hrest] at h
            cases h

theorem isOther_of_checkEnum {owner : QualifiedName} {decls : List Document.Enumerator}
    {e : SchemaError} (h : checkEnum owner decls = .error e) : e.IsOther := by
  unfold checkEnum at h
  split at h
  · obtain rfl := Except.error.inj h
    exact not_false
  · cases hchecked : checkEnumerators owner [] [] decls with
    | error e' =>
      rw [hchecked] at h
      obtain rfl := Except.error.inj h
      exact isOther_of_checkEnumerators hchecked
    | ok checked =>
      rw [hchecked] at h
      cases h

theorem ends_definition? (p : Pending) (d : Draft) :
    (definition? p).Ends d (fun _ d' => d.Grows d') SchemaError.IsOther := by
  obtain ⟨id, name, body⟩ := p
  unfold definition?
  cases body <;> dsimp only
  case record decls | exception decls =>
    apply (ends_resolveMembers name [] decls d).bind
    rintro members mid ⟨hmid, -⟩
    exact Build.ends_pure hmid
  case sequence reference =>
    apply (ends_resolve name.scope reference d).bind
    intro element mid hmid
    exact Build.ends_pure hmid
  case map keyReference valueReference =>
    apply (ends_resolve name.scope keyReference d).bind
    intro key mid hmid
    apply (ends_resolve name.scope valueReference mid).bind
    intro value last hlast
    exact Build.ends_pure (hmid.trans hlast)
  case enumeration enumerators =>
    refine Build.Ends.bind (Q := fun _ d' => d = d') (Build.ends_lift (fun _ _ => rfl) ?_) ?_
    · exact fun e he => isOther_of_checkEnum he
    rintro e _ rfl
    exact Build.ends_pure (.refl d)
  all_goals exact Build.ends_pure (.refl d)

/-- The definition that a declaration gives, in whichever draft. -/
def Pending.Gives (p : Pending) (found : Option TypeDef) : Prop :=
  ∃ before after, definition? p before = .ok (found, after)

/-- What stands at a place is the definition that waited for it. -/
def Draft.Defines (d : Draft) (p : Pending) : Prop :=
  ∃ found, p.Gives found ∧ ∀ type ∈ found, d.types[p.id.index]? = some type

/-- What defining changes: only places that are waited for. -/
structure Draft.Settles (waiting : List Pending) (d d' : Draft) : Prop where
  names_eq : d'.names = d.names
  uids_eq : d'.interfaceUids = d.interfaceUids
  size_le : d.types.size ≤ d'.types.size
  type_eq : ∀ {i : Nat} {type : TypeDef}, (∀ p ∈ waiting, p.id.index ≠ i) →
    d.types[i]? = some type → d'.types[i]? = some type
  defines : ∀ p ∈ waiting, d'.Defines p

theorem Draft.Settles.cons {p : Pending} {waiting : List Pending} (h : d.Settles [p] d')
    (h' : d'.Settles waiting d'') (hnew : ∀ q ∈ waiting, q.id ≠ p.id) :
    d.Settles (p :: waiting) d'' where
  names_eq := h'.names_eq.trans h.names_eq
  uids_eq := h'.uids_eq.trans h.uids_eq
  size_le := Nat.le_trans h.size_le h'.size_le
  type_eq hothers htype := by
    apply h'.type_eq fun q hq => hothers q (List.mem_cons_of_mem p hq)
    apply h.type_eq _ htype
    intro q hq
    obtain rfl := List.mem_singleton.mp hq
    exact hothers q List.mem_cons_self
  defines q hq := by
    rcases List.mem_cons.mp hq with rfl | hq
    · obtain ⟨found, hgives, hfound⟩ := h.defines q List.mem_cons_self
      refine ⟨found, hgives, fun type htype => h'.type_eq ?_ (hfound type htype)⟩
      intro other hother hsame
      exact hnew other hother (congrArg TypeId.mk hsame)
    · exact h'.defines q hq

theorem ends_definePending {p : Pending} (hplace : d.InTable p.id) :
    (definePending p).Ends d (fun _ d' => d.Settles [p] d') SchemaError.IsOther := by
  unfold definePending
  apply (ends_definition? p d).with_run.bind
  rintro found mid ⟨hmid, hrun⟩
  have hgives : p.Gives found := ⟨d, mid, hrun⟩
  cases found with
  | none =>
    refine Build.ends_pure ⟨hmid.names_eq, hmid.uids_eq, hmid.size_le, fun _ => hmid.type_eq, ?_⟩
    intro q hq
    obtain rfl := List.mem_singleton.mp hq
    exact ⟨none, hgives, nofun⟩
  | some type =>
    have hbound : p.id.index < mid.types.size := Nat.lt_of_lt_of_le hplace hmid.size_le
    show d.Settles [p] (mid.withType p.id type)
    refine ⟨hmid.names_eq, hmid.uids_eq, ?_, ?_, ?_⟩
    · unfold Draft.withType
      rw [Array.size_setIfInBounds]
      exact hmid.size_le
    · intro i other hother htype
      have hne := hother p List.mem_cons_self
      exact (Array.getElem?_setIfInBounds_ne hne).trans (hmid.type_eq htype)
    · intro q hq
      obtain rfl := List.mem_singleton.mp hq
      refine ⟨some type, hgives, ?_⟩
      intro other hother
      obtain rfl := Option.some.inj hother
      exact Array.getElem?_setIfInBounds_self_of_lt hbound

theorem ends_definePendings {waiting : List Pending} (hnodup : (waiting.map (·.id)).Nodup)
    (hplaces : ∀ p ∈ waiting, d.InTable p.id) :
    (waiting.forM definePending).Ends d (fun _ d' => d.Settles waiting d')
      SchemaError.IsOther := by
  induction waiting generalizing d with
  | nil =>
    exact Build.ends_pure ⟨rfl, rfl, Nat.le_refl _, fun _ htype => htype, by simp⟩
  | cons p waiting ih =>
    rw [List.map_cons, List.nodup_cons] at hnodup
    apply (ends_definePending (hplaces p List.mem_cons_self)).bind
    intro _ mid hmid
    refine (ih hnodup.2 ?_).mono ?_ fun _ h => h
    · intro q hq
      exact Nat.lt_of_lt_of_le (hplaces q (List.mem_cons_of_mem p hq)) hmid.size_le
    · intro _ last hlast
      apply hmid.cons hlast
      intro q hq hsame
      exact hnodup.1 (List.mem_map.mpr ⟨q, hq, hsame⟩)

theorem ends_defineAll (hd : d.Tidy) :
    defineAll.Ends d (fun _ d' => d.Settles d.pending d') SchemaError.IsOther := by
  unfold defineAll
  apply Build.ends_get_bind
  refine Build.Ends.bind (Build.ends_modify (Q := fun _ d' => d' = { d with pending := [] }) rfl) ?_
  rintro _ _ rfl
  have hloop := ends_definePendings (d := { d with pending := [] }) hd.nodup hd.pending_inTable
  refine hloop.mono ?_ fun _ h => h
  intro _ last hlast
  exact { hlast with }

/-- An exception is a record under its own name, with the members that it declares. -/
theorem Pending.Gives.exists_record {p : Pending} {found : Option TypeDef} (h : p.Gives found)
    {decls : List Document.Member} (hbody : p.body = .exception decls) :
    ∃ members, found = some (.record ⟨p.name, .exception, members⟩) ∧
      members.map (·.name) = decls.map (·.name) := by
  obtain ⟨id, name, body⟩ := p
  obtain ⟨before, after, hrun⟩ := h
  obtain rfl := hbody
  unfold definition? at hrun
  dsimp only at hrun
  obtain ⟨members, mid, hmembers, hrun⟩ := Build.bind_eq_ok_iff.mp hrun
  obtain ⟨rfl, rfl⟩ := Build.pure_eq_ok_iff.mp hrun
  exact ⟨members, rfl, ((ends_resolveMembers name [] decls before).of_ok hmembers).2⟩

theorem isOther_of_checkMapKeys {types : Array TypeDef} {e : SchemaError}
    (h : checkMapKeys types = .error e) : e.IsOther := by
  unfold checkMapKeys at h
  generalize types.toList = checked at h
  induction checked with
  | nil => cases h
  | cons type checked ih =>
    rw [List.forM] at h
    cases type with
    | map m =>
      by_cases hkey : (types.getD m.key.index (.forward .root)).isOrderable
      · dsimp only at h
        rw [if_pos hkey] at h
        exact ih h
      · dsimp only at h
        rw [if_neg hkey] at h
        obtain rfl := Except.error.inj h
        exact not_false
    | _ => exact ih h

/-- A declared exception is the record at a place of a table. -/
structure IsExceptionAt (types : Array TypeDef) (interface : QualifiedName)
    (e : Document.Exception) (id : TypeId) (r : RecordType) : Prop where
  type_eq : types[id.index]? = some (.record r)
  name_eq : r.name = interface.child e.name
  kind_eq : r.kind = .exception
  members_eq : r.members.map (·.name) = e.members.map (·.name)

/-- The exceptions of an interface have different names, and each of them is defined. -/
structure Draft.DefinesExceptions (d : Draft) (i : NamedInterface) : Prop where
  nodup : (i.decl.exceptions.map (·.name)).Nodup
  defined : ∀ e ∈ i.decl.exceptions, ∃ id r,
    d.names.lookup (i.name.child e.name).text = some (.type id) ∧
      IsExceptionAt d.types i.name e id r

theorem Draft.AwaitsExceptions.defines {i : NamedInterface} (h : d.AwaitsExceptions i)
    (hd : d.Sound) (hsettles : d.Settles d.pending d') : d'.DefinesExceptions i := by
  refine ⟨h.nodup, ?_⟩
  intro e he
  obtain ⟨p, hp, hname, hbody⟩ := h.awaits e he
  obtain ⟨found, hgives, hfound⟩ := hsettles.defines p hp
  obtain ⟨members, rfl, hmembers⟩ := hgives.exists_record hbody
  refine ⟨p.id, ⟨p.name, .exception, members⟩, ?_, hfound _ rfl, hname, rfl, hmembers⟩
  rw [hsettles.names_eq, ← hname]
  exact hd.awaited p hp

theorem Draft.DefinesExceptions.mono {i : NamedInterface} (h : d.DefinesExceptions i)
    (hkeeps : d.Keeps d') : d'.DefinesExceptions i := by
  refine ⟨h.nodup, ?_⟩
  intro e he
  obtain ⟨id, r, hid, hr⟩ := h.defined e he
  refine ⟨id, r, ?_, { hr with type_eq := hkeeps.type_eq hr.type_eq }⟩
  rw [hkeeps.names_eq, hid]

/-- Building comes to the declared interfaces, with their exceptions defined, or to an error that
says which rule a declaration breaks. -/
theorem ends_construct (doc : Document) :
    (construct doc).Ends {}
      (fun ms d' => InterfacesDone d'.names doc.interfaces (interfacesOf ms) ∧
        ∀ i ∈ doc.interfaces, d'.DefinesExceptions i)
      (fun e => e.IsInterfaceFault → BreaksInterfaces doc.interfaces e) := by
  unfold construct
  apply ((ends_declareModules .root doc.modules {}).with_run.mono (fun _ _ h => h)
    fun _ h hf => absurd hf h).bind
  rintro _ declared ⟨⟨hprepares, hawaits⟩, hrun⟩
  have hsound := (declaring_declareModules .empty hrun).sound
  apply ((ends_defineAll (hprepares.tidy Draft.tidy_empty)).mono (fun _ _ h => h)
    fun _ h hf => absurd hf h).bind
  intro _ defined hsettles
  apply Build.ends_get_bind
  refine Build.Ends.bind (Q := fun _ d' => defined = d') (Build.ends_lift (fun _ _ => rfl) ?_) ?_
  · exact fun e he hf => absurd hf (isOther_of_checkMapKeys he)
  rintro _ _ rfl
  have hstart : defined.Assembling [] [] := by
    refine ⟨⟨.nil, by simp⟩, ?_⟩
    rw [hsettles.uids_eq, hprepares.uids_eq]
    rfl
  refine (ends_assembleModules .root doc.modules hstart).mono ?_ fun _ h => h
  rintro ms last ⟨hkeeps, hdone⟩
  refine ⟨hdone.toInterfacesDone, ?_⟩
  intro i hi
  exact ((hawaits i hi).defines hsound hsettles).mono hkeeps

variable {doc : Document} {s : Schema}

theorem construct_of_build_eq_ok (h : build doc = .ok s) :
    ∃ d, construct doc {} = .ok (s.modules, d) ∧ s.types = d.types := by
  unfold build at h
  cases hrun : (construct doc).run {} with
  | error e =>
    rw [hrun] at h
    cases h
  | ok p =>
    rw [hrun] at h
    obtain rfl := Except.ok.inj h
    exact ⟨p.2, hrun, rfl⟩

theorem construct_of_build_eq_error {e : SchemaError} (h : build doc = .error e) :
    construct doc {} = .error e := by
  unfold build at h
  cases hrun : (construct doc).run {} with
  | error e' =>
    rw [hrun] at h
    obtain rfl := Except.error.inj h
    exact hrun
  | ok p =>
    rw [hrun] at h
    cases h

/-- An interface of a schema beside its declaration. Its exceptions are the declared ones, under
their own names. -/
structure Interface.Built (s : Schema) (decl : NamedInterface) (i : Interface) : Prop
    extends Interface.Realizes decl i where
  exceptionNames_nodup : (decl.decl.exceptions.map (·.name)).Nodup
  exceptions : List.Forall₂ (fun e id => ∃ r, IsExceptionAt s.types i.name e id r)
    decl.decl.exceptions i.exceptions

theorem forall₂_declaredExceptions {names : List (String × Declared)} {interface : QualifiedName}
    {es : List Document.Exception} {R : Document.Exception → TypeId → Prop}
    (h : ∀ e ∈ es, ∃ id, names.lookup (interface.child e.name).text = some (.type id) ∧ R e id) :
    List.Forall₂ R es (declaredExceptions { names } interface (es.map (·.name))) := by
  induction es with
  | nil => exact .nil
  | cons e es ih =>
    obtain ⟨id, hid, hr⟩ := h e List.mem_cons_self
    have hrest := ih fun other hother => h other (List.mem_cons_of_mem e hother)
    unfold declaredExceptions at hrest ⊢
    rw [List.map_cons, List.filterMap_cons, hid]
    exact .cons hr hrest

/-- The schema of a document has its interfaces in their order, and their numbers differ. -/
theorem interfaces_of_build (h : build doc = .ok s) :
    List.Forall₂ (Interface.Built s) doc.interfaces s.interfaces ∧
      (s.interfaces.map (·.uid)).Nodup := by
  obtain ⟨d, hrun, htypes⟩ := construct_of_build_eq_ok h
  obtain ⟨hdone, hdefines⟩ := (ends_construct doc).of_ok hrun
  refine ⟨?_, hdone.uids_nodup⟩
  have hboth := (List.forall₂_and_left doc.interfaces s.interfaces).mpr
    ⟨hdefines, hdone.realized⟩
  refine hboth.imp ?_
  rintro decl i ⟨hexceptions, hrealizes, hids⟩
  refine ⟨hrealizes, hexceptions.nodup, ?_⟩
  rw [hids, hrealizes.name_eq, htypes]
  apply forall₂_declaredExceptions
  intro e he
  obtain ⟨id, r, hid, hr⟩ := hexceptions.defined e he
  exact ⟨id, hid, r, hr⟩

end WireSchema.Schema
