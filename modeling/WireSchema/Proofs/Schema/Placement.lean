import WireSchema.Proofs.Schema.Memory
import WireSchema.Proofs.Schema.Standing

/-!
# Where references are placed

Once all names are declared, every reference that a document writes has its answer, and defining and
assembling come to what the declarations say with every reference replaced by the place of what it
denotes. Which places these are shows in the last draft only, because primitive types get theirs
when they are used first. So results are said for every function that gives the places of that
draft, and each step leaves to the later ones what it does not know yet.
-/
namespace WireSchema

namespace Document

/-- A type that is referred to, with the scope in which this is written. -/
structure Reference where
  scope : QualifiedName
  text : String
deriving DecidableEq, Repr

/-- What a declared type refers to. The target of an alias is none of this, as an alias is no type
of its own. -/
def Declaration.references (x : Declaration) : List Reference :=
  match x.body with
  | .record members | .exception members => members.map fun m => ⟨x.name.scope, m.type⟩
  | .sequence element => [⟨x.name.scope, element⟩]
  | .map key value => [⟨x.name.scope, key⟩, ⟨x.name.scope, value⟩]
  | .enumeration _ | .alias _ | .forward => []

def Operation.references (interface : QualifiedName) (op : Operation) : List Reference :=
  op.params.map (fun p => ⟨interface, p.type⟩) ++ op.returns.toList.map fun r => ⟨interface, r⟩

inductive Clause where
  | constants (scope : QualifiedName) (decls : List Constant)
  | operations (interface : QualifiedName) (decls : List Operation)

def Clause.references : Clause → List Reference
  | .constants scope decls => decls.map fun c => ⟨scope, c.type⟩
  | .operations interface decls => decls.flatMap (·.references interface)

def Interface.clauses (name : QualifiedName) (i : Interface) : List Clause :=
  [.operations name i.operations, .constants name i.constants]

mutual

def Module.clauses (name : QualifiedName) : Module → List Clause
  | ⟨_, modules, _, interfaces, constants⟩ =>
    .constants name constants :: interfaces.flatMap (fun i => i.clauses (name.child i.name)) ++
      clausesOf name modules

def clausesOf (scope : QualifiedName) : List Module → List Clause
  | [] => []
  | m :: modules => m.clauses (scope.child m.name) ++ clausesOf scope modules

end

def clauses (doc : Document) : List Clause := clausesOf .root doc.modules

def references (doc : Document) : List Reference :=
  doc.declarations.flatMap (·.references) ++ doc.clauses.flatMap (·.references)

end Document

/-- The errors about references. -/
def SchemaError.IsReferenceFault : SchemaError → Prop
  | .unknownType .. | .aliasCycle .. => True
  | _ => False

namespace Schema

open Document (Declaration Clause Reference TypeBody)

variable {d d' d'' : Draft} {names : List (String × Declared)} {r : Reference}
  {refs refs' : List Reference}

def Gives (names : List (String × Declared)) (r : Reference) (den : Denotation) : Prop :=
  Denotes names [] r.scope r.text (.ok den)

def Fails (names : List (String × Declared)) (r : Reference) (e : SchemaError) : Prop :=
  Denotes names [] r.scope r.text (.error e)

theorem Denotes.isReferenceFault {following : List String} {scope : QualifiedName}
    {reference : String} {answer : Except SchemaError Denotation} {e : SchemaError}
    (h : Denotes names following scope reference answer) (hanswer : answer = .error e) :
    e.IsReferenceFault := by
  induction h with
  | primitive | type => cases hanswer
  | unknown | cycle =>
    obtain rfl := Except.error.inj hanswer
    trivial
  | follow _ _ _ _ ih => exact ih hanswer

theorem Denotes.exists_name {following : List String} {scope : QualifiedName} {reference : String}
    {answer : Except SchemaError Denotation} {id : TypeId}
    (h : Denotes names following scope reference answer) (hanswer : answer = .ok (.declared id)) :
    ∃ key, names.lookup key = some (.type id) := by
  induction h with
  | primitive | unknown | cycle => cases hanswer
  | @type _ _ _ name _ _ hmeans =>
    obtain rfl := Denotation.declared.inj (Except.ok.inj hanswer)
    exact ⟨name, hmeans.lookup_eq⟩
  | follow _ _ _ _ ih => exact ih hanswer

theorem Gives.name?_eq_none {type : TypeDef} (h : Gives names r (.primitive type)) :
    type.name? = none := by
  obtain ⟨n, hchain⟩ := Denotes.exists_chain h rfl
  exact hchain.name?_eq_none rfl

/-- Why a document is rejected, rules for interfaces apart: a reference denotes nothing, or another
rule is broken. -/
def Faults (names : List (String × Declared)) (refs : List Reference) (rule : Prop)
    (e : SchemaError) : Prop :=
  e.IsOther → (∃ r ∈ refs, Fails names r e) ∨ ¬ rule ∧ ¬ e.IsReferenceFault

section

variable {rule rule' : Prop} {e : SchemaError}

theorem Faults.mono (h : Faults names refs rule e) (hrefs : refs ⊆ refs')
    (hrule : rule' → rule) : Faults names refs' rule' e := by
  intro hother
  rcases h hother with ⟨r, hr, hfails⟩ | ⟨hbroken, hfault⟩
  · exact .inl ⟨r, hrefs hr, hfails⟩
  · exact .inr ⟨fun h => hbroken (hrule h), hfault⟩

theorem Fails.faults (h : Fails names r e) (hr : r ∈ refs) : Faults names refs rule e :=
  fun _ => .inl ⟨r, hr, h⟩

theorem faults_of_not (hrule : ¬ rule) (he : ¬ e.IsReferenceFault) : Faults names refs rule e :=
  fun _ => .inr ⟨hrule, he⟩

end

namespace Draft

/-- A draft in which the names are declared. What it remembers about them is right. -/
structure Ready (d : Draft) : Prop where
  sound : d.Sound
  remembers : d.Remembers

theorem Ready.reaches (hd : d.Ready) (h : d.Reaches d') : d'.Ready :=
  ⟨(hd.sound.reaches h).1, hd.remembers.reaches hd.sound h⟩

/-- What a reference denotes has its place. -/
def Places (d : Draft) (r : Reference) (id : TypeId) : Prop :=
  ∃ den, Gives d.names r den ∧ d.Holds id den

theorem Places.mono {id : TypeId} (h : d.Places r id) (hext : d.Extends d') : d'.Places r id := by
  obtain ⟨den, hgives, hholds⟩ := h
  refine ⟨den, ?_, ?_⟩
  · rwa [hext.names_eq]
  · cases den with
    | declared place => exact hholds
    | primitive type => exact hext.primitive hholds hgives.name?_eq_none

/-- A place is kept for one name. -/
theorem Sound.name_unique (hd : d.Sound) {key key' : String} {id : TypeId}
    (h : d.names.lookup key = some (.type id)) (h' : d.names.lookup key' = some (.type id)) :
    key = key' := by
  obtain ⟨type, name, htype, hname, rfl⟩ := hd.named h
  obtain ⟨type', name', htype', hname', rfl⟩ := hd.named h'
  obtain rfl := Option.some.inj (htype.symm.trans htype')
  rw [Option.some.inj (hname.symm.trans hname')]

theorem Sound.primitive_unique (hd : d.Sound) {id id' : TypeId} {type : TypeDef}
    (h : d.types[id.index]? = some type) (h' : d.types[id'.index]? = some type)
    (hname : type.name? = none) : id = id' := by
  have hplace := hd.place_of_primitive h hname
  rw [hd.place_of_primitive h' hname] at hplace
  exact (Option.some.inj hplace).symm

theorem Sound.holds_unique (hd : d.Sound) {id id' : TypeId} {den : Denotation}
    (hgives : Gives d.names r den) (h : d.Holds id den) (h' : d.Holds id' den) : id = id' := by
  cases den with
  | declared place => exact h.trans h'.symm
  | primitive type => exact hd.primitive_unique h h' hgives.name?_eq_none

theorem Places.unique (hd : d.Sound) {id id' : TypeId} (h : d.Places r id) (h' : d.Places r id') :
    id = id' := by
  obtain ⟨den, hgives, hholds⟩ := h
  obtain ⟨den', hgives', hholds'⟩ := h'
  obtain rfl := Except.ok.inj (Denotes.unique hgives hgives')
  exact hd.holds_unique hgives hholds hholds'

theorem Sound.exists_type_of_declared (hd : d.Sound) {id : TypeId}
    (h : Gives d.names r (.declared id)) :
    ∃ type name, d.types[id.index]? = some type ∧ type.name? = some name := by
  obtain ⟨key, hkey⟩ := Denotes.exists_name h rfl
  obtain ⟨type, name, htype, hname, -⟩ := hd.named hkey
  exact ⟨type, name, htype, hname⟩

/-- A function gives the places of references. -/
def Fits (d : Draft) (look : Reference → TypeId) : Prop :=
  ∀ (r : Reference) (id : TypeId), d.Places r id → look r = id

theorem Fits.mono {look : Reference → TypeId} (h : d'.Fits look) (hext : d.Extends d') :
    d.Fits look := fun r id hplace => h r id (hplace.mono hext)

theorem Sound.exists_fits (hd : d.Sound) : ∃ look, d.Fits look := by
  classical
  refine ⟨fun r => if h : ∃ id, d.Places r id then h.choose else default, ?_⟩
  intro r id hplace
  have hex : ∃ id, d.Places r id := ⟨id, hplace⟩
  exact (dif_pos hex).trans (hex.choose_spec.unique hd hplace)

/-- A later draft has places for some references, and the primitive types that are new in it are
denoted by them. -/
structure Advances (d d' : Draft) (refs : List Reference) : Prop where
  reaches : d.Reaches d'
  placed : ∀ r ∈ refs, ∃ id, d'.Places r id
  used : ∀ {i : Nat} {type : TypeDef}, d'.types[i]? = some type → type.name? = none →
    d.types[i]? = some type ∨ ∃ r ∈ refs, Gives d.names r (.primitive type)

theorem Advances.refl (d : Draft) : d.Advances d [] :=
  ⟨Relation.ReflTransGen.refl, by simp, fun htype _ => .inl htype⟩

theorem Advances.trans (hd : d.Sound) (h : d.Advances d' refs) (h' : d'.Advances d'' refs') :
    d.Advances d'' (refs ++ refs') := by
  obtain ⟨hsound, hext⟩ := hd.reaches h.reaches
  obtain ⟨-, hext'⟩ := hsound.reaches h'.reaches
  refine ⟨Relation.ReflTransGen.trans h.reaches h'.reaches, ?_, ?_⟩
  · refine List.forall_mem_append.mpr ⟨fun r hr => ?_, h'.placed⟩
    obtain ⟨id, hplace⟩ := h.placed r hr
    exact ⟨id, hplace.mono hext'⟩
  · intro i type htype hname
    rcases h'.used htype hname with htype | ⟨r, hr, hgives⟩
    · rcases h.used htype hname with htype | ⟨r, hr, hgives⟩
      · exact .inl htype
      · exact .inr ⟨r, List.mem_append_left _ hr, hgives⟩
    · rw [hext.names_eq] at hgives
      exact .inr ⟨r, List.mem_append_right _ hr, hgives⟩

theorem Advances.fits (h : d.Advances d' refs) (hd : d.Sound) {look : Reference → TypeId}
    (hlook : d'.Fits look) : d.Fits look :=
  hlook.mono (hd.reaches h.reaches).2

/-- Putting a definition at its place needs no reference. -/
theorem advances_withType {name : QualifiedName} {id : TypeId} {type : TypeDef}
    (hplace : d.names.lookup name.text = some (.type id)) (hname : type.name? = some name)
    (hparts : ∀ part ∈ type.parts, d.InTable part) : d.Advances (d.withType id type) [] where
  reaches := Relation.ReflTransGen.single (.define hplace hname hparts)
  placed := by simp
  used {i other} hother hprimitive := by
    obtain ⟨-, rfl⟩ | ⟨-, hother⟩ := getElem?_set_eq_some hother
    · rw [hname] at hprimitive
      cases hprimitive
    · exact .inl hother

end Draft

/-- A resolution adds at most the primitive type that it gives. -/
theorem Draft.Resolves.primitive_new {following : List String} {scope : QualifiedName}
    {reference : String} {result : Except SchemaError (TypeId × Draft)} {id : TypeId}
    (h : d.Resolves following scope reference result) (hresult : result = .ok (id, d')) {i : Nat}
    {type : TypeDef} (htype : d'.types[i]? = some type) :
    d.types[i]? = some type ∨ i = id.index := by
  induction h generalizing id d' with
  | @primitive _ _ _ found hprimitive =>
    rw [intern_eq] at hresult
    cases hlookup : d.primitives.lookup found.describe with
    | some place =>
      rw [hlookup] at hresult
      obtain ⟨-, rfl⟩ := Prod.mk.inj (Except.ok.inj hresult)
      exact .inl htype
    | none =>
      rw [hlookup] at hresult
      obtain ⟨rfl, rfl⟩ := Prod.mk.inj (Except.ok.inj hresult)
      obtain ⟨rfl, -⟩ | htype := getElem?_push_eq_some htype
      · exact .inr rfl
      · exact .inl htype
  | unknown | cycle => cases hresult
  | type | remembered =>
    obtain ⟨-, rfl⟩ := Prod.mk.inj (Except.ok.inj hresult)
    exact .inl htype
  | @follow _ _ _ _ _ _ result _ _ _ _ _ ih =>
    cases result with
    | error e => cases hresult
    | ok p =>
      obtain ⟨rfl, rfl⟩ := Prod.mk.inj (Except.ok.inj hresult)
      exact ih rfl htype

/-- Resolving finds the place of a reference, or it says why the reference denotes nothing. -/
theorem ends_resolve_places (hd : d.Ready) (r : Reference) :
    (resolve r.scope r.text).Ends d (fun id d' => d.Advances d' [r] ∧ d'.Places r id)
      (Fails d.names r) := by
  have hcourse := d.resolves_resolve r.scope r.text
  obtain ⟨answer, hanswer, hresult, -⟩ :=
    hcourse.answers hd.sound hd.remembers (Draft.ahead_nil _ r.scope r.text)
  unfold Build.Ends
  cases hrun : resolve r.scope r.text d with
  | error e =>
    rw [hrun] at hresult
    cases answer with
    | error e' =>
      obtain rfl : e = e' := hresult
      exact hanswer
    | ok den => cases hresult
  | ok p =>
    obtain ⟨id, d'⟩ := p
    rw [hrun] at hresult
    cases answer with
    | error e => cases hresult
    | ok den =>
      have hstep : d.Step d' := .resolve hrun
      obtain ⟨hsound, hext⟩ := hd.sound.step hstep
      have hplaces : d'.Places r id := by
        refine ⟨den, ?_, hresult⟩
        rwa [Gives, hext.names_eq]
      refine ⟨⟨Relation.ReflTransGen.single hstep, ?_, ?_⟩, hplaces⟩
      · intro other hother
        obtain rfl := List.mem_singleton.mp hother
        exact ⟨id, hplaces⟩
      · intro i type htype hname
        rcases hcourse.primitive_new hrun htype with htype | rfl
        · exact .inl htype
        · refine .inr ⟨r, List.mem_cons_self, ?_⟩
          -- The place is new, so it is not one that is kept for a name.
          cases den with
          | primitive found =>
            obtain rfl := Option.some.inj (htype.symm.trans hresult)
            exact hanswer
          | declared place =>
            obtain rfl : id = place := hresult
            rw [← hext.names_eq] at hanswer
            obtain ⟨other, name, hother, hnamed⟩ :=
              hsound.exists_type_of_declared (r := r) hanswer
            obtain rfl := Option.some.inj (htype.symm.trans hother)
            rw [hname] at hnamed
            cases hnamed

namespace Build

variable {α β : Type} {x : Build α} {f : α → Build β} {rule rule' : Prop}
  {R R' : (Reference → TypeId) → α → Prop} {S : (Reference → TypeId) → β → Prop}

/-- A step finds the places of some references and comes to what it should, given the places in some
later draft, provided that a rule is obeyed. Otherwise it says that a reference denotes nothing, or
it notices that the rule is broken. -/
def Yields (x : Build α) (d : Draft) (refs : List Reference) (rule : Prop)
    (R : (Reference → TypeId) → α → Prop) : Prop :=
  x.Ends d (fun a d' => d.Advances d' refs ∧ rule ∧ ∀ look, d'.Fits look → R look a)
    (Faults d.names refs rule)

theorem Yields.congr (h : x.Yields d refs rule R) (hrefs : refs = refs') (hrule : rule ↔ rule') :
    x.Yields d refs' rule' R := by
  subst hrefs
  refine Ends.mono h ?_ fun e he => he.mono (List.Subset.refl _) hrule.mpr
  rintro a d' ⟨hadvances, hobeyed, hresult⟩
  exact ⟨hadvances, hrule.mp hobeyed, hresult⟩

theorem yields_pure {a : α} (h : ∀ look, R look a) : (pure a : Build α).Yields d [] True R :=
  ends_pure ⟨.refl d, trivial, fun look _ => h look⟩

theorem yields_check {c : Prop} [Decidable c] {e : SchemaError} {next : Unit → Build α}
    (he : ¬ e.IsReferenceFault) (h : ¬ c → (next ()).Yields d refs rule R) :
    (if c then (throw e : Build Unit) >>= next else next ()).Yields d refs (¬ c ∧ rule) R := by
  apply ends_check
  · exact fun hc => faults_of_not (fun hrule => hrule.1 hc) he
  · intro hc
    refine Ends.mono (h hc) ?_ fun e he => he.mono (List.Subset.refl _) (·.2)
    rintro a d' ⟨hadvances, hobeyed, hresult⟩
    exact ⟨hadvances, ⟨hc, hobeyed⟩, hresult⟩

theorem yields_throw {e : SchemaError} (he : e.IsInterfaceFault) :
    (throw e : Build α).Yields d refs rule R :=
  ends_throw fun hother => absurd he hother

theorem yields_lift {y : Except SchemaError α} (hok : ∀ a, y = .ok a → ∀ look, R look a)
    (herror : ∀ e, y = .error e → ¬ e.IsReferenceFault) :
    (liftM y : Build α).Yields d [] (∃ a, y = .ok a) R := by
  refine ends_lift ?_ ?_
  · exact fun a ha => ⟨.refl d, ⟨a, ha⟩, fun look _ => hok a ha look⟩
  · intro e he
    refine faults_of_not ?_ (herror e he)
    rintro ⟨a, ha⟩
    rw [he] at ha
    cases ha

theorem Yields.bind_pure {g : α → β} (h : x.Yields d refs rule R)
    (hg : ∀ look a, R look a → S look (g a)) :
    (x >>= fun a => pure (g a)).Yields d refs rule S := by
  refine Ends.bind h ?_
  rintro a mid ⟨hmid, hrule, hresult⟩
  exact ends_pure ⟨hmid, hrule, fun look hlook => hg look a (hresult look hlook)⟩

section Ready

variable (hd : d.Ready)
include hd

/-- What comes after a step sees the same names, and the places that were found before stay. -/
theorem Yields.after {y : Build β} (hy : y.Yields d' refs' rule' S) (h : d.Advances d' refs)
    (hrule : rule) :
    y.Ends d' (fun b last => d.Advances last (refs ++ refs') ∧ (rule ∧ rule') ∧
      ∀ look, last.Fits look → d'.Fits look ∧ S look b)
      (Faults d.names (refs ++ refs') (rule ∧ rule')) := by
  obtain ⟨hsound, hext⟩ := hd.sound.reaches h.reaches
  refine Ends.mono hy ?_ ?_
  · rintro b last ⟨hlast, hrule', hresult⟩
    refine ⟨h.trans hd.sound hlast, ⟨hrule, hrule'⟩, ?_⟩
    exact fun look hlook => ⟨hlast.fits hsound hlook, hresult look hlook⟩
  · intro e he
    rw [hext.names_eq] at he
    exact he.mono (List.subset_append_right _ _) (·.2)

theorem Yields.bind (h : x.Yields d refs rule R)
    (hf : ∀ a mid, mid.Ready → mid.names = d.names →
      (f a).Yields mid refs' rule' fun look b => R look a → S look b) :
    (x >>= f).Yields d (refs ++ refs') (rule ∧ rule') S := by
  refine Ends.bind (Ends.mono h (fun _ _ h => h) fun e he =>
    he.mono (List.subset_append_left _ _) (·.1)) ?_
  rintro a mid ⟨hmid, hrule, hresult⟩
  have hnames := (hd.sound.reaches hmid.reaches).2.names_eq
  refine (Yields.after hd (hf a mid (hd.reaches hmid.reaches) hnames) hmid hrule).mono ?_
    fun _ he => he
  rintro b last ⟨hlast, hrules, hboth⟩
  refine ⟨hlast, hrules, ?_⟩
  intro look hlook
  obtain ⟨hfits, hb⟩ := hboth look hlook
  exact hb (hresult look hfits)

/-- A step that needs no reference and obeys no rule, then another one. -/
theorem Yields.bind_free (h : x.Yields d [] True R)
    (hf : ∀ a mid, mid.Ready → mid.names = d.names →
      (f a).Yields mid refs rule fun look b => R look a → S look b) :
    (x >>= f).Yields d refs rule S :=
  (h.bind hd hf).congr (List.nil_append refs) (by rw [true_and])

theorem yields_resolve_bind {f : TypeId → Build β} (r : Reference)
    (hf : ∀ id mid, mid.Ready → mid.names = d.names → mid.Places r id →
      (f id).Yields mid refs rule fun look b => look r = id → S look b) :
    (resolve r.scope r.text >>= f).Yields d (r :: refs) rule S := by
  refine Ends.bind ((ends_resolve_places hd r).mono (fun _ _ h => h) fun e he =>
    he.faults List.mem_cons_self) ?_
  rintro id mid ⟨hmid, hplaces⟩
  have hnames := (hd.sound.reaches hmid.reaches).2.names_eq
  refine (Yields.after hd (hf id mid (hd.reaches hmid.reaches) hnames hplaces) hmid trivial).mono
    ?_ fun _ he => he.mono (List.Subset.refl _) fun h => ⟨trivial, h⟩
  rintro b last ⟨hlast, hrules, hboth⟩
  refine ⟨hlast, hrules.2, ?_⟩
  intro look hlook
  obtain ⟨hfits, hb⟩ := hboth look hlook
  exact hb (hfits r id hplaces)

end Ready

end Build

/-- Names that differ from each other and from those seen before. -/
def Distinct (seen names : List String) : Prop := names.Nodup ∧ ∀ name ∈ names, name ∉ seen

theorem distinct_cons {seen names : List String} {name : String} :
    Distinct seen (name :: names) ↔ name ∉ seen ∧ Distinct (name :: seen) names := by
  unfold Distinct
  rw [List.nodup_cons, List.forall_mem_cons]
  constructor
  · rintro ⟨⟨hname, hnodup⟩, hseen, hothers⟩
    refine ⟨hseen, hnodup, fun other hother => ?_⟩
    rw [List.mem_cons, not_or]
    exact ⟨fun hsame => hname (hsame ▸ hother), hothers other hother⟩
  · rintro ⟨hseen, hnodup, hothers⟩
    refine ⟨⟨fun hname => hothers name hname List.mem_cons_self, hnodup⟩, hseen, ?_⟩
    exact fun other hother hmem => hothers other hother (List.mem_cons_of_mem name hmem)

theorem distinct_nil {names : List String} : Distinct [] names ↔ names.Nodup := by
  simp [Distinct]

variable {look : Reference → TypeId}

def Member.placed (look : Reference → TypeId) (scope : QualifiedName) (m : Document.Member) :
    Member := ⟨m.name, look ⟨scope, m.type⟩⟩

def Enumerator.declared (e : Document.Enumerator) : Enumerator := ⟨e.name, e.value.toInt32⟩

def TypeDef.placed? (look : Reference → TypeId) (x : Declaration) : Option TypeDef :=
  match x.body with
  | .record members =>
    some (.record ⟨x.name, .plain, members.map (Member.placed look x.name.scope)⟩)
  | .exception members =>
    some (.record ⟨x.name, .exception, members.map (Member.placed look x.name.scope)⟩)
  | .sequence element => some (.sequence ⟨x.name, look ⟨x.name.scope, element⟩⟩)
  | .map key value =>
    some (.map ⟨x.name, look ⟨x.name.scope, key⟩, look ⟨x.name.scope, value⟩⟩)
  | .enumeration enumerators =>
    some (.enumeration ⟨x.name, enumerators.map Enumerator.declared⟩)
  | .alias _ | .forward => none

/-- The rules for a declaration: members have different names, and enumerators are as they have to
be. -/
def IsProper (x : Declaration) : Prop :=
  match x.body with
  | .record members | .exception members => (members.map (·.name)).Nodup
  | .enumeration enumerators => ∃ e, checkEnum x.name enumerators = .ok e
  | _ => True

theorem yields_resolveMembers (hd : d.Ready) (owner : QualifiedName) (seen : List String)
    (decls : List Document.Member) :
    (resolveMembers owner seen decls).Yields d (decls.map fun m => ⟨owner.scope, m.type⟩)
      (Distinct seen (decls.map (·.name)))
      fun look members => members = decls.map (Member.placed look owner.scope) := by
  induction decls generalizing seen d with
  | nil => exact (Build.yields_pure fun _ => rfl).congr rfl (by simp [Distinct])
  | cons m decls ih =>
    rw [resolveMembers, List.map_cons, List.map_cons, distinct_cons]
    refine Build.yields_check id fun _ => ?_
    refine Build.yields_resolve_bind hd ⟨owner.scope, m.type⟩ fun type mid hmid _ _ => ?_
    refine (ih hmid (m.name :: seen)).bind_pure ?_
    rintro look members rfl rfl
    rfl

theorem checkEnumerators_cases (owner : QualifiedName) (names : List String) (values : List Int32)
    (decls : List Document.Enumerator) :
    checkEnumerators owner names values decls = .ok (decls.map Enumerator.declared) ∨
      ∃ e, checkEnumerators owner names values decls = .error e ∧ ¬ e.IsReferenceFault := by
  induction decls generalizing names values with
  | nil => exact .inl rfl
  | cons decl decls ih =>
    rw [checkEnumerators]
    by_cases hname : decl.name ∈ names
    · rw [if_pos hname]
      exact .inr ⟨_, rfl, id⟩
    rw [if_neg hname]
    dsimp only
    cases hvalue : ordinal? decl.value with
    | none => exact .inr ⟨_, rfl, id⟩
    | some v =>
      obtain rfl : decl.value.toInt32 = v := by
        unfold ordinal? at hvalue
        split at hvalue
        · exact Option.some.inj hvalue
        · cases hvalue
      dsimp only
      by_cases hrepeated : decl.value.toInt32 ∈ values
      · rw [if_pos hrepeated]
        exact .inr ⟨_, rfl, id⟩
      rw [if_neg hrepeated]
      rcases ih (decl.name :: names) (decl.value.toInt32 :: values) with hok | ⟨e, he, hfault⟩
      · rw [hok]
        exact .inl rfl
      · rw [he]
        exact .inr ⟨e, rfl, hfault⟩

theorem checkEnum_cases (owner : QualifiedName) (decls : List Document.Enumerator) :
    checkEnum owner decls = .ok ⟨owner, decls.map Enumerator.declared⟩ ∨
      ∃ e, checkEnum owner decls = .error e ∧ ¬ e.IsReferenceFault := by
  unfold checkEnum
  by_cases hempty : decls.isEmpty
  · rw [if_pos hempty]
    exact .inr ⟨_, rfl, id⟩
  rw [if_neg hempty]
  rcases checkEnumerators_cases owner [] [] decls with hok | ⟨e, he, hfault⟩
  · rw [hok]
    exact .inl rfl
  · rw [he]
    exact .inr ⟨e, rfl, hfault⟩

def Pending.declaration (p : Pending) : Declaration := ⟨p.name, p.body⟩

theorem yields_definition? (hd : d.Ready) (p : Pending) :
    (definition? p).Yields d p.declaration.references (IsProper p.declaration)
      fun look found => found = TypeDef.placed? look p.declaration := by
  obtain ⟨id, name, body⟩ := p
  unfold definition?
  cases body <;> dsimp only
  case record decls | exception decls =>
    refine ((yields_resolveMembers hd name [] decls).congr rfl distinct_nil).bind_pure ?_
    rintro look members rfl
    rfl
  case sequence reference =>
    refine Build.yields_resolve_bind hd ⟨name.scope, reference⟩ fun element last _ _ _ => ?_
    refine Build.yields_pure ?_
    rintro look rfl
    rfl
  case map keyReference valueReference =>
    refine Build.yields_resolve_bind hd ⟨name.scope, keyReference⟩ fun key mid hmid _ _ => ?_
    refine Build.yields_resolve_bind hmid ⟨name.scope, valueReference⟩ fun value last _ _ _ => ?_
    refine Build.yields_pure ?_
    rintro look rfl rfl
    rfl
  case enumeration enumerators =>
    refine Build.Yields.bind_pure
      (R := fun _ e => e = ⟨name, enumerators.map Enumerator.declared⟩)
      (Build.yields_lift (fun e he _ => ?_) fun e he => ?_) ?_
    · rcases checkEnum_cases name enumerators with hok | ⟨_, herror, -⟩
      · exact Except.ok.inj (he.symm.trans hok)
      · cases he.symm.trans herror
    · rcases checkEnum_cases name enumerators with hok | ⟨_, herror, hfault⟩
      · cases he.symm.trans hok
      · rwa [Except.error.inj (he.symm.trans herror)]
    · rintro look e rfl
      rfl
  all_goals exact Build.yields_pure fun _ => rfl

/-- Places that are waited for get the definitions that wait, and the others stay as they are. An
alias that waits gives none. -/
structure Draft.Fills (look : Reference → TypeId) (waiting : List Pending) (d d' : Draft) :
    Prop where
  kept : ∀ {i : Nat} {type : TypeDef}, (∀ p ∈ waiting, p.id.index ≠ i) →
    d.types[i]? = some type → d'.types[i]? = some type
  filled : ∀ p ∈ waiting, ∀ {type : TypeDef}, d.types[p.id.index]? = some type →
    d'.types[p.id.index]? = some ((TypeDef.placed? look p.declaration).getD type)

theorem Draft.Fills.cons {p : Pending} {waiting : List Pending} (h : d.Fills look [p] d')
    (h' : d'.Fills look waiting d'') (hnew : ∀ q ∈ waiting, q.id ≠ p.id) :
    d.Fills look (p :: waiting) d'' where
  kept hothers htype := by
    apply h'.kept fun q hq => hothers q (List.mem_cons_of_mem p hq)
    apply h.kept _ htype
    intro q hq
    obtain rfl := List.mem_singleton.mp hq
    exact hothers q List.mem_cons_self
  filled q hq type htype := by
    rcases List.mem_cons.mp hq with rfl | hq
    · apply h'.kept _ (h.filled q List.mem_cons_self htype)
      exact fun other hother hsame => hnew other hother (congrArg TypeId.mk hsame)
    · apply h'.filled q hq
      apply h.kept _ htype
      intro other hother hsame
      rw [List.mem_singleton.mp hother] at hsame
      exact hnew q hq (congrArg TypeId.mk hsame.symm)

theorem ends_definePending_fills (hd : d.Ready) {p : Pending}
    (hplace : d.names.lookup p.name.text = some (.type p.id)) :
    (definePending p).Ends d
      (fun _ d' => d.Advances d' p.declaration.references ∧ IsProper p.declaration ∧
        ∀ look, d'.Fits look → d.Fills look [p] d')
      (Faults d.names p.declaration.references (IsProper p.declaration)) := by
  unfold definePending
  refine Build.Ends.bind (Build.Ends.with_run (yields_definition? hd p)) ?_
  rintro found mid ⟨⟨hmid, hproper, hfound⟩, hrun⟩
  have hgrows := (ends_definition? p d).of_ok hrun
  have hmidReady := hd.reaches hmid.reaches
  obtain ⟨hleads, hname⟩ := leads_definition? hd.sound hrun
  cases found with
  | none =>
    refine Build.ends_pure ⟨hmid, hproper, fun look hlook => ⟨fun _ => hgrows.type_eq, ?_⟩⟩
    intro q hq type htype
    obtain rfl := List.mem_singleton.mp hq
    rw [← hfound look hlook]
    exact hgrows.type_eq htype
  | some type =>
    rw [← hgrows.names_eq] at hplace
    have hlast := Draft.advances_withType hplace (hname type rfl) hleads.inTable
    show d.Advances (mid.withType p.id type) _ ∧ _
    refine ⟨?_, hproper, fun look hlook => ?_⟩
    · have hboth := hmid.trans hd.sound hlast
      rwa [List.append_nil] at hboth
    · have hplaced := hfound look (hlast.fits hmidReady.sound hlook)
      refine ⟨?_, ?_⟩
      · intro i other hothers hother
        have hne := hothers p List.mem_cons_self
        exact (Array.getElem?_setIfInBounds_ne hne).trans (hgrows.type_eq hother)
      · intro q hq other hother
        obtain rfl := List.mem_singleton.mp hq
        rw [← hplaced, Option.getD_some]
        exact Array.getElem?_setIfInBounds_self_of_lt
          (Draft.inTable_of_getElem? (hgrows.type_eq hother))

theorem ends_definePendings_fills (hd : d.Ready) {waiting : List Pending}
    (hplaces : ∀ p ∈ waiting, d.names.lookup p.name.text = some (.type p.id))
    (hnodup : (waiting.map (·.id)).Nodup) :
    (waiting.forM definePending).Ends d
      (fun _ d' => d.Advances d' (waiting.flatMap (·.declaration.references)) ∧
        (∀ p ∈ waiting, IsProper p.declaration) ∧ ∀ look, d'.Fits look → d.Fills look waiting d')
      (Faults d.names (waiting.flatMap (·.declaration.references))
        (∀ p ∈ waiting, IsProper p.declaration)) := by
  induction waiting generalizing d with
  | nil =>
    refine Build.ends_pure ⟨.refl d, by simp, fun look _ => ⟨fun _ htype => htype, by simp⟩⟩
  | cons p waiting ih =>
    rw [List.map_cons, List.nodup_cons] at hnodup
    rw [List.forall_mem_cons] at hplaces
    rw [List.flatMap_cons, List.forall_mem_cons]
    refine Build.Ends.bind ((ends_definePending_fills hd hplaces.1).mono (fun _ _ h => h)
      fun e he => he.mono (List.subset_append_left _ _) (·.1)) ?_
    rintro _ mid ⟨hmid, hproper, hfills⟩
    obtain ⟨hsound, hext⟩ := hd.sound.reaches hmid.reaches
    refine (ih (hd.reaches hmid.reaches) ?_ hnodup.2).mono ?_ ?_
    · rw [hext.names_eq]
      exact hplaces.2
    · rintro _ last ⟨hlast, hpropers, hrest⟩
      refine ⟨hmid.trans hd.sound hlast, ⟨hproper, hpropers⟩, fun look hlook => ?_⟩
      apply (hfills look (hlast.fits hsound hlook)).cons (hrest look hlook)
      exact fun q hq hsame => hnodup.1 (List.mem_map.mpr ⟨q, hq, hsame⟩)
    · intro e he
      rw [hext.names_eq] at he
      exact he.mono (List.subset_append_right _ _) (·.2)

/-- Defining gives every place that is waited for its definition. -/
theorem ends_defineAll_fills (hd : d.Ready) (htidy : d.Tidy) :
    defineAll.Ends d
      (fun _ d' => d.Advances d' (d.pending.flatMap (·.declaration.references)) ∧
        (∀ p ∈ d.pending, IsProper p.declaration) ∧
        ∀ look, d'.Fits look → d.Fills look d.pending d')
      (Faults d.names (d.pending.flatMap (·.declaration.references))
        (∀ p ∈ d.pending, IsProper p.declaration)) := by
  unfold defineAll
  apply Build.ends_get_bind
  refine Build.Ends.bind (Build.ends_modify (Q := fun _ d' => d' = { d with pending := [] }) rfl) ?_
  rintro _ _ rfl
  have hstep : d.Reaches { d with pending := [] } := Relation.ReflTransGen.single (.settle d)
  refine (ends_definePendings_fills (d := { d with pending := [] }) (hd.reaches hstep)
    hd.sound.awaited htidy.nodup).mono ?_ fun _ he => he
  rintro _ last ⟨hlast, hproper, hfills⟩
  refine ⟨⟨Relation.ReflTransGen.trans hstep hlast.reaches, hlast.placed, hlast.used⟩, hproper, ?_⟩
  exact fun look hlook => ⟨(hfills look hlook).kept, (hfills look hlook).filled⟩

end Schema
end WireSchema
