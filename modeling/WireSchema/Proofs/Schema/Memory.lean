import WireSchema.Proofs.Schema.Passes

/-!
# Resolving with a memory

Resolving remembers what aliases were found to denote. Only aliases whose chain ends are remembered,
and a chain that ends never comes back to an alias on it, so the answers are those of the meaning of
references, in which nothing is remembered.
-/
namespace WireSchema.Schema

section Chains

variable (names : List (String × Declared))

/-- The chain of aliases from a reference has the given length and ends at a type. -/
inductive Chain : Nat → QualifiedName → String → Denotation → Prop
  | primitive {scope : QualifiedName} {reference : String} {type : TypeDef}
    (hprimitive : TypeDef.primitive? reference = some type) :
    Chain 0 scope reference (.primitive type)
  | type {scope : QualifiedName} {reference name : String} {id : TypeId}
    (hprimitive : TypeDef.primitive? reference = none)
    (hmeans : Means names scope reference name (.type id)) : Chain 0 scope reference (.declared id)
  | follow {n : Nat} {scope home : QualifiedName} {reference name target : String}
    {den : Denotation} (hprimitive : TypeDef.primitive? reference = none)
    (hmeans : Means names scope reference name (.alias target home))
    (hnext : Chain n home target den) : Chain (n + 1) scope reference den

/-- The chain from a reference is shorter than those from the aliases that are being followed. -/
def Ahead (following : List String) (scope : QualifiedName) (reference : String) : Prop :=
  ∀ f ∈ following, ∀ {target : String} {home : QualifiedName} {m n : Nat} {den den' : Denotation},
    names.lookup f = some (.alias target home) → Chain names m home target den →
    Chain names n scope reference den' → n ≤ m

end Chains

variable {names : List (String × Declared)} {scope home : QualifiedName}
  {reference name target : String} {following : List String} {den : Denotation} {n : Nat}

theorem Means.alias_unique {name' target' : String} {home' : QualifiedName}
    (h : Means names scope reference name (.alias target home))
    (h' : Means names scope reference name' (.alias target' home')) :
    name = name' ∧ target = target' ∧ home = home' := by
  have hsame := h.unique h'
  simpa only [Declared.referent?, Option.some.injEq, Referent.alias.injEq] using hsame

namespace Chain

theorem length_unique {m : Nat} {den' : Denotation} (h : Chain names m scope reference den)
    (h' : Chain names n scope reference den') : m = n := by
  induction h generalizing n with
  | primitive hprimitive => cases h' <;> simp_all
  | type hprimitive hmeans =>
    cases h' with
    | primitive => rfl
    | type => rfl
    | follow _ hmeans' => cases hmeans.unique hmeans'
  | follow hprimitive hmeans _ ih =>
    cases h' with
    | primitive hprimitive' => simp_all
    | type _ hmeans' => cases hmeans.unique hmeans'
    | follow _ hmeans' hnext' =>
      obtain ⟨rfl, rfl, rfl⟩ := hmeans.alias_unique hmeans'
      rw [ih hnext']

theorem name?_eq_none {type : TypeDef} (h : Chain names n scope reference den)
    (hden : den = .primitive type) : type.name? = none := by
  induction h with
  | primitive hprimitive =>
    obtain rfl := Denotation.primitive.inj hden
    exact TypeDef.name?_of_primitive? hprimitive
  | type => cases hden
  | follow _ _ _ ih => exact ih hden

end Chain

theorem Denotes.exists_chain {answer : Except SchemaError Denotation}
    (h : Denotes names following scope reference answer) (hanswer : answer = .ok den) :
    ∃ n, Chain names n scope reference den := by
  induction h with
  | primitive hprimitive =>
    obtain rfl := Except.ok.inj hanswer
    exact ⟨0, .primitive hprimitive⟩
  | type hprimitive hmeans =>
    obtain rfl := Except.ok.inj hanswer
    exact ⟨0, .type hprimitive hmeans⟩
  | unknown => cases hanswer
  | cycle => cases hanswer
  | follow hprimitive hmeans _ _ ih =>
    obtain ⟨n, hchain⟩ := ih hanswer
    exact ⟨n + 1, .follow hprimitive hmeans hchain⟩

/-- Following one more alias leaves a shorter chain. -/
theorem Ahead.follow (hahead : Ahead names following scope reference)
    (hprimitive : TypeDef.primitive? reference = none)
    (hmeans : Means names scope reference name (.alias target home)) :
    Ahead names (name :: following) home target := by
  intro f hf target' home' m n den den' hlookup hchain hchain'
  rcases List.mem_cons.mp hf with rfl | hf
  · rw [hmeans.lookup_eq] at hlookup
    obtain ⟨rfl, rfl⟩ := Declared.alias.inj (Option.some.inj hlookup)
    exact Nat.le_of_eq (hchain'.length_unique hchain)
  · have hle := hahead f hf hlookup hchain (.follow hprimitive hmeans hchain')
    omega

/-- A chain that ends does not come back to an alias that is being followed. -/
theorem Chain.denotes (h : Chain names n scope reference den)
    (hahead : Ahead names following scope reference) :
    Denotes names following scope reference (.ok den) := by
  induction h generalizing following with
  | primitive hprimitive => exact .primitive hprimitive
  | type hprimitive hmeans => exact .type hprimitive hmeans
  | follow hprimitive hmeans hnext ih =>
    refine .follow hprimitive hmeans ?_ (ih (hahead.follow hprimitive hmeans))
    -- An alias on the way back would have to be ahead of itself.
    intro hback
    have hle := hahead _ hback hmeans.lookup_eq hnext (.follow hprimitive hmeans hnext)
    omega

namespace Draft

variable {d d' : Draft} {id : TypeId}

/-- A place of a draft holds what a reference denotes. -/
def Holds (d : Draft) (id : TypeId) : Denotation → Prop
  | .primitive type => d.types[id.index]? = some type
  | .declared place => id = place

/-- Every remembered alias begins a chain that ends at the remembered place. -/
def Remembers (d : Draft) : Prop :=
  ∀ (name : String) (id : TypeId), d.aliases.lookup name = some id →
    ∃ target home n den, d.names.lookup name = some (.alias target home) ∧
      Chain d.names n home target den ∧ d.Holds id den

theorem Remembers.mono (h : d.Remembers) (hext : d.Extends d')
    (haliases : d'.aliases = d.aliases) : d'.Remembers := by
  intro name id hknown
  rw [haliases] at hknown
  obtain ⟨target, home, n, den, hname, hchain, hholds⟩ := h _ _ hknown
  rw [hext.names_eq]
  refine ⟨target, home, n, den, hname, hchain, ?_⟩
  cases den with
  | declared place => exact hholds
  | primitive type => exact hext.primitive hholds (hchain.name?_eq_none rfl)

theorem Remembers.remember (h : d.Remembers)
    (hname : d.names.lookup name = some (.alias target home))
    (hchain : Chain d.names n home target den) (hholds : d.Holds id den) :
    (d.remember name id).Remembers := by
  have hkept : ∀ {place : TypeId} {den : Denotation}, d.Holds place den →
      (d.remember name id).Holds place den := by
    intro place den hplace
    cases den <;> exact hplace
  intro other place hknown
  obtain ⟨rfl, rfl⟩ | hknown := lookup_cons_eq_some hknown
  · exact ⟨target, home, n, den, hname, hchain, hkept hholds⟩
  · obtain ⟨target, home, n, den, hname, hchain, hholds⟩ := h _ _ hknown
    exact ⟨target, home, n, den, hname, hchain, hkept hholds⟩

end Draft

/-- What resolving comes to is the answer: the same error, or a place that holds what the reference
denotes. -/
def Answers : Except SchemaError (TypeId × Draft) → Except SchemaError Denotation → Prop
  | .error e, .error e' => e = e'
  | .ok (id, d), .ok den => d.Holds id den
  | _, _ => False

namespace Draft

variable {d d' : Draft}

/-- Resolving with a memory gives the answer, and what is remembered then is right again. -/
theorem Resolves.answers {result : Except SchemaError (TypeId × Draft)}
    (h : d.Resolves following scope reference result) (hd : d.Sound) (hmemory : d.Remembers)
    (hahead : Ahead d.names following scope reference) :
    ∃ answer, Denotes d.names following scope reference answer ∧ Answers result answer ∧
      ∀ id d', result = .ok (id, d') → d'.Remembers := by
  induction h with
  | @primitive following scope reference type hprimitive =>
    refine ⟨_, .primitive hprimitive, ?_⟩
    cases hintern : intern type d with
    | error e =>
      rw [intern_eq] at hintern
      cases hintern
    | ok p =>
      obtain ⟨-, hext, hplace, haliases⟩ :=
        hd.intern (TypeDef.name?_of_primitive? hprimitive) hintern
      refine ⟨hplace, ?_⟩
      intro id d' hresult
      obtain rfl := Except.ok.inj hresult
      exact hmemory.mono hext haliases
  | unknown hprimitive hreferent =>
    exact ⟨_, .unknown hprimitive (refersTo?_eq_none_iff.mp hreferent), rfl, nofun⟩
  | type hprimitive hreferent =>
    obtain ⟨name, hmeans⟩ := refersTo?_eq_type_iff.mp hreferent
    refine ⟨_, .type hprimitive hmeans, rfl, ?_⟩
    intro id d' hresult
    obtain ⟨-, rfl⟩ := Prod.mk.inj (Except.ok.inj hresult)
    exact hmemory
  | remembered hprimitive hreferent hknown =>
    have hmeans := refersTo?_eq_alias_iff.mp hreferent
    obtain ⟨target, home, n, den, hname, hchain, hholds⟩ := hmemory _ _ hknown
    rw [hmeans.lookup_eq] at hname
    obtain ⟨rfl, rfl⟩ := Declared.alias.inj (Option.some.inj hname)
    -- The remembered chain ends, so it cannot pass an alias that is still being followed.
    refine ⟨_, (Chain.follow hprimitive hmeans hchain).denotes hahead, hholds, ?_⟩
    intro id d' hresult
    obtain ⟨-, rfl⟩ := Prod.mk.inj (Except.ok.inj hresult)
    exact hmemory
  | cycle hprimitive hreferent _ hback =>
    exact ⟨_, .cycle hprimitive (refersTo?_eq_alias_iff.mp hreferent) hback, rfl, nofun⟩
  | @follow _ _ _ _ name _ result hprimitive hreferent _ hnew hnext ih =>
    have hmeans := refersTo?_eq_alias_iff.mp hreferent
    obtain ⟨answer, hdenotes, hanswer, hkept⟩ := ih (hahead.follow hprimitive hmeans)
    refine ⟨answer, .follow hprimitive hmeans hnew hdenotes, ?_⟩
    cases result with
    | error e =>
      refine ⟨?_, nofun⟩
      cases answer with
      | error e' => exact hanswer
      | ok den => cases hanswer
    | ok p =>
      cases answer with
      | error e => cases hanswer
      | ok den =>
        obtain ⟨-, hext, -⟩ := hd.resolves hnext rfl
        obtain ⟨n, hchain⟩ := hdenotes.exists_chain rfl
        have hname := hmeans.lookup_eq
        rw [← hext.names_eq] at hchain hname
        refine ⟨by cases den <;> exact hanswer, ?_⟩
        intro id d' hresult
        obtain ⟨rfl, rfl⟩ := Prod.mk.inj (Except.ok.inj hresult)
        exact (hkept p.1 p.2 rfl).remember hname hchain hanswer

theorem ahead_nil (names : List (String × Declared)) (scope : QualifiedName) (reference : String) :
    Ahead names [] scope reference := by
  intro f hf
  cases hf

theorem Remembers.step (hmemory : d.Remembers) (hd : d.Sound) (h : Step d d') : d'.Remembers := by
  have hext := (hd.step h).2
  cases h with
  | @resolve _ scope reference id h =>
    obtain ⟨-, -, -, hkept⟩ :=
      (d.resolves_resolve scope reference).answers hd hmemory (ahead_nil _ scope reference)
    exact hkept id d' h
  | define => exact hmemory.mono hext rfl
  | settle => exact hmemory.mono hext rfl
  | number => exact hmemory.mono hext rfl

theorem Remembers.reaches (hmemory : d.Remembers) (hd : d.Sound) (h : d.Reaches d') :
    d'.Remembers := by
  induction h with
  | refl => exact hmemory
  | tail hmid hstep ih => exact ih.step (hd.reaches hmid).1 hstep

/-- Once the names are declared, a reference is always answered by what it denotes. -/
theorem Declaring.resolve_answers {P : QualifiedName → Prop} {interfaces : List String}
    (hdeclaring : Declaring P interfaces d) (h : d.Reaches d')
    {answer : Except SchemaError Denotation} (hanswer : Denotes d.names [] scope reference answer) :
    Answers (resolve scope reference d') answer := by
  have hnothing : d.Remembers := by
    intro name id hknown
    rw [hdeclaring.aliases_eq] at hknown
    cases hknown
  obtain ⟨hd', hext⟩ := hdeclaring.sound.reaches h
  have hmemory := hnothing.reaches hdeclaring.sound h
  obtain ⟨answer', hanswer', hresult, -⟩ :=
    (d'.resolves_resolve scope reference).answers hd' hmemory (ahead_nil _ scope reference)
  rw [hext.names_eq] at hanswer'
  rwa [hanswer.unique hanswer']

/-- Running `x` in a draft that is reached from `d` ends in such a draft. -/
def Stays (d : Draft) {α : Type} (x : Build α) : Prop :=
  ∀ {now : Draft} {a : α} {next : Draft}, d.Reaches now → x now = .ok (a, next) → d.Reaches next

/-- Defining and assembling go through drafts that are reached from `d`: all their parts stay among
these drafts. -/
structure CoversPasses (d : Draft) : Prop where
  resolve : ∀ scope reference, d.Stays (resolve scope reference)
  members : ∀ owner seen decls, d.Stays (resolveMembers owner seen decls)
  pending : ∀ p ∈ d.pending, d.Stays (definePending p)
  define : d.Stays defineAll
  constants : ∀ scope seen decls, d.Stays (assembleConstants scope seen decls)
  params : ∀ interface operation returns seen decls,
    d.Stays (assembleParams interface operation returns seen decls)
  operation : ∀ interface decl, d.Stays (assembleOperation interface decl)
  interface : ∀ scope decl, d.Stays (assembleInterface scope decl)
  modules : ∀ scope decls, d.Stays (assembleModules scope decls)

theorem Sound.stays (hd : d.Sound) {α : Type} {x : Build α}
    (h : ∀ {now a next}, now.Sound → x now = .ok (a, next) → now.Reaches next) : d.Stays x := by
  intro now a next hnow hnext
  obtain ⟨hsound, -⟩ := hd.reaches hnow
  exact Relation.ReflTransGen.trans hnow (h hsound hnext)

theorem Sound.coversPasses (hd : d.Sound) : d.CoversPasses where
  resolve _ _ := hd.stays fun hnow h => (leads_resolve hnow h).reaches
  members _ _ _ := hd.stays fun hnow h => (leads_resolveMembers hnow h).reaches
  pending _ hp := fun hnow h => reaches_waiting hd hp hnow h
  define := hd.stays reaches_defineAll
  constants _ _ _ := hd.stays fun hnow h => (leads_assembleConstants hnow h).reaches
  params _ _ _ _ _ := hd.stays fun hnow h => (leads_assembleParams hnow h).reaches
  operation _ _ := hd.stays fun hnow h => (leads_assembleOperation hnow h).reaches
  interface _ _ := hd.stays fun hnow h => (leads_assembleInterface hnow h).1.reaches
  modules _ _ := hd.stays fun hnow h => (leads_assembleModules hnow h).1.reaches

end Draft

/-- Resolving ends for every table of names, as its course shows and as more steps make no
difference. Once the names of a document are declared, every reference has one answer, and it is
given in every draft that defining and assembling go through, whatever was resolved before. -/
theorem resolve_answers_denotation :
    (∀ (d : Draft) (scope : QualifiedName) (reference : String),
      d.Resolves [] scope reference (resolve scope reference d) ∧
      ∀ steps, d.names.length < steps →
        resolveWithin steps [] scope reference d = resolve scope reference d) ∧
    ∀ (doc : Document) (declared : Draft),
      declareModules .root doc.modules {} = .ok ((), declared) →
      declared.CoversPasses ∧
      ∀ (scope : QualifiedName) (reference : String), ∃ answer,
        (∀ other, Denotes declared.names [] scope reference other ↔ other = answer) ∧
        ∀ d, declared.Reaches d → Answers (resolve scope reference d) answer := by
  constructor
  · intro d scope reference
    refine ⟨d.resolves_resolve scope reference, ?_⟩
    intro steps hsteps
    exact d.resolveWithin_eq_resolve scope reference hsteps
  · intro doc declared hdeclare
    have hdeclaring := declaring_declareModules .empty hdeclare
    refine ⟨hdeclaring.sound.coversPasses, ?_⟩
    intro scope reference
    obtain ⟨answer, hanswer⟩ := exists_denotes declared.names scope reference
    refine ⟨answer, ?_, fun d hreached => hdeclaring.resolve_answers hreached hanswer⟩
    intro other
    constructor
    · intro hother
      exact hother.unique hanswer
    · rintro rfl
      exact hanswer

/-- Names that hide each other, and two aliases of each other. -/
def nested : Document where
  modules := [{
    name := "a"
    modules := [{
      name := "b"
      modules := []
      types := [⟨"Text", .sequence "byte"⟩]
      interfaces := [⟨"Name", 1, [], [], []⟩]
      constants := [] }]
    types := [⟨"Name", .alias "Text"⟩, ⟨"Text", .alias "string"⟩, ⟨"Ping", .alias "Pong"⟩,
      ⟨"Pong", .alias "::a::Ping"⟩]
    interfaces := []
    constants := [] }]

def nestedNames : List (String × Declared) :=
  [("a::b::Name", .interface), ("a::b::Text", .type ⟨0⟩), ("a::Pong", .alias "::a::Ping" ⟨["a"]⟩),
    ("a::Ping", .alias "Pong" ⟨["a"]⟩), ("a::Text", .alias "string" ⟨["a"]⟩),
    ("a::Name", .alias "Text" ⟨["a"]⟩)]

theorem resolve_answers_denotation_nested :
    ∃ declared, declareModules .root nested.modules {} = .ok ((), declared) ∧
      ∀ d, declared.Reaches d →
        Answers (resolve ⟨["a", "b"]⟩ "Name" d) (.ok (.primitive (.text false))) ∧
        Answers (resolve ⟨["a", "b"]⟩ "Ping" d) (.error (.aliasCycle "a::Ping")) := by
  have hnames : ((declareModules .root nested.modules {}).toOption.map (·.2.names)) =
      some nestedNames := by decide +kernel
  have hmeans : ∀ {scope home reference name target},
      Draft.refersTo? { names := nestedNames } scope reference = some (.alias name target home) →
      Means nestedNames scope reference name (.alias target home) :=
    Draft.refersTo?_eq_alias_iff.mp
  have hname : Means nestedNames ⟨["a", "b"]⟩ "Name" "a::Name" (.alias "Text" ⟨["a"]⟩) :=
    hmeans (by decide +kernel)
  have htext : Means nestedNames ⟨["a"]⟩ "Text" "a::Text" (.alias "string" ⟨["a"]⟩) :=
    hmeans (by decide +kernel)
  have hping : Means nestedNames ⟨["a", "b"]⟩ "Ping" "a::Ping" (.alias "Pong" ⟨["a"]⟩) :=
    hmeans (by decide +kernel)
  have hpong : Means nestedNames ⟨["a"]⟩ "Pong" "a::Pong" (.alias "::a::Ping" ⟨["a"]⟩) :=
    hmeans (by decide +kernel)
  have hback : Means nestedNames ⟨["a"]⟩ "::a::Ping" "a::Ping" (.alias "Pong" ⟨["a"]⟩) :=
    hmeans (by decide +kernel)
  have hstring : Denotes nestedNames [] ⟨["a", "b"]⟩ "Name" (.ok (.primitive (.text false))) :=
    .follow (by decide) hname (by decide)
      (.follow (by decide) htext (by decide) (.primitive (by decide)))
  have hcycle : Denotes nestedNames [] ⟨["a", "b"]⟩ "Ping" (.error (.aliasCycle "a::Ping")) :=
    .follow (by decide) hping (by decide)
      (.follow (by decide) hpong (by decide) (.cycle (by decide) hback (by decide)))
  cases h : declareModules .root nested.modules {} with
  | error e =>
    rw [h] at hnames
    cases hnames
  | ok p =>
    rw [h] at hnames
    obtain ⟨-, hall⟩ := resolve_answers_denotation.2 nested p.2 h
    rw [← Option.some.inj hnames] at hstring hcycle
    obtain ⟨_, honly, hanswers⟩ := hall ⟨["a", "b"]⟩ "Name"
    obtain rfl := (honly _).mp hstring
    obtain ⟨_, honly', hanswers'⟩ := hall ⟨["a", "b"]⟩ "Ping"
    obtain rfl := (honly' _).mp hcycle
    exact ⟨p.2, rfl, fun d hreached => ⟨hanswers d hreached, hanswers' d hreached⟩⟩

end WireSchema.Schema
