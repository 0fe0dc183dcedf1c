import WireSchema.Proofs.Source.Collisions

/-!
# What a command does to the files

A run of the command reads its settings and its document, and emits all files before it writes the
first. So whatever is wrong with the command line, the settings, the document or what it describes,
the tree stays as it was, and so it does if the document is only checked. Otherwise nothing changes
but the places of the emitted files below the output directory. Directories are created on the way
there, and of files with one path the last one stays.
-/
namespace WireSchema.Command

open Files Source

theorem eq_of_ofText?_check {text : String}
    (h : Argument.ofText? text = some (.option (.switch .check) none)) : text = "--check" := by
  have hlong : ∀ p ∈ longNames, p.2 = .switch .check → p.1 = "check" := by decide
  have hshort : ∀ p ∈ shortNames, p.2 ≠ .switch .check := by decide
  unfold Argument.ofText? at h
  split at h
  · cases h
  · rename_i cs _ hcs
    obtain ⟨name, hname, hvalue⟩ := Option.bind_eq_some_iff.mp h
    obtain ⟨rfl, hnone⟩ : name = .switch .check ∧
        (cs.dropWhile (· ≠ '=')).tail?.map String.ofList = none := by simpa using hvalue
    -- Without a value the whole argument is the name.
    have hdrop : cs.dropWhile (· ≠ '=') = [] := by
      generalize cs.dropWhile (· ≠ '=') = rest at hnone
      cases rest with
      | nil => rfl
      | cons c rest => cases hnone
    have hcheck : String.ofList (cs.takeWhile (· ≠ '=')) = "check" :=
      hlong _ (Schema.mem_of_lookup hname) rfl
    have htake : cs.takeWhile (· ≠ '=') = cs := by
      have hsplit := List.takeWhile_append_dropWhile (p := (· ≠ '=')) (l := cs)
      rwa [hdrop, List.append_nil] at hsplit
    rw [htake] at hcheck
    rw [← String.ofList_toList (s := text), hcs, ← String.toList_ofList (l := cs), hcheck]
    rfl
  · obtain ⟨name, hname, hvalue⟩ := Option.bind_eq_some_iff.mp h
    obtain ⟨rfl, -⟩ : name = .switch .check ∧ _ := by simpa using hvalue
    exact absurd rfl (hshort _ (Schema.mem_of_lookup hname))
  · cases h

theorem ofText?_check :
    Argument.ofText? "--check" = some (.option (.switch .check) none) := by decide

namespace Draft

variable {d d' : Draft} {o : Options}

theorem check_of_set? {value : String} {p : Parameter} (h : d.set? value p = some d') :
    d'.check = d.check := by
  cases p <;>
    · obtain ⟨_, -, hset⟩ := Option.bind_eq_some_iff.mp h
      rw [← Option.some.inj hset]

theorem action_of_finish (h : d.finish = .run o) : o.action = .check ↔ d.check = true := by
  unfold finish at h
  cases hinput : d.input? with
  | none =>
    rw [hinput] at h
    cases h
  | some input =>
    by_cases hcheck : d.check = true
    · rw [hinput, if_pos hcheck] at h
      rw [← Request.run.inj h]
      simp [hcheck]
    · cases houtput : d.output? with
      | none =>
        rw [hinput, if_neg hcheck, houtput] at h
        cases h
      | some directory =>
        rw [hinput, if_neg hcheck, houtput] at h
        rw [← Request.run.inj h]
        simp [hcheck]

theorem action_of_readArguments {arguments : List String} (h : readArguments d arguments = .run o) :
    o.action = .check ↔ d.check = true ∨ "--check" ∈ arguments := by
  have hother : ∀ {text : String} {a : Argument}, Argument.ofText? text = some a →
      a ≠ .option (.switch .check) none → "--check" ≠ text := by
    rintro text a ha hne rfl
    rw [ofText?_check] at ha
    exact hne (Option.some.inj ha).symm
  -- Six ways of reading go on or end in a run; on all others the command line asks for none.
  fun_induction readArguments d arguments with
  | case1 d => simpa using action_of_finish h
  | case3 d text rest htext hrest =>
    obtain rfl := List.isEmpty_iff.mp hrest
    simpa [hother htext (by simp)] using action_of_finish h
  | case9 d text rest htext _ ih =>
    rw [eq_of_ofText?_check htext]
    simpa using ih h
  | case11 d text rest htext _ ih => simpa [hother htext (by simp)] using ih h
  | case12 d text rest p value htext d' hset ih =>
    refine (ih h).trans ?_
    simp [check_of_set? hset, hother htext (by simp)]
  | case15 d text p htext value rest hvalue d' hset ih =>
    have hne : "--check" ≠ value := by
      rintro rfl
      exact absurd hvalue (by decide)
    refine (ih h).trans ?_
    simp [check_of_set? hset, hother htext (by simp), hne]
  | case2 | case4 | case5 | case6 | case7 | case8 | case10 | case13 | case14 | case16 | case17 =>
    cases h

end Draft

abbrev RunAction := FileAction Failure

namespace RunAction

variable {α β : Type}

theorem on_adapt (f : FileError → Failure) (a : FileAction FileError α) (t : FileTree) :
    FileAction.on (a.adapt f) t = ((a.on t).1.mapError f, (a.on t).2) := by
  rfl

/-- Leaves the tree as it is and gives exactly what has a property; if nothing has it, it fails. -/
structure Finds (a : RunAction α) (t : FileTree) (P : α → Prop) : Prop where
  tree_eq : (a.on t).2 = t
  ok_iff : ∀ x, (a.on t).1 = .ok x ↔ P x

variable {a : RunAction α} {t : FileTree} {P : α → Prop}

theorem Finds.on_eq_ok (h : Finds a t P) {x : α} (hx : P x) : a.on t = (.ok x, t) :=
  Prod.ext ((h.ok_iff x).mpr hx) h.tree_eq

theorem Finds.on_eq_error (h : Finds a t P) (hnone : ∀ x, ¬ P x) : ∃ e, a.on t = (.error e, t) := by
  cases hr : (a.on t).1 with
  | error e => exact ⟨e, Prod.ext hr h.tree_eq⟩
  | ok x => exact absurd ((h.ok_iff x).mp hr) (hnone x)

theorem Finds.congr {Q : α → Prop} (h : Finds a t P) (hiff : ∀ x, P x ↔ Q x) : Finds a t Q :=
  ⟨h.tree_eq, fun x => (h.ok_iff x).trans (hiff x)⟩

theorem finds_pure (x : α) (t : FileTree) : Finds (pure x) t (x = ·) :=
  ⟨rfl, fun y => iff_of_eq (Except.ok.injEq x y)⟩

theorem finds_throw (e : Failure) (t : FileTree) :
    Finds (throw e : RunAction α) t fun _ => False := by
  refine ⟨rfl, fun x => iff_of_false ?_ id⟩
  intro h
  cases h

theorem Finds.bind {f : α → RunAction β} {Q : α → β → Prop} (ha : Finds a t P)
    (hf : ∀ x, Finds (f x) t (Q x)) : Finds (a >>= f) t fun y => ∃ x, P x ∧ Q x y := by
  by_cases hsome : ∃ x, P x
  · obtain ⟨x, hx⟩ := hsome
    have hon : (a >>= f).on t = (f x).on t := by rw [FileAction.on_bind, ha.on_eq_ok hx]
    refine ⟨by rw [hon, (hf x).tree_eq], fun y => ?_⟩
    rw [hon, (hf x).ok_iff]
    constructor
    · exact fun hy => ⟨x, hx, hy⟩
    · rintro ⟨x', hx', hy⟩
      -- Only one thing is given, so only one has the property.
      have heq := ((ha.ok_iff x).mpr hx).symm.trans ((ha.ok_iff x').mpr hx')
      rwa [Except.ok.inj heq]
  · obtain ⟨e, he⟩ := ha.on_eq_error fun x hx => hsome ⟨x, hx⟩
    have hon : (a >>= f).on t = (.error e, t) := by rw [FileAction.on_bind, he]
    refine ⟨by rw [hon], fun y => iff_of_false ?_ fun hy => hsome ⟨hy.choose, hy.choose_spec.1⟩⟩
    rw [hon]
    intro h
    cases h

theorem finds_read (f : FileError → Failure) (l : Location) (t : FileTree) :
    Finds ((FileTree.store.read l).adapt f) t fun text => t.read l = .ok text := by
  have hon : FileAction.on (FileTree.store.read l) t = (t.read l, t) :=
    FileAction.on_ofExcept (t.read l) t
  refine ⟨?_, fun text => ?_⟩
  · rw [on_adapt, hon]
  · rw [on_adapt, hon]
    cases t.read l <;> simp [Except.mapError]

end RunAction

namespace Options

open RunAction

variable {o : Options} {t : FileTree}

/-- The settings that a run finds in a tree. -/
inductive HasConfig (o : Options) (t : FileTree) : Config → Prop
  | default (hlocation : o.config? = none) : HasConfig o t (o.adjust {})
  | file {location text : String} {c : Config} (hlocation : o.config? = some location)
    (hread : t.read (.ofText location) = .ok text) (hparse : Config.parse? text = some c) :
    HasConfig o t (o.adjust c)

/-- The document that a run finds in a tree. -/
def HasDocument (o : Options) (t : FileTree) (doc : Document) : Prop :=
  ∃ text, t.read (.ofText o.input) = .ok text ∧ Document.parse? text = some doc

/-- The files that a run emits on a tree: the settings and the document can be read and parsed, and
the document can be built and emitted. -/
def Generates (o : Options) (t : FileTree) (files : List SourceFile) : Prop :=
  ∃ config doc, o.HasConfig t config ∧ o.HasDocument t doc ∧ compile config doc = .ok files

theorem finds_loadConfig (o : Options) (t : FileTree) :
    Finds (o.loadConfig FileTree.store) t (o.HasConfig t) := by
  unfold loadConfig
  cases hlocation : o.config? with
  | none =>
    refine (finds_pure (o.adjust {}) t).congr fun c => ⟨?_, ?_⟩
    · rintro rfl
      exact .default hlocation
    · rintro (_ | ⟨hsome, -, -⟩)
      · rfl
      · rw [hlocation] at hsome
        cases hsome
  | some location =>
    refine ((finds_read (.configUnreadable location) (.ofText location) t).bind
      (Q := fun text c => ∃ c', Config.parse? text = some c' ∧ o.adjust c' = c)
      fun text => ?_).congr fun c => ⟨?_, ?_⟩
    · cases hparse : Config.parse? text with
      | none => exact (finds_throw _ t).congr fun c => by simp
      | some c => exact (finds_pure (o.adjust c) t).congr fun c => by simp
    · rintro ⟨text, hread, c', hparse, rfl⟩
      exact .file hlocation hread hparse
    · rintro (hnone | ⟨hsome, hread, hparse⟩)
      · rw [hlocation] at hnone
        cases hnone
      · obtain rfl := Option.some.inj (hlocation.symm.trans hsome)
        exact ⟨_, hread, _, hparse, rfl⟩

theorem finds_loadDocument (o : Options) (t : FileTree) :
    Finds (o.loadDocument FileTree.store) t (o.HasDocument t) := by
  refine (finds_read (.documentUnreadable o.input) (.ofText o.input) t).bind fun text => ?_
  cases hparse : Document.parse? text with
  | none => exact (finds_throw _ t).congr fun doc => by simp
  | some doc => exact (finds_pure doc t).congr fun doc => by simp

theorem finds_emit (o : Options) (t : FileTree) :
    Finds (o.emit FileTree.store) t (o.Generates t) := by
  refine ((finds_loadConfig o t).bind fun config => (finds_loadDocument o t).bind
    (Q := fun doc files => compile config doc = .ok files) fun doc => ?_).congr fun files => ?_
  · cases compile config doc with
    | error e => exact (finds_throw _ t).congr fun files => by simp
    | ok files => exact (finds_pure files t).congr fun files => by simp
  · simp only [Generates, exists_and_left]

theorem on_run_of_not_generates (h : ∀ files, ¬ o.Generates t files) :
    ∃ e, FileAction.on (o.run FileTree.store) t = (.error e, t) := by
  obtain ⟨e, he⟩ := (finds_emit o t).on_eq_error h
  refine ⟨e, ?_⟩
  unfold run
  rw [FileAction.on_bind, he]

theorem on_run_of_check {files : List SourceFile} (h : o.Generates t files)
    (haction : o.action = .check) : FileAction.on (o.run FileTree.store) t = (.ok (), t) := by
  unfold run
  rw [FileAction.on_bind, (finds_emit o t).on_eq_ok h, haction]
  rfl

theorem on_run_of_write {files : List SourceFile} {directory : String} (h : o.Generates t files)
    (haction : o.action = .write directory) :
    FileAction.on (o.run FileTree.store) t =
      ((FileAction.on (writeFiles FileTree.store directory files) t).1.map (fun _ => ())
          |>.mapError (.unwritable directory),
        (FileAction.on (writeFiles FileTree.store directory files) t).2) := by
  unfold run
  rw [FileAction.on_bind, (finds_emit o t).on_eq_ok h, haction]
  dsimp only
  rw [FileAction.on_bind, on_adapt]
  match FileAction.on (writeFiles FileTree.store directory files) t with
  | (.ok n, t') => rfl
  | (.error e, t') => rfl

theorem isPlain_of_generates {files : List SourceFile} (h : o.Generates t files) :
    ∀ f ∈ files, FileTree.IsPlain f.path := by
  obtain ⟨config, doc, -, -, hcompile⟩ := h
  exact isPlain_of_compile hcompile

end Options

/-- What a command line comes to on a tree, and the tree it leaves. -/
def outcome (arguments : List String) (t : FileTree) : Ending × FileTree :=
  (perform FileTree.store arguments).run t

variable {arguments : List String} {t : FileTree} {o : Options}

theorem outcome_of_run (h : Request.ofArguments arguments = .run o) :
    outcome arguments t = (.ofRun (FileAction.on (o.run FileTree.store) t).1,
      (FileAction.on (o.run FileTree.store) t).2) := by
  unfold outcome perform
  rw [h]
  rfl

theorem outcome_of_not_run (h : ∀ o, Request.ofArguments arguments ≠ .run o) :
    (outcome arguments t).2 = t := by
  unfold outcome perform
  cases hrequest : Request.ofArguments arguments with
  | run o => exact absurd hrequest (h o)
  | help | version | refused => rfl

/-- How the writing of emitted files ends. Only their places below the directory change, and
directories are created on the way there. If all could be written, each path has the text of the
last file with this path. -/
structure Writes (directory : String) (files : List SourceFile) (t : FileTree)
    (outcome : Ending × FileTree) : Prop where
  ending : outcome.1 = .done ∨ ∃ e, outcome.1 = .failed (.unwritable directory e)
  changes : t.ChangesOnly
    (fun place => ∃ f ∈ files, place = t.base (.ofText directory) ++ f.path)
    (t.OnTheWayBelow (.ofText directory) files) outcome.2
  last : outcome.1 = .done → ∀ front f back, files = front ++ f :: back →
    (∀ g ∈ back, g.path ≠ f.path) →
    outcome.2.read ((Location.ofText directory).join f.path) = .ok f.text

theorem writes_of_generates {files : List SourceFile} {directory : String}
    (h : Request.ofArguments arguments = .run o) (hgenerates : o.Generates t files)
    (haction : o.action = .write directory) :
    Writes directory files t (outcome arguments t) := by
  have hplain := Options.isPlain_of_generates hgenerates
  rw [outcome_of_run h, Options.on_run_of_write hgenerates haction, FileTree.on_writeFiles]
  have hchanges := FileTree.changesOnly_forM (.ofText directory) files t
  have hplaces : ∀ place, t.PlacedBelow (.ofText directory) files place →
      ∃ f ∈ files, place = t.base (.ofText directory) ++ f.path := by
    rintro place ⟨f, hf, rfl⟩
    exact ⟨f, hf, FileTree.placeBelow_eq_append (hplain f hf) t _⟩
  match hwrite : FileAction.on
    (files.forM fun f => FileTree.store.writeBelow (.ofText directory) f.path f.text) t with
  | (.error e, t') =>
    rw [hwrite] at hchanges
    exact ⟨.inr ⟨e, rfl⟩, hchanges.mono hplaces fun _ => id, fun hdone => by cases hdone⟩
  | (.ok (), t') =>
    rw [hwrite] at hchanges
    refine ⟨.inl rfl, hchanges.mono hplaces fun _ => id, ?_⟩
    rintro - front f back rfl hlast
    exact (FileTree.hasFile_of_forM_append hplain hlast hwrite).read
      (FileTree.asDirectory_join (hplain f (by simp)) _)

/-- Whatever the command line and the tree are: a run that cannot read or parse its settings or its
document, or whose document cannot be built or emitted, fails and leaves the tree as it is. So does
a check, which succeeds exactly if there is something to emit. Any other run writes the emitted
files below its output directory and nothing else, and what is no run leaves the tree as it is. -/
theorem command_writes_only_generated (arguments : List String) (t : FileTree) :
    (∀ o, Request.ofArguments arguments = .run o →
      ((∀ files, ¬ o.Generates t files) →
        (outcome arguments t).2 = t ∧ ∃ e, (outcome arguments t).1 = .failed e) ∧
      ("--check" ∈ arguments → (outcome arguments t).2 = t ∧
        ((outcome arguments t).1 = .done ↔ ∃ files, o.Generates t files)) ∧
      ∀ files, o.Generates t files → "--check" ∉ arguments → ∃ directory,
        o.action = .write directory ∧ Writes directory files t (outcome arguments t)) ∧
    ((∀ o, Request.ofArguments arguments ≠ .run o) → (outcome arguments t).2 = t) := by
  refine ⟨fun o h => ?_, outcome_of_not_run⟩
  have haction : o.action = .check ↔ "--check" ∈ arguments := by
    simpa using Draft.action_of_readArguments h
  have hfails : (∀ files, ¬ o.Generates t files) →
      (outcome arguments t).2 = t ∧ ∃ e, (outcome arguments t).1 = .failed e := by
    intro hnone
    obtain ⟨e, he⟩ := Options.on_run_of_not_generates hnone
    rw [outcome_of_run h, he]
    exact ⟨rfl, e, rfl⟩
  refine ⟨hfails, fun hcheck => ?_, fun files hgenerates hcheck => ?_⟩
  · by_cases hsome : ∃ files, o.Generates t files
    · obtain ⟨files, hgenerates⟩ := hsome
      rw [outcome_of_run h, Options.on_run_of_check hgenerates (haction.mpr hcheck)]
      exact ⟨rfl, iff_of_true rfl ⟨files, hgenerates⟩⟩
    · obtain ⟨htree, e, he⟩ := hfails fun files hgenerates => hsome ⟨files, hgenerates⟩
      refine ⟨htree, iff_of_false ?_ hsome⟩
      rw [he]
      intro hdone
      cases hdone
  · cases hwrite : o.action with
    | check => exact absurd (haction.mp hwrite) hcheck
    | write directory => exact ⟨directory, rfl, writes_of_generates h hgenerates hwrite⟩

/-- A tree with a document in which a module has the path of the root. -/
def desk : FileTree := ⟨[(["doc.json"], .file "[[[\"_\"]]]")], []⟩

/-- Both files of the document have one path, where the last of them is found. A check of it changes
nothing, and a run without a document fails. -/
theorem command_writes_only_generated_desk :
    (∃ module root, module.path = ["mod.rs"] ∧ root.path = ["mod.rs"] ∧
      Writes "out" [module, root] desk (outcome ["-i", "doc.json", "-o", "out"] desk) ∧
      (outcome ["-i", "doc.json", "-o", "out"] desk).1 = .done ∧
      (outcome ["-i", "doc.json", "-o", "out"] desk).2.read (.ofText "out/mod.rs") =
        .ok root.text) ∧
    outcome ["--check", "-idoc.json"] desk = (.done, desk) ∧
    (outcome ["-i", "none.json", "-o", "out"] desk).2 = desk := by
  have hread : desk.read (.ofText "doc.json") = .ok "[[[\"_\"]]]" := by decide +kernel
  have hpaths : ((Document.parse? "[[[\"_\"]]]").map fun doc =>
      (compile {} doc).map (·.map (·.path))) = some (.ok [["mod.rs"], ["mod.rs"]]) := by
    decide +kernel
  obtain ⟨doc, hparse, hcompiled⟩ := Option.map_eq_some_iff.mp hpaths
  cases hfiles : compile {} doc with
  | error e =>
    rw [hfiles] at hcompiled
    cases hcompiled
  | ok files =>
    rw [hfiles] at hcompiled
    have hmap : files.map (·.path) = [["mod.rs"], ["mod.rs"]] := Except.ok.inj hcompiled
    obtain ⟨module, others, rfl, hmodule, hothers⟩ := List.map_eq_cons_iff.mp hmap
    obtain ⟨root, rest, rfl, hroot, hrest⟩ := List.map_eq_cons_iff.mp hothers
    obtain rfl := List.map_eq_nil_iff.mp hrest
    have hgenerates : ∀ action, Options.Generates
        ⟨"doc.json", action, none, none, none, none, none, false⟩ desk [module, root] :=
      fun action => ⟨{}, doc, .default rfl, ⟨_, hread, hparse⟩, hfiles⟩
    refine ⟨⟨module, root, hmodule, hroot, ?_⟩, ?_, ?_⟩
    · obtain ⟨directory, haction, hwrites⟩ :=
        ((command_writes_only_generated ["-i", "doc.json", "-o", "out"] desk).1
          ⟨"doc.json", .write "out", none, none, none, none, none, false⟩
          (by decide +kernel)).2.2 _ (hgenerates _) (by decide)
      obtain rfl := Action.write.inj haction
      have hdone : (outcome ["-i", "doc.json", "-o", "out"] desk).1 = .done := by decide +kernel
      have hlast := hwrites.last hdone [module] root [] rfl (by simp)
      rw [hroot] at hlast
      exact ⟨hwrites, hdone, hlast⟩
    · obtain ⟨htree, hdone⟩ :=
        ((command_writes_only_generated ["--check", "-idoc.json"] desk).1
          ⟨"doc.json", .check, none, none, none, none, none, false⟩
          (by decide +kernel)).2.1 (by decide)
      exact Prod.ext (hdone.mpr ⟨_, hgenerates _⟩) htree
    · refine (((command_writes_only_generated ["-i", "none.json", "-o", "out"] desk).1
        ⟨"none.json", .write "out", none, none, none, none, none, false⟩
        (by decide +kernel)).1 ?_).1
      rintro files ⟨-, -, -, ⟨text, hnone, -⟩, -⟩
      have hmissing : desk.read (.ofText "none.json") = .error .notFound := by decide +kernel
      rw [hmissing] at hnone
      cases hnone

end WireSchema.Command
