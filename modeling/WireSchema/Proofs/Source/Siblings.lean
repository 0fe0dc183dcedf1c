import WireSchema.Proofs.Identifier.Homonyms
import WireSchema.Proofs.Source.Closure

/-!
# Declarations side by side

The index of a directory declares modules, types and interfaces by lines of one kind, and each of
them has its file or its directory beside the index. Names have one stem exactly if they are one
identifier. So it is enough that stems are claimed: where all of them differ, no line is written
twice and no two declarations share a file.
-/
namespace WireSchema.Source

open Identifier Schema

/-- Where the file of a declared module can be: beside the index that declares it, or as the index
of a directory. An empty stem adds no directory. -/
def sitesOf (dir : List String) (module : String) : List (List String) :=
  [dir ++ [moduleStem module ++ ".rs"],
    dir ++ [moduleStem module].filter (· ≠ "") ++ [indexFile]]

/-- The modules are declared by different lines of the index, and their files are apart. -/
structure DeclaresApart (dir modules : List String) : Prop where
  lines_nodup : (modules.map moduleLine).Nodup
  sites_disjoint : modules.Pairwise fun a b => (sitesOf dir a).Disjoint (sitesOf dir b)

variable {t : Target} {files : List SourceFile} {dir modules : List String}

theorem moduleLine_injective : Function.Injective moduleLine := by
  intro a b h
  rw [moduleLine_eq, moduleLine_eq, Step.line.injEq, String.append_left_inj,
    String.append_right_inj] at h
  exact h

theorem sitesOf_disjoint {a b : String} (ha : moduleStem a ≠ "mod") (hb : moduleStem b ≠ "mod")
    (h : moduleStem a ≠ moduleStem b) : (sitesOf dir a).Disjoint (sitesOf dir b) := by
  have hsuffix : moduleStem a ++ ".rs" ≠ moduleStem b ++ ".rs" :=
    fun heq => h ((String.append_left_inj _).mp heq)
  have hfilter : [moduleStem a].filter (· ≠ "") ≠ [moduleStem b].filter (· ≠ "") := by
    simp only [List.filter_singleton]
    grind
  intro path hpath hpath'
  simp only [sitesOf, List.mem_cons, List.not_mem_nil, or_false] at hpath hpath'
  rcases hpath with rfl | rfl <;> rcases hpath' with heq | heq
  · exact hsuffix (by simpa using heq)
  · exact append_rs_ne_indexFile ha (by simpa using (List.append_inj' heq rfl).2)
  · exact append_rs_ne_indexFile hb (by simpa using (List.append_inj' heq rfl).2.symm)
  · exact hfilter (List.append_cancel_left (List.append_cancel_right heq))

theorem declaresApart_of_nodup (h : ("mod" :: modules.map moduleStem).Nodup) :
    DeclaresApart dir modules := by
  obtain ⟨hmod, hnodup⟩ := List.nodup_cons.mp h
  have hne : ∀ module ∈ modules, moduleStem module ≠ "mod" :=
    fun module hmem heq => hmod (heq ▸ List.mem_map_of_mem hmem)
  refine ⟨(List.Nodup.of_map _ hnodup).map moduleLine_injective, ?_⟩
  refine (List.pairwise_map.mp hnodup).imp_of_mem ?_
  intro a b ha hb hstems
  exact sitesOf_disjoint (hne a ha) (hne b hb) hstems

/-- In a scope that keeps the stem of its index for itself, names can be claimed one after the other
exactly if none of their stems is taken and they are declared apart. -/
theorem exists_claimAll_stems_iff {n : Namespace} (hmod : "mod" ∈ n.taken)
    (names dir : List String) :
    (∃ n', n.claimAll (names.map fun name => (stem name, name)) = .ok n') ↔
      (∀ name ∈ names, stem name ∉ n.taken) ∧ DeclaresApart dir (names.map snake) := by
  have hstems : (names.map fun name => (stem name, name)).map Prod.fst = names.map stem := by
    rw [List.map_map]
    rfl
  rw [Namespace.exists_claimAll_eq_ok_iff, hstems]
  simp only [List.forall_mem_map]
  refine and_congr_right fun hfree => ⟨fun hnodup => declaresApart_of_nodup ?_, fun hapart => ?_⟩
  · rw [List.map_map, List.nodup_cons]
    refine ⟨fun hmem => ?_, hnodup⟩
    obtain ⟨name, hname, heq⟩ := List.mem_map.mp hmem
    rw [← heq] at hmod
    exact hfree name hname hmod
  · have hsnakes : (names.map snake).Nodup := .of_map _ hapart.lines_nodup
    rw [List.Nodup, List.pairwise_map] at hsnakes ⊢
    exact hsnakes.imp fun hne heq => hne (stem_eq_stem_iff.mp heq)

/-- An index, if the file is one, declares apart. -/
def IndexApart (t : Target) (f : SourceFile) : Prop :=
  f.kind = .module ∨ f.kind = .interface → DeclaresApart f.path.dropLast (t.modulesIn f)

theorem indexApart_of_kind {f : SourceFile} (h : f.kind ≠ .interface ∧ f.kind ≠ .module) :
    IndexApart t f :=
  fun hkind => (hkind.elim h.2 h.1).elim

theorem indexApart_of_names {f : SourceFile} (constants : List Constant) {names taken : List String}
    (hmodules : t.modulesIn f = constantNames constants ++ names.map snake) (htaken : taken.Nodup)
    (hstems : taken.Perm (reservedStems constants ++ names.map stem)) : IndexApart t f := by
  intro _
  rw [hmodules]
  exact declaresApart_of_nodup (moduleStems_nodup htaken hstems)

theorem indexApart_constants {name : QualifiedName} {constants : List Constant}
    (h : Target.HasConstantFile name constants files) : ∀ f ∈ files, IndexApart t f := by
  rcases h with ⟨-, rfl⟩ | ⟨-, steps, rfl⟩
  · simp
  · rw [List.forall_mem_singleton]
    exact indexApart_of_kind (by simp)

theorem indexApart_files (t : Target) : t.HoldsOfFiles (IndexApart t) where
  constants := indexApart_constants
  types := fun hgrows x hx => indexApart_of_kind (hgrows.kind_ne x hx)
  interfaceIndex {i _ _ _ folder} h := by
    have htaken := h.grows.stems_nodup (reservedStems_nodup i.constants)
    refine indexApart_of_names i.constants ?_ htaken (stems_perm_of_grows h.grows)
    rw [(saysIn_interface (newline_notMem_children folder)).1, children_of_grows h.grows rfl]
  moduleIndex {m _ _ _ _ _ _ _ _} h := by
    have htaken := h.interfaces.taken_nodup (h.grows.stems_nodup
      (h.modules.taken_nodup (reservedStems_nodup m.constants)))
    exact indexApart_of_names m.constants (modulesIn_of_grows h.grows) htaken
      (stems_perm_of_emitsModule h)

theorem indexApart_of_compile {config : Config} {doc : Document}
    (h : compile config doc = .ok files) :
    ∃ s, build doc = .ok s ∧ ∀ f ∈ files, IndexApart ⟨s, config⟩ f := by
  obtain ⟨s, taken, parts, hs, hemits, rfl⟩ := exists_schema_of_compile h
  refine ⟨s, hs, fun f hf => ?_⟩
  rcases List.mem_append.mp hf with hf | hf
  · exact Target.forall_mem_flatten hemits.parts
      ((indexApart_files ⟨s, config⟩).modulesFiles s.modules) f hf
  · obtain rfl := List.mem_singleton.mp hf
    refine indexApart_of_names [] ?_
      (hemits.taken_nodup (reservedStems_nodup [])) (stems_perm_of_emitsEach hemits)
    rw [modulesIn_root, List.map_map]
    rfl

/-- Two names, whatever they are made of, have one stem exactly if they are one identifier. So a
scope that claims stems refuses exactly the names whose identifiers or stems it has, and in every
emitted tree each index declares what is beside it by different lines and at different places. -/
theorem stems_collide_with_modules :
    (∀ a b : String, stem a = stem b ↔ snake a = snake b) ∧
    (∀ (n : Namespace) (names dir : List String), "mod" ∈ n.taken →
      ((∃ n', n.claimAll (names.map fun name => (stem name, name)) = .ok n') ↔
        (∀ name ∈ names, stem name ∉ n.taken) ∧ DeclaresApart dir (names.map snake))) ∧
    ∀ (config : Config) (doc : Document) (files : List SourceFile),
      compile config doc = .ok files →
      ∃ s, build doc = .ok s ∧ ∀ f ∈ files, f.kind = .module ∨ f.kind = .interface →
        DeclaresApart f.path.dropLast (Target.modulesIn ⟨s, config⟩ f) := by
  refine ⟨fun a b => stem_eq_stem_iff, ?_, ?_⟩
  · exact fun n names dir hmod => exists_claimAll_stems_iff hmod names dir
  · exact fun config doc files h => indexApart_of_compile h

/-- A reserved word, a word that no mark sets free and a digit in front are told apart. The tree
with a module named by a reserved word has an index for each of its four directories. -/
theorem stems_collide_with_modules_harbour :
    (stem "2D" = stem "_2d" ∧ snake "2D" = snake "_2d") ∧
    DeclaresApart ["port"] ["r#type", "self_", "_2d"] ∧
    ∃ files s, compile {} harbour = .ok files ∧ build harbour = .ok s ∧
      (files.filter fun f => f.kind = .module || f.kind = .interface).length = 4 ∧
      ∀ f ∈ files, f.kind = .module ∨ f.kind = .interface →
        DeclaresApart f.path.dropLast (Target.modulesIn ⟨s, {}⟩ f) := by
  obtain ⟨hiff, hclaims, htrees⟩ := stems_collide_with_modules
  have hstems : stem "2D" = stem "_2d" := by decide +kernel
  have hclaimed : ((Namespace.reserving .root ["mod"]).claimAll
      (["Type", "self", "2D"].map fun name => (stem name, name))).toBool = true := by decide +kernel
  have hsnakes : ["Type", "self", "2D"].map snake = ["r#type", "self_", "_2d"] := by decide +kernel
  have hapart := (hclaims (.reserving .root ["mod"]) ["Type", "self", "2D"] ["port"]
    List.mem_cons_self).mp (Target.exists_eq_ok hclaimed)
  rw [hsnakes] at hapart
  have hcompiled : (compile {} harbour).toBool = true := by decide +kernel
  have hindexes : (compile {} harbour).map (fun files =>
      (files.filter fun f => f.kind = .module || f.kind = .interface).length) = .ok 4 := by
    decide +kernel
  obtain ⟨files, hfiles⟩ := Target.exists_eq_ok hcompiled
  rw [hfiles] at hindexes
  obtain ⟨s, hs, htree⟩ := htrees {} harbour files hfiles
  exact ⟨⟨hstems, (hiff "2D" "_2d").mp hstems⟩, hapart.2, files, s, hfiles, hs,
    Except.ok.inj hindexes, htree⟩

end WireSchema.Source
