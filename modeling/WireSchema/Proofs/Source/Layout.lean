import Mathlib.Data.List.Chain
import WireSchema.Proofs.Source.Lines

/-!
# How steps are laid out

The depth of a page is a counter that steps move up and down. Where indents and dedents match inside
the body of every block, the counter follows the tree: a block ends at the depth it started with,
and every line that is written stands under as many levels as the tree has around it. Blank steps
look at what was written so far, so that they neither start a text with an empty line nor make two
empty lines out of one.
-/
namespace WireSchema.Source

open Text

/-- The lines of a text that is written. -/
def textLines (text : String) : List (List Char) := splitWhere (· == '\n') text.toList

/-- The lines of a text in which every line has its end. -/
def endedLines (text : String) : List (List Char) := (textLines text).dropLast

/-- Steps in which indents and dedents match like brackets, and so inside every block. -/
inductive AreBalanced : List Step → Prop
  | nil : AreBalanced []
  | line (text : String) {steps : List Step} (h : AreBalanced steps) :
    AreBalanced (.line text :: steps)
  | blank {steps : List Step} (h : AreBalanced steps) : AreBalanced (.blank :: steps)
  | nested {inner steps : List Step} (hinner : AreBalanced inner) (h : AreBalanced steps) :
    AreBalanced (.indent :: (inner ++ .dedent :: steps))
  | block (header : String) {body steps : List Step} (hbody : AreBalanced body)
    (h : AreBalanced steps) : AreBalanced (.block header body :: steps)

/-- The steps match inside every block, whatever they do outside. -/
def BlocksBalanced (steps : List Step) : Prop :=
  ∀ header body, Step.block header body ∈ steps → AreBalanced body

/-- The level after a step, as the tree has it: a block ends where it starts. -/
def Step.level (depth : Nat) : Step → Nat
  | .line _ => depth
  | .blank => depth
  | .indent => depth + 1
  | .dedent => depth - 1
  | .block _ _ => depth

mutual

/-- The lines that a step writes, each at the level that the tree has around it. -/
def Step.writings (depth : Nat) : Step → List Line
  | .line text => (textLines text).map (Line.mk depth)
  | .blank => []
  | .indent => []
  | .dedent => []
  | .block header body =>
    (textLines (header ++ " \x7b")).map (Line.mk depth) ++ writingsOf (depth + 1) body ++
      [⟨depth, ['\x7d']⟩]

def writingsOf (depth : Nat) : List Step → List Line
  | [] => []
  | s :: steps => s.writings depth ++ writingsOf (s.level depth) steps

end

/-- The steps that a block stands for. -/
def blockSteps (header : String) (body : List Step) : List Step :=
  .line (header ++ " \x7b") :: .indent :: (body ++ [.dedent, .line "\x7d"])

/-- The step `s` is taken at the page `q` when steps are run from a page. Whatever a block stands
for is taken as well as the block. -/
inductive TakesStep : Page → List Step → Step → Page → Prop
  | here {p : Page} {s : Step} {steps : List Step} : TakesStep p (s :: steps) s p
  | later {p q : Page} {first s : Step} {steps : List Step}
    (h : TakesStep (first.run p) steps s q) : TakesStep p (first :: steps) s q
  | inside {p q : Page} {header : String} {s : Step} {body steps : List Step}
    (h : TakesStep p (blockSteps header body) s q) : TakesStep p (.block header body :: steps) s q

theorem runAll_blockSteps (p : Page) (header : String) (body : List Step) :
    runAll p (blockSteps header body) = (Step.block header body).run p := by
  rw [blockSteps, runAll_cons, runAll_cons, runAll_append]
  rfl

/-- What holds of a balanced body as soon as it holds of the bodies inside holds of the body of
every block. -/
theorem AreBalanced.forall_block {Q : List Step → Prop}
    (hQ : ∀ body, AreBalanced body →
      (∀ header inner, Step.block header inner ∈ body → Q inner) → Q body)
    {steps : List Step} (h : AreBalanced steps) :
    ∀ header body, Step.block header body ∈ steps → Q body := by
  induction h with
  | nil => simp
  | line text _ ih => simpa using ih
  | blank _ ih => simpa using ih
  | nested _ _ hinner ih =>
    intro header body hmem
    simp only [List.mem_cons, List.mem_append, reduceCtorEq, false_or] at hmem
    exact hmem.elim (hinner header body) (ih header body)
  | block first hbody _ hinner ih =>
    intro header body hmem
    rcases List.mem_cons.mp hmem with heq | hmem
    · obtain ⟨-, rfl⟩ := Step.block.inj heq
      exact hQ body hbody hinner
    · exact ih header body hmem

theorem AreBalanced.blocks {steps : List Step} (h : AreBalanced steps) : BlocksBalanced steps :=
  h.forall_block fun _ hbody _ => hbody

theorem BlocksBalanced.of_takesStep {p q : Page} {steps : List Step} {s : Step}
    (h : BlocksBalanced steps) (htakes : TakesStep p steps s q) {header : String}
    {body : List Step} (hs : s = .block header body) : AreBalanced body := by
  induction htakes with
  | here => exact h header body (hs ▸ List.mem_cons_self)
  | later _ ih => exact ih (fun header body hmem => h header body (.tail _ hmem)) hs
  | @inside p q first s inner steps _ ih =>
    refine ih (fun header body hmem => ?_) hs
    have hinner : AreBalanced inner := h first inner List.mem_cons_self
    simp only [blockSteps, List.mem_cons, List.mem_append, List.not_mem_nil, reduceCtorEq,
      false_or, or_false] at hmem
    exact hinner.blocks header body hmem

theorem AreBalanced.level_eq {steps : List Step} (h : AreBalanced steps) (depth : Nat) :
    steps.foldl Step.level depth = depth := by
  induction h generalizing depth with
  | nil => rfl
  | line text _ ih => exact ih depth
  | blank _ ih => exact ih depth
  | nested _ _ hinner ih =>
    rw [List.foldl_cons, List.foldl_append, hinner, List.foldl_cons]
    exact ih depth
  | block header _ _ _ ih => exact ih depth

/-- The lines of a page on which something stands, first one first. -/
def Page.inked (p : Page) : List Line := p.lines.reverse.filter (·.text ≠ [])

/-- From `p` to `p'` the lines with ink are written, and the depth becomes the given one. -/
structure Page.Inks (p p' : Page) (depth : Nat) (lines : List Line) : Prop where
  depth_eq : p'.depth = depth
  inked_eq : p'.inked = p.inked ++ lines.filter (·.text ≠ [])

namespace Page

variable {p p' p'' : Page}

theorem Inks.trans {d d' : Nat} {a b : List Line} (h : p.Inks p' d a) (h' : p'.Inks p'' d' b) :
    p.Inks p'' d' (a ++ b) where
  depth_eq := h'.depth_eq
  inked_eq := by rw [h'.inked_eq, h.inked_eq, List.filter_append, List.append_assoc]

theorem Writes.inks {lines : List Line} (h : p.Writes p' lines) : p.Inks p' p.depth lines where
  depth_eq := h.depth_eq
  inked_eq := by
    rw [inked, h.lines_eq, List.reverse_append, List.reverse_reverse, List.filter_append, inked]

theorem inks_write (p : Page) (text : String) :
    p.Inks (p.write text) p.depth ((textLines text).map (Line.mk p.depth)) :=
  (writes_write p text).inks

theorem inks_blank (p : Page) : p.Inks p.blank p.depth [] := by
  obtain ⟨lines, hwrites, hempty⟩ := writes_blank p
  refine ⟨hwrites.depth_eq, ?_⟩
  rw [hwrites.inks.inked_eq, List.filter_eq_nil_iff.mpr (by simpa using hempty), List.filter_nil]

end Page

/-- Steps that end at the depth at which they start and write what the tree says. -/
def FollowTree (steps : List Step) : Prop :=
  ∀ p : Page, p.Inks (runAll p steps) p.depth (writingsOf p.depth steps)

theorem FollowTree.inks_block {body : List Step} (hbody : FollowTree body) (header : String)
    (p : Page) :
    p.Inks ((Step.block header body).run p) p.depth
      ((Step.block header body).writings p.depth) := by
  have hheader := p.inks_write (header ++ " \x7b")
  generalize hopened : p.write (header ++ " \x7b") = opened at hheader
  -- Indents and dedents leave the lines alone, so the three parts follow each other.
  have hinner : opened.Inks (runAll opened.indent body) (p.depth + 1)
      (writingsOf (p.depth + 1) body) := by
    have hindented : opened.indent.depth = p.depth + 1 := congrArg (· + 1) hheader.depth_eq
    have hrun := hbody opened.indent
    rw [hindented] at hrun
    exact ⟨hrun.depth_eq, hrun.inked_eq⟩
  generalize hfilled : runAll opened.indent body = filled at hinner
  have hbrace : filled.Inks (filled.dedent.write "\x7d") p.depth [⟨p.depth, ['\x7d']⟩] := by
    have hclosed : filled.dedent.depth = p.depth := congrArg (· - 1) hinner.depth_eq
    have hwrite := filled.dedent.inks_write "\x7d"
    rw [hclosed] at hwrite
    exact ⟨hwrite.depth_eq, hwrite.inked_eq⟩
  have hrun : (Step.block header body).run p = filled.dedent.write "\x7d" := by
    rw [← hfilled, ← hopened]
    rfl
  rw [hrun]
  exact (hheader.trans hinner).trans hbrace

theorem inks_step {s : Step} (h : ∀ header body, s = .block header body → FollowTree body)
    (p : Page) : p.Inks (s.run p) (s.level p.depth) (s.writings p.depth) := by
  cases s with
  | line text => exact p.inks_write text
  | blank => exact p.inks_blank
  | indent => exact ⟨rfl, (List.append_nil _).symm⟩
  | dedent => exact ⟨rfl, (List.append_nil _).symm⟩
  | block header body => exact (h header body rfl).inks_block header p

theorem inks_steps {steps : List Step}
    (h : ∀ header body, Step.block header body ∈ steps → FollowTree body) (p : Page) :
    p.Inks (runAll p steps) (steps.foldl Step.level p.depth) (writingsOf p.depth steps) := by
  induction steps generalizing p with
  | nil => exact ⟨rfl, by simp [writingsOf]⟩
  | cons s steps ih =>
    have hstep : p.Inks (s.run p) (s.level p.depth) (s.writings p.depth) :=
      inks_step (fun header body hs => h header body (hs ▸ List.mem_cons_self)) p
    have hrest := ih (fun header body hmem => h header body (.tail _ hmem)) (s.run p)
    rw [hstep.depth_eq] at hrest
    exact hstep.trans hrest

/-- The depth comes back at the end of balanced steps, since it comes back at the end of every block
inside. -/
theorem AreBalanced.followTree {steps : List Step} (h : AreBalanced steps) : FollowTree steps := by
  have hbody : ∀ body, AreBalanced body →
      (∀ header inner, Step.block header inner ∈ body → FollowTree inner) → FollowTree body := by
    intro body hbalanced hinner p
    have hinks := inks_steps hinner p
    rwa [hbalanced.level_eq] at hinks
  exact hbody steps h (h.forall_block hbody)

namespace Page

variable {p : Page}

theorem getLast?_flatMap_render {lines : List Line} (h : lines ≠ []) :
    (lines.flatMap Line.render).getLast? = some '\n' := by
  rcases List.eq_nil_or_concat lines with rfl | ⟨front, last, rfl⟩
  · contradiction
  · rw [List.concat_eq_append, List.flatMap_append, List.flatMap_singleton, Line.render_eq,
      ← List.append_assoc, List.getLast?_concat]

theorem ended_chars (p : Page) : p.chars = [] ∨ p.chars.getLast? = some '\n' := by
  by_cases h : p.lines = []
  · exact .inl (by simp [chars, h])
  · exact .inr (getLast?_flatMap_render (by simpa using h))

/-- No line of the page holds a line end. -/
def IsCut (p : Page) : Prop := ∀ l ∈ p.lines, '\n' ∉ l.text

theorem Writes.isCut {p' : Page} {lines : List Line} (h : p.Writes p' lines) (hp : p.IsCut) :
    p'.IsCut := by
  intro l hl
  rw [h.lines_eq] at hl
  rcases List.mem_append.mp hl with hl | hl
  · exact h.newline_notMem l (List.mem_reverse.mp hl)
  · exact hp l hl

theorem IsCut.endedLines_text (hp : p.IsCut) :
    endedLines p.text = p.lines.reverse.map Line.content := by
  rw [endedLines, textLines, text, String.toList_ofList, chars,
    splitWhere_flatMap_render fun l hl => hp l (List.mem_reverse.mp hl), List.dropLast_concat]

end Page

theorem Line.content_eq_nil_iff {l : Line} : l.content = [] ↔ l.text = [] := by
  unfold Line.content
  split_ifs with h
  · simpa using List.isEmpty_iff.mp h
  · have htext : l.text ≠ [] := fun hnil => h (List.isEmpty_iff.mpr hnil)
    simp [htext]

theorem Page.IsCut.filter_endedLines {p : Page} (hp : p.IsCut) :
    (endedLines p.text).filter (· ≠ []) =
      p.inked.map fun l => List.replicate (4 * l.depth) ' ' ++ l.text := by
  have hfilter : ((· ≠ []) : List Char → Bool) ∘ Line.content = fun l => decide (l.text ≠ []) := by
    funext l
    simp [Line.content_eq_nil_iff]
  rw [hp.endedLines_text, List.filter_map, hfilter]
  apply List.map_congr_left
  intro l hl
  have htext : l.text ≠ [] := by simpa using (List.mem_filter.mp hl).2
  simp [Line.content, htext]

theorem suffix_concat_iff {cs : List Char} {c d : Char} :
    [c, d] <:+ cs ++ [d] ↔ cs.getLast? = some c := by
  rcases List.eq_nil_or_concat cs with rfl | ⟨front, last, rfl⟩
  · simp [List.suffix_cons_iff]
  · rw [List.concat_eq_append, List.getLast?_concat, Option.some.injEq]
    constructor
    · rintro ⟨rest, hrest⟩
      have hcut : (rest ++ [c]) ++ [d] = (front ++ [last]) ++ [d] := by simpa using hrest
      have hlast := (List.append_inj' (List.append_cancel_right hcut) rfl).2
      exact (List.cons.inj hlast).1.symm
    · rintro rfl
      exact ⟨front, by simp⟩

namespace Page

variable {p : Page}

theorem lines_blank (p : Page) : p.blank.lines = [] ∨ p.blank.endsBlank = true := by
  unfold blank
  split_ifs with h
  · simpa using h
  · right
    rw [Bool.or_eq_true, not_or, List.isEmpty_iff] at h
    obtain ⟨last, rest, hlines⟩ := List.exists_cons_of_ne_nil h.1
    simp [push, endsBlank, hlines]

theorem blank_blank (p : Page) : p.blank.blank = p.blank := by
  refine if_pos ?_
  rcases p.lines_blank with h | h <;> simp [h]

theorem chars_eq_nil_iff : p.chars = [] ↔ p.lines = [] := by
  constructor
  · intro h
    by_contra hlines
    have hlast : p.chars.getLast? = some '\n' := getLast?_flatMap_render (by simpa using hlines)
    rw [h] at hlast
    cases hlast
  · intro h
    simp [chars, h]

theorem endsBlank_iff_of_lines {last : Line} {rest : List Line} (h : p.lines = last :: rest) :
    p.endsBlank = true ↔ last.text = [] ∧ rest ≠ [] := by
  cases rest <;> simp [endsBlank, h]

/-- The last line of a page is empty, with another line before it, exactly if the text ends with two
line ends. -/
theorem IsCut.endsBlank_iff (hp : p.IsCut) : p.endsBlank = true ↔ ['\n', '\n'] <:+ p.chars := by
  cases hlines : p.lines with
  | nil => simp [endsBlank, chars, hlines]
  | cons last rest =>
    have hchars : p.chars = rest.reverse.flatMap Line.render ++ last.content ++ ['\n'] := by
      rw [chars, hlines, List.reverse_cons, List.flatMap_append, List.flatMap_singleton,
        Line.render_eq, List.append_assoc]
    rw [endsBlank_iff_of_lines hlines, hchars, suffix_concat_iff]
    by_cases htext : last.text = []
    · -- The last line is empty, so what counts is whether a line ends before it.
      rw [Line.content_eq_nil_iff.mpr htext, List.append_nil]
      by_cases hrest : rest = []
      · simp [hrest]
      · have hended := getLast?_flatMap_render (List.reverse_ne_nil_iff.mpr hrest)
        simp [htext, hrest, hended]
    · refine iff_of_false (fun h => htext h.1) fun h => ?_
      have hcontent : last.content ≠ [] := fun hnil => htext (Line.content_eq_nil_iff.mp hnil)
      rw [List.getLast?_append, Option.or_of_isSome (List.getLast?_isSome.mpr hcontent)] at h
      have hnewline : '\n' ∉ last.content :=
        Line.newline_notMem_content (hp last (hlines ▸ List.mem_cons_self))
      exact hnewline (List.mem_of_getLast? h)

/-- A blank step looks at the end of the text. -/
theorem IsCut.chars_blank (hp : p.IsCut) : p.blank.chars =
    if p.chars = [] ∨ ['\n', '\n'] <:+ p.chars then p.chars else p.chars ++ ['\n'] := by
  have hcondition : (p.lines.isEmpty || p.endsBlank) = true ↔
      p.chars = [] ∨ ['\n', '\n'] <:+ p.chars := by
    rw [Bool.or_eq_true, List.isEmpty_iff, hp.endsBlank_iff, chars_eq_nil_iff]
  unfold blank
  split_ifs with h h' h'
  · rfl
  · exact absurd (hcondition.mp h) h'
  · exact absurd (hcondition.mpr h') h
  · exact (writes_push (by simp)).chars_eq

end Page

/-- What lines of a kind, blank steps and changes of the depth keep. -/
structure KeptBySteps (P : List Char → Prop) (I : Page → Prop) : Prop where
  write : ∀ {p : Page} {text : String}, (∀ l ∈ textLines text, P l) → I p → I (p.write text)
  blank : ∀ {p : Page}, I p → I p.blank
  indent : ∀ {p : Page}, I p → I p.indent
  dedent : ∀ {p : Page}, I p → I p.dedent

namespace KeptBySteps

variable {P : List Char → Prop} {I : Page → Prop}

mutual

theorem step (hI : KeptBySteps P I) : (s : Step) → (depth : Nat) →
    (∀ l ∈ s.writings depth, P l.text) → (p : Page) → I p → I (s.run p)
  | .line text, depth, h, p, hp => by
    refine hI.write (fun l hl => ?_) hp
    exact h ⟨depth, l⟩ (List.mem_map_of_mem hl)
  | .blank, _, _, _, hp => hI.blank hp
  | .indent, _, _, _, hp => hI.indent hp
  | .dedent, _, _, _, hp => hI.dedent hp
  | .block header body, depth, h, p, hp => by
    simp only [Step.writings, List.forall_mem_append, List.forall_mem_map,
      List.forall_mem_singleton] at h
    obtain ⟨⟨hheader, hbody⟩, hbrace⟩ := h
    have hfilled := steps hI body (depth + 1) hbody _ (hI.indent (hI.write hheader hp))
    refine hI.write ?_ (hI.dedent hfilled)
    intro l hl
    obtain rfl : l = ['\x7d'] := List.mem_singleton.mp hl
    exact hbrace

theorem steps (hI : KeptBySteps P I) : (steps : List Step) → (depth : Nat) →
    (∀ l ∈ writingsOf depth steps, P l.text) → (p : Page) → I p → I (runAll p steps)
  | [], _, _, _, hp => hp
  | s :: rest, depth, h, p, hp => by
    rw [writingsOf, List.forall_mem_append] at h
    exact steps hI rest (s.level depth) h.2 _ (step hI s depth h.1 p hp)

end

theorem takesStep (hI : KeptBySteps (fun _ => True) I) {p q : Page} {steps : List Step} {s : Step}
    (h : TakesStep p steps s q) (hp : I p) : I q := by
  induction h with
  | here => exact hp
  | @later p _ first _ _ _ ih => exact ih (hI.step first 0 (by simp) p hp)
  | inside _ ih => exact ih hp

end KeptBySteps

theorem keptBySteps_isCut : KeptBySteps (fun _ => True) Page.IsCut where
  write {p text} _ hp := (p.writes_write text).isCut hp
  blank {p} hp := by
    obtain ⟨lines, hwrites, -⟩ := p.writes_blank
    exact hwrites.isCut hp
  indent hp := hp
  dedent hp := hp

theorem isCut_empty : Page.empty.IsCut := by simp [Page.IsCut, Page.empty]

/-- What was written stays in front of whatever follows. -/
theorem keptBySteps_suffix (start : List Line) :
    KeptBySteps (fun _ => True) fun p => start <:+ p.lines where
  write {p text} _ hp := by
    rw [(p.writes_write text).lines_eq]
    exact hp.trans (List.suffix_append _ _)
  blank {p} hp := by
    obtain ⟨lines, hwrites, -⟩ := p.writes_blank
    rw [hwrites.lines_eq]
    exact hp.trans (List.suffix_append _ _)
  indent hp := hp
  dedent hp := hp

theorem exists_render_eq_append (text : String) (steps : List Step) :
    ∃ rest, (render (.line text :: steps)).toList = text.toList ++ '\n' :: rest := by
  obtain ⟨more, hmore⟩ := (keptBySteps_suffix (Page.empty.write text).lines).steps steps 0 (by simp)
    (Page.empty.write text) (List.suffix_refl _)
  have hrender : ∀ piece, Line.render ⟨Page.empty.depth, piece⟩ = piece ++ ['\n'] := by
    intro piece
    rw [Line.render_eq, Line.content_of_depth_eq_zero rfl]
  have hfirst : (Page.empty.write text).chars = text.toList ++ ['\n'] := by
    rw [(Page.empty.writes_write text).chars_eq, List.flatMap_map, funext hrender,
      flatMap_splitWhere]
    rfl
  refine ⟨more.reverse.flatMap Line.render, ?_⟩
  rw [render, runAll_cons, Page.text, String.toList_ofList, Page.chars, Step.run, ← hmore,
    List.reverse_append, List.flatMap_append]
  change (Page.empty.write text).chars ++ _ = _
  rw [hfirst, List.append_assoc]
  rfl

/-- No two empty lines follow each other, and the page does not start with one. -/
structure Page.IsSpaced (p : Page) : Prop where
  chain : p.lines.IsChain fun a b => a.text ≠ [] ∨ b.text ≠ []
  first : ∀ l ∈ p.lines.getLast?, l.text ≠ []

theorem isSpaced_empty : Page.empty.IsSpaced := ⟨.nil, by simp [Page.empty]⟩

theorem Page.IsSpaced.push {p : Page} (hp : p.IsSpaced) {text : List Char}
    (hlast : ∀ last ∈ p.lines.head?, text ≠ [] ∨ last.text ≠ [])
    (hfirst : p.lines = [] → text ≠ []) : (p.push text).IsSpaced where
  chain := List.isChain_cons.mpr ⟨hlast, hp.chain⟩
  first := by
    change ∀ l ∈ (Line.mk p.depth text :: p.lines).getLast?, l.text ≠ []
    cases hlines : p.lines with
    | nil => simpa using hfirst hlines
    | cons last rest =>
      rw [List.getLast?_cons_cons, ← hlines]
      exact hp.first

theorem Page.IsSpaced.pushAll {p : Page} (hp : p.IsSpaced) {pieces : List (List Char)}
    (h : ∀ piece ∈ pieces, piece ≠ []) : (pieces.foldl Page.push p).IsSpaced := by
  induction pieces generalizing p with
  | nil => exact hp
  | cons piece pieces ih =>
    have hpiece := h piece List.mem_cons_self
    have hpushed : (p.push piece).IsSpaced := hp.push (fun _ _ => .inl hpiece) fun _ => hpiece
    exact ih hpushed fun other hother => h other (.tail _ hother)

/-- A blank step adds an empty line only after a line with ink. -/
theorem Page.IsSpaced.blank {p : Page} (hp : p.IsSpaced) : p.blank.IsSpaced := by
  unfold Page.blank
  split_ifs with h
  · exact hp
  · rw [Bool.or_eq_true, not_or, List.isEmpty_iff] at h
    obtain ⟨last, rest, hlines⟩ := List.exists_cons_of_ne_nil h.1
    have hink : last.text ≠ [] := by
      intro htext
      by_cases hrest : rest = []
      · exact hp.first last (by simp [hlines, hrest]) htext
      · exact h.2 ((Page.endsBlank_iff_of_lines hlines).mpr ⟨htext, hrest⟩)
    refine hp.push ?_ fun hnil => (h.1 hnil).elim
    simpa [hlines] using hink

theorem keptBySteps_isSpaced : KeptBySteps (· ≠ []) Page.IsSpaced where
  write h hp := hp.pushAll h
  blank hp := hp.blank
  indent hp := ⟨hp.chain, hp.first⟩
  dedent hp := ⟨hp.chain, hp.first⟩

theorem Page.IsSpaced.endedLines_text {p : Page} (hp : p.IsSpaced) (hcut : p.IsCut) :
    (endedLines p.text).IsChain (fun a b => a ≠ [] ∨ b ≠ []) ∧
      (endedLines p.text).head? ≠ some [] := by
  rw [hcut.endedLines_text]
  constructor
  · rw [List.isChain_map, List.isChain_reverse]
    refine hp.chain.imp fun a b hab => ?_
    rw [ne_eq, ne_eq, Line.content_eq_nil_iff, Line.content_eq_nil_iff]
    exact hab.symm
  · rw [List.head?_map, List.head?_reverse]
    intro h
    obtain ⟨l, hl, hcontent⟩ := Option.map_eq_some_iff.mp h
    exact hp.first l hl (Line.content_eq_nil_iff.mp hcontent)

/-- What a step does to the text and the depth of a page at which it is taken. -/
structure LaysOut (s : Step) (p : Page) : Prop where
  /-- Each line of a text is added under four spaces for each level, unless it is empty. -/
  line : ∀ text, s = .line text → (s.run p).chars = p.chars ++ (textLines text).flatMap fun l =>
    if l = [] then ['\n'] else List.replicate (4 * p.depth) ' ' ++ l ++ ['\n']
  /-- A blank step ends a line once more, unless the text is empty or was so ended. -/
  blank : s = .blank → (s.run p).chars =
    if p.chars = [] ∨ ['\n', '\n'] <:+ p.chars then p.chars else p.chars ++ ['\n']
  /-- A block is what it stands for, and ends at the depth at which it starts. -/
  block : ∀ header body, s = .block header body →
    s.run p = runAll p (blockSteps header body) ∧ (s.run p).depth = p.depth
  ended : (s.run p).chars = [] ∨ (s.run p).chars.getLast? = some '\n'

theorem Page.chars_write (p : Page) (text : String) :
    (p.write text).chars = p.chars ++ (textLines text).flatMap fun l =>
      if l = [] then ['\n'] else List.replicate (4 * p.depth) ' ' ++ l ++ ['\n'] := by
  rw [(writes_write p text).chars_eq, List.flatMap_map]
  simp only [Line.render, List.isEmpty_iff]
  rfl

theorem BlocksBalanced.laysOut {steps : List Step} (h : BlocksBalanced steps) {s : Step} {p : Page}
    (htakes : TakesStep .empty steps s p) : LaysOut s p where
  line text hs := by
    rw [hs]
    exact p.chars_write text
  blank hs := by
    rw [hs]
    exact (keptBySteps_isCut.takesStep htakes isCut_empty).chars_blank
  block header body hs := by
    have hbody := h.of_takesStep htakes hs
    rw [hs]
    exact ⟨(runAll_blockSteps p header body).symm, (hbody.followTree.inks_block header p).depth_eq⟩
  ended := (s.run p).ended_chars

/-- In a run of steps that match inside every block, each step is laid out at the depth at which it
is taken, blocks keep the depth, and the text always ends with a line. What stands in the text, line
by line, is what the tree says, under four spaces for each level. Blank steps do not add up, and
unless empty lines are written, no two of them follow each other and none comes first. -/
theorem steps_laid_out (steps : List Step) (h : BlocksBalanced steps) :
    (∀ s p, TakesStep .empty steps s p → LaysOut s p) ∧
    (endedLines (render steps)).filter (· ≠ []) =
      ((writingsOf 0 steps).filter (·.text ≠ [])).map
        (fun l => List.replicate (4 * l.depth) ' ' ++ l.text) ∧
    (∀ p : Page, p.blank.blank = p.blank) ∧
    ((∀ l ∈ writingsOf 0 steps, l.text ≠ []) →
      (endedLines (render steps)).IsChain (fun a b => a ≠ [] ∨ b ≠ []) ∧
      (endedLines (render steps)).head? ≠ some []) := by
  have hcut : (runAll .empty steps).IsCut :=
    keptBySteps_isCut.steps steps 0 (by simp) .empty isCut_empty
  refine ⟨fun s p htakes => h.laysOut htakes, ?_, Page.blank_blank, fun hinked => ?_⟩
  · have hinked : (runAll .empty steps).inked = (writingsOf 0 steps).filter (·.text ≠ []) :=
      (inks_steps (fun header body hmem => (h header body hmem).followTree) .empty).inked_eq
    rw [render, hcut.filter_endedLines, hinked]
  · exact (keptBySteps_isSpaced.steps steps 0 hinked .empty isSpaced_empty).endedLines_text hcut

/-- Lines that are broken and continued, blocks in a block, blank steps in a row and a dedent at the
margin. -/
def sketch : List Step := [
  .blank, .line "use a;\nuse b;", .blank, .blank,
  .block "impl A" [
    .block "fn b()" [.line "c()", .indent, .line ".d()\n.e();", .dedent, .blank], .line "f!();"],
  .dedent, .blank, .line "g!();"]

theorem blocksBalanced_sketch : BlocksBalanced sketch := by
  have hinner : AreBalanced [.line "c()", .indent, .line ".d()\n.e();", .dedent, .blank] :=
    .line _ (@AreBalanced.nested [_] [_] (.line _ .nil) (.blank .nil))
  intro header body hmem
  simp only [sketch, List.mem_cons, reduceCtorEq, List.not_mem_nil, false_or, or_false,
    Step.block.injEq] at hmem
  rw [hmem.2]
  exact .block _ hinner (.line _ .nil)

theorem steps_laid_out_sketch :
    BlocksBalanced sketch ∧ (∀ l ∈ writingsOf 0 sketch, l.text ≠ []) ∧
    render sketch = "use a;\nuse b;\n\nimpl A \x7b\n    fn b() \x7b\n        c()\n" ++
      "            .d()\n            .e();\n\n    \x7d\n    f!();\n\x7d\n\ng!();\n" ∧
    (∃ p, TakesStep .empty sketch (.line ".d()\n.e();") p ∧ p.depth = 3 ∧
      LaysOut (.line ".d()\n.e();") p) ∧
    (endedLines (render sketch)).filter (· ≠ []) =
      ((writingsOf 0 sketch).filter (·.text ≠ [])).map
        (fun l => List.replicate (4 * l.depth) ' ' ++ l.text) ∧
    (endedLines (render sketch)).IsChain (fun a b => a ≠ [] ∨ b ≠ []) ∧
    (endedLines (render sketch)).head? ≠ some [] := by
  have hwritings : ∀ l ∈ writingsOf 0 sketch, l.text ≠ [] := by decide +kernel
  have hrender : render sketch =
      "use a;\nuse b;\n\nimpl A \x7b\n    fn b() \x7b\n        c()\n" ++
      "            .d()\n            .e();\n\n    \x7d\n    f!();\n\x7d\n\ng!();\n" := by
    decide +kernel
  obtain ⟨htaken, hlines, -, hspaced⟩ := steps_laid_out sketch blocksBalanced_sketch
  obtain ⟨p, hp, hdepth⟩ :
      ∃ p, TakesStep .empty sketch (.line ".d()\n.e();") p ∧ p.depth = 3 :=
    -- Past the lines in front, into the outer block, and there into the inner one.
    ⟨_, .later (.later (.later (.later (.inside (.later (.later (.inside
      (.later (.later (.later (.later .here))))))))))), by decide +kernel⟩
  exact ⟨blocksBalanced_sketch, hwritings, hrender, ⟨p, hp, hdepth, htaken _ p hp⟩, hlines,
    hspaced hwritings⟩

end WireSchema.Source
