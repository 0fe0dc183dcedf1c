import WireSchema.Proofs.Identifier.Spelling
import WireSchema.Proofs.Source.Meaning
import WireSchema.Source.Tree

/-!
# Statements that a text makes

Modules are declared and types are re-exported by lines of their own at the left margin. They are
read off the text of a file after its header, line by line. What stands inside a block is indented,
whatever texts it is made of, so the statements of a file are those of its outermost steps.
-/
namespace WireSchema.Source

open Text

section Readings

variable {α : Type} (read : List Char → Option α)

def readings (text : List Char) : List α := (splitWhere (· == '\n') text).filterMap read

/-- What a reader finds in a text after its header. -/
def readingsAfter (header : List Step) (text : String) : List α :=
  ((text.toList.dropPrefix? (render header).toList).map (readings read)).getD []

/-- A reader of public items, which finds nothing in lines that start otherwise. -/
def ReadsItems : Prop := ∀ cs : List Char, cs[0]? ≠ some 'p' → read cs = none

/-- What a reader finds in an outermost step. -/
def Step.readings : Step → List α
  | .line text => Source.readings read text.toList
  | .block header _ => Source.readings read (header ++ " \x7b").toList
  | _ => []

end Readings

/-- What a line says between a keyword and its end. -/
def statement? (keyword : String) (line : List Char) : Option String :=
  (between? keyword ";" line).map String.ofList

def statementsAfter (keyword : String) : List Step → String → List String :=
  readingsAfter (statement? keyword)

variable {keyword : String}

theorem statement?_text {line keyword s : String} (h : line = keyword ++ s ++ ";") :
    statement? keyword line.toList = some s := by
  have htext : line.toList = keyword.toList ++ (s.toList ++ ";".toList) := by
    rw [h, String.toList_append, String.toList_append, List.append_assoc]
  rw [statement?, htext, between?_append, Option.map_some, String.ofList_toList]

theorem statement?_eq_none {line : List Char}
    (h : line.dropPrefix? keyword.toList = none) : statement? keyword line = none := by
  rw [statement?, between?_eq_none h, Option.map_none]

theorem dropPrefix?_of_ne {cs : List Char} (k : Nat) (hk : k < keyword.toList.length)
    (h : cs[k]? ≠ keyword.toList[k]?) : cs.dropPrefix? keyword.toList = none := by
  rw [Option.eq_none_iff_forall_ne_some]
  intro rest hrest
  obtain ⟨start, rfl, hstart⟩ := List.dropPrefix?_eq_some_iff.mp hrest
  obtain rfl := eq_of_beq hstart
  exact h (List.getElem?_append_left hk)

/-- The keywords of what a file says to the rest of the tree. -/
def itemKeywords : List String := ["pub mod ", "pub use "]

/-- A statement starts with the first letter of its keyword. -/
theorem readsItems_statement? (hkeyword : keyword ∈ itemKeywords) :
    ReadsItems (statement? keyword) := by
  intro cs h
  have hstart : ∀ keyword ∈ itemKeywords,
      0 < keyword.toList.length ∧ keyword.toList[0]? = some 'p' := by decide
  obtain ⟨hlength, hfirst⟩ := hstart keyword hkeyword
  exact statement?_eq_none (dropPrefix?_of_ne 0 hlength (hfirst ▸ h))

/-- A line as it stands in the text, without its end. -/
def Line.content (l : Line) : List Char :=
  if l.text.isEmpty then [] else List.replicate (4 * l.depth) ' ' ++ l.text

theorem Line.render_eq (l : Line) : l.render = l.content ++ ['\n'] := by
  unfold Line.render Line.content
  split_ifs <;> rfl

theorem Line.newline_notMem_content {l : Line} (h : '\n' ∉ l.text) : '\n' ∉ l.content := by
  unfold Line.content
  split_ifs
  · simp
  · simp [h]

theorem Line.content_of_depth_eq_zero {l : Line} (h : l.depth = 0) : l.content = l.text := by
  unfold Line.content
  split_ifs with hempty
  · exact (List.isEmpty_iff.mp hempty).symm
  · simp [h]

theorem splitWhere_flatMap_render {lines : List Line} (h : ∀ l ∈ lines, '\n' ∉ l.text) :
    splitWhere (· == '\n') (lines.flatMap Line.render) = lines.map Line.content ++ [[]] := by
  induction lines with
  | nil => rfl
  | cons l lines ih =>
    have hline := Line.newline_notMem_content (h l List.mem_cons_self)
    rw [List.flatMap_cons, Line.render_eq, List.append_assoc, List.singleton_append,
      splitWhere_append hline, ih fun k hk => h k (.tail _ hk)]
    rfl

section Items

variable {α : Type} {read : List Char → Option α}

theorem ReadsItems.content (hread : ReadsItems read) {l : Line} (h : 0 < l.depth) :
    read l.content = none := by
  apply hread
  unfold Line.content
  split_ifs
  · decide
  · obtain ⟨k, hk⟩ : ∃ k, 4 * l.depth = k + 1 := ⟨4 * l.depth - 1, by omega⟩
    simp [hk, List.replicate_succ]

/-- Lines are read back from the text that they make. -/
theorem ReadsItems.lines (hread : ReadsItems read) {lines : List Line}
    (h : ∀ l ∈ lines, '\n' ∉ l.text) :
    readings read (lines.flatMap Line.render) = lines.filterMap fun l => read l.content := by
  have hlast : read [] = none := hread [] (by decide)
  rw [readings, splitWhere_flatMap_render h, List.filterMap_append, List.filterMap_map,
    List.filterMap_cons_none hlast, List.filterMap_nil, List.append_nil]
  rfl

end Items

mutual

/-- Steps that indent by blocks only. -/
def Step.isNested : Step → Bool
  | .line _ => true
  | .blank => true
  | .indent => false
  | .dedent => false
  | .block _ body => areNested body

def areNested : List Step → Bool
  | [] => true
  | s :: steps => s.isNested && areNested steps

end

theorem areNested_append (a b : List Step) : areNested (a ++ b) = (areNested a && areNested b) := by
  induction a with
  | nil => rfl
  | cons s a ih => rw [List.cons_append, areNested, areNested, ih, Bool.and_assoc]

/-- The page `p'` is `p` with lines written, in their order, none of them less deep. -/
structure Page.Writes (p p' : Page) (lines : List Line) : Prop where
  lines_eq : p'.lines = lines.reverse ++ p.lines
  depth_eq : p'.depth = p.depth
  depth_le : ∀ l ∈ lines, p.depth ≤ l.depth
  newline_notMem : ∀ l ∈ lines, '\n' ∉ l.text

namespace Page

variable {p p' p'' : Page}

theorem Writes.refl (p : Page) : p.Writes p [] := ⟨by simp, rfl, by simp, by simp⟩

theorem Writes.trans {a b : List Line} (h : p.Writes p' a) (h' : p'.Writes p'' b) :
    p.Writes p'' (a ++ b) where
  lines_eq := by rw [h'.lines_eq, h.lines_eq, List.reverse_append, List.append_assoc]
  depth_eq := h'.depth_eq.trans h.depth_eq
  depth_le := by
    intro l hl
    rcases List.mem_append.mp hl with hl | hl
    · exact h.depth_le l hl
    · exact h.depth_eq ▸ h'.depth_le l hl
  newline_notMem := by
    intro l hl
    rcases List.mem_append.mp hl with hl | hl
    · exact h.newline_notMem l hl
    · exact h'.newline_notMem l hl

theorem Writes.chars_eq {lines : List Line} (h : p.Writes p' lines) :
    p'.chars = p.chars ++ lines.flatMap Line.render := by
  rw [chars, h.lines_eq, List.reverse_append, List.reverse_reverse, List.flatMap_append, chars]

theorem writes_push {text : List Char} (h : '\n' ∉ text) :
    p.Writes (p.push text) [⟨p.depth, text⟩] :=
  ⟨rfl, rfl, by simp, by simpa using h⟩

theorem writes_pushAll {pieces : List (List Char)} (h : ∀ piece ∈ pieces, '\n' ∉ piece) :
    p.Writes (pieces.foldl push p) (pieces.map (Line.mk p.depth)) := by
  induction pieces generalizing p with
  | nil => exact Writes.refl p
  | cons piece pieces ih =>
    have hfirst := writes_push (p := p) (h piece List.mem_cons_self)
    exact hfirst.trans (ih fun other hother => h other (.tail _ hother))

theorem writes_write (p : Page) (text : String) :
    p.Writes (p.write text) ((splitWhere (· == '\n') text.toList).map (Line.mk p.depth)) :=
  writes_pushAll fun piece hpiece hmem => by
    have hkept := (exists_mem_splitWhere_iff.mp ⟨piece, hpiece, hmem⟩).2
    simp at hkept

theorem writes_blank (p : Page) : ∃ lines, p.Writes p.blank lines ∧ ∀ l ∈ lines, l.text = [] := by
  unfold blank
  split_ifs
  · exact ⟨[], Writes.refl p, by simp⟩
  · exact ⟨[⟨p.depth, []⟩], writes_push (by simp), by simp⟩

/-- A block: its header, what its body writes one level deeper, and a brace. -/
theorem writes_block {header : String} {body : List Step} {lines : List Line}
    (h : (p.write (header ++ " \x7b")).indent.Writes
      (runAll (p.write (header ++ " \x7b")).indent body) lines) :
    p.Writes ((Step.block header body).run p)
        ((splitWhere (· == '\n') (header ++ " \x7b").toList).map (Line.mk p.depth) ++
          lines ++ [⟨p.depth, ['\x7d']⟩]) ∧
      ∀ l ∈ lines, p.depth < l.depth := by
  have hheader := writes_write p (header ++ " \x7b")
  have hindented : (p.write (header ++ " \x7b")).indent.depth = p.depth + 1 :=
    congrArg (· + 1) hheader.depth_eq
  have hdeep : ∀ l ∈ lines, p.depth < l.depth := by
    intro l hl
    have hle := h.depth_le l hl
    omega
  have hbody : (p.write (header ++ " \x7b")).Writes
      (runAll (p.write (header ++ " \x7b")).indent body).dedent lines := by
    refine ⟨h.lines_eq, ?_, ?_, h.newline_notMem⟩
    · have hdepth := h.depth_eq
      change (runAll (p.write (header ++ " \x7b")).indent body).depth - 1 = _
      rw [hdepth]
      rfl
    · intro l hl
      rw [hheader.depth_eq]
      exact Nat.le_of_lt (hdeep l hl)
  have hclosed := hheader.trans hbody
  have hbrace := writes_write (runAll (p.write (header ++ " \x7b")).indent body).dedent "\x7d"
  rw [hclosed.depth_eq] at hbrace
  exact ⟨hclosed.trans hbrace, hdeep⟩

end Page

mutual

theorem writes_step : (s : Step) → s.isNested = true → (p : Page) →
    ∃ lines, p.Writes (s.run p) lines
  | .line text, _, p => ⟨_, p.writes_write text⟩
  | .blank, _, p =>
    let ⟨lines, hlines, _⟩ := p.writes_blank
    ⟨lines, hlines⟩
  | .block _ body, h, _ =>
    let ⟨_, hlines⟩ := writes_steps body h _
    ⟨_, (Page.writes_block hlines).1⟩

theorem writes_steps : (steps : List Step) → areNested steps = true → (p : Page) →
    ∃ lines, p.Writes (runAll p steps) lines
  | [], _, p => ⟨[], Page.Writes.refl p⟩
  | s :: steps, h, p => by
    obtain ⟨hs, hsteps⟩ := Bool.and_eq_true_iff.mp h
    obtain ⟨first, hfirst⟩ := writes_step s hs p
    obtain ⟨rest, hrest⟩ := writes_steps steps hsteps (s.run p)
    exact ⟨first ++ rest, hfirst.trans hrest⟩

end

section Items

variable {α : Type} {read : List Char → Option α}

theorem readings_margin {p : Page} (hp : p.depth = 0) (text : String) :
    ((splitWhere (· == '\n') text.toList).map (Line.mk p.depth)).filterMap
      (fun l => read l.content) = readings read text.toList := by
  rw [List.filterMap_map, readings]
  apply List.filterMap_congr
  intro piece _
  exact congrArg read (Line.content_of_depth_eq_zero hp)

theorem ReadsItems.step (hread : ReadsItems read) {s : Step} (hs : s.isNested = true)
    {p : Page} (hp : p.depth = 0) :
    ∃ lines, p.Writes (s.run p) lines ∧
      lines.filterMap (fun l => read l.content) = s.readings read := by
  cases s with
  | line text => exact ⟨_, p.writes_write text, readings_margin hp text⟩
  | blank =>
    obtain ⟨lines, hlines, hempty⟩ := p.writes_blank
    refine ⟨lines, hlines, List.filterMap_eq_nil_iff.mpr ?_⟩
    intro l hl
    have hcontent : l.content = [] := by simp [Line.content, hempty l hl]
    exact hread _ (by simp [hcontent])
  | indent => cases hs
  | dedent => cases hs
  | block header body =>
    obtain ⟨inner, hinner⟩ := writes_steps body hs (p.write (header ++ " \x7b")).indent
    obtain ⟨hblock, hdeep⟩ := Page.writes_block hinner
    refine ⟨_, hblock, ?_⟩
    have hnone : inner.filterMap (fun l => read l.content) = [] :=
      List.filterMap_eq_nil_iff.mpr fun l hl => hread.content (Nat.zero_lt_of_lt (hdeep l hl))
    have hbrace : [Line.mk p.depth ['\x7d']].filterMap (fun l => read l.content) = [] := by
      have hline : read (Line.mk p.depth ['\x7d']).content = none := by
        rw [Line.content_of_depth_eq_zero hp]
        exact hread _ (by simp)
      rw [List.filterMap_cons, hline]
      rfl
    rw [List.filterMap_append, List.filterMap_append, readings_margin hp, hnone, hbrace,
      List.append_nil, List.append_nil]
    rfl

theorem ReadsItems.steps (hread : ReadsItems read) {steps : List Step}
    (h : areNested steps = true) {p : Page} (hp : p.depth = 0) :
    ∃ lines, p.Writes (runAll p steps) lines ∧
      lines.filterMap (fun l => read l.content) = steps.flatMap (Step.readings read) := by
  induction steps generalizing p with
  | nil => exact ⟨[], Page.Writes.refl p, rfl⟩
  | cons s steps ih =>
    obtain ⟨hs, hsteps⟩ := Bool.and_eq_true_iff.mp h
    obtain ⟨first, hfirst, hsaid⟩ := hread.step hs hp
    obtain ⟨rest, hrest, hmore⟩ := ih hsteps (hfirst.depth_eq.trans hp)
    refine ⟨first ++ rest, hfirst.trans hrest, ?_⟩
    rw [List.filterMap_append, hsaid, hmore, List.flatMap_cons]

/-- After its header a file holds the items of its outermost steps. -/
theorem readingsAfter_render (hread : ReadsItems read) {header body : List Step}
    (hheader : areNested header = true) (hbody : areNested body = true) :
    readingsAfter read header (render (header ++ body)) = body.flatMap (Step.readings read) := by
  obtain ⟨front, hfront⟩ := writes_steps header hheader .empty
  obtain ⟨lines, hlines, hsaid⟩ :=
    hread.steps hbody (p := runAll .empty header) hfront.depth_eq
  have htext : (render (header ++ body)).toList =
      (render header).toList ++ lines.flatMap Line.render := by
    simp only [render, Page.text, String.toList_ofList, runAll_append, hlines.chars_eq]
  rw [readingsAfter, htext, dropPrefix?_append, Option.map_some, Option.getD_some,
    hread.lines hlines.newline_notMem, hsaid]

end Items

end WireSchema.Source
