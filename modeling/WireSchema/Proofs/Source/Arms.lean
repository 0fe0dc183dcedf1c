import WireSchema.Proofs.Identifier.Spelling
import WireSchema.Proofs.Source.Agreement
import WireSchema.Source.Interface

/-!
# What emitted matches say

The arms of an emitted match are read off their text: the key of an arm, the variant that it makes
and the path of the type inside. The text of a key may hold anything between its quotes, so an arm
is cut where its literal ends and not where an arrow stands.
-/
namespace WireSchema.Source

open Command Identifier Schema Text

/-- Splits the rest of a quoted text after the quote at its end. -/
def closeQuote : (escape : Bool) → List Char → Option (List Char × List Char)
  | _, [] => none
  | true, c :: cs => (closeQuote false cs).map (Prod.map (c :: ·) id)
  | false, c :: cs =>
    if c = '"' then some (['"'], cs)
    else (closeQuote (c == '\\') cs).map (Prod.map (c :: ·) id)

/-- The key at the front of an arm, and what follows it. -/
def readKey? : List Char → Option (DispatchKey × List Char)
  | '"' :: cs => do
    let (literal, rest) ← closeQuote false cs
    return (.wireName (← unquote? ('"' :: literal)), rest)
  | cs => do
    let n ← digits? 10 (cs.takeWhile (· != ' '))
    return (.number (← word? n), cs.dropWhile (· != ' '))

theorem closeQuote_append {word : List Char} (hquote : '"' ∉ word) (hslash : '\\' ∉ word)
    (cs : List Char) :
    closeQuote false (word ++ cs) = (closeQuote false cs).map (Prod.map (word ++ ·) id) := by
  induction word with
  | nil =>
    rw [List.nil_append]
    cases closeQuote false cs <;> rfl
  | cons c word ih =>
    simp only [List.mem_cons, not_or] at hquote hslash
    have hescape : (c == '\\') = false := by simpa using Ne.symm hslash.1
    rw [List.cons_append, closeQuote, if_neg (Ne.symm hquote.1), hescape, ih hquote.2 hslash.2]
    cases closeQuote false cs <;> rfl

theorem closeQuote_escape (c : Char) {word : List Char} (hquote : '"' ∉ word)
    (hslash : '\\' ∉ word) (cs : List Char) :
    closeQuote false ('\\' :: c :: word ++ cs) =
      (closeQuote false cs).map (Prod.map ('\\' :: c :: word ++ ·) id) := by
  rw [List.cons_append, List.cons_append, closeQuote, if_neg (by decide)]
  change (closeQuote true (c :: (word ++ cs))).map _ = _
  rw [closeQuote, closeQuote_append hquote hslash]
  cases closeQuote false cs <;> rfl

theorem notMem_hexDigits {x : Char} (hx : ∀ d < 16, x ≠ Nat.digitChar d) (n : Nat) :
    x ∉ Nat.toDigits 16 n := by
  induction n using Nat.strongRecOn with
  | ind n ih =>
    by_cases hn : n < 16
    · rw [Nat.toDigits_of_lt_base hn, List.mem_singleton]
      exact hx n hn
    · have hdiv : n / 16 < n := Nat.div_lt_self (by omega) (by decide)
      rw [Nat.toDigits_of_base_le (by decide) (Nat.le_of_not_lt hn), List.mem_append,
        List.mem_singleton, not_or]
      exact ⟨ih _ hdiv, hx _ (Nat.mod_lt n (by decide))⟩

theorem closeQuote_quoteChar (c : Char) (cs : List Char) :
    closeQuote false (quoteChar c ++ cs) =
      (closeQuote false cs).map (Prod.map (quoteChar c ++ ·) id) := by
  unfold quoteChar
  split_ifs with hquote hslash hn hr ht hzero hshown
  iterate 6 exact closeQuote_escape _ (by simp) (by simp) cs
  · exact closeQuote_append (by simpa using Ne.symm hquote) (by simpa using Ne.symm hslash) cs
  · apply closeQuote_escape
    · simp [notMem_hexDigits (x := '"') (by decide)]
    · simp [notMem_hexDigits (x := '\\') (by decide)]

theorem closeQuote_quoted (cs rest : List Char) :
    closeQuote false (cs.flatMap quoteChar ++ '"' :: rest) =
      some (cs.flatMap quoteChar ++ ['"'], rest) := by
  induction cs with
  | nil => rfl
  | cons c cs ih =>
    rw [List.flatMap_cons, List.append_assoc, closeQuote_quoteChar, ih]
    simp

theorem readKey?_pattern (k : DispatchKey) (rest : List Char) :
    readKey? (k.pattern.toList ++ ' ' :: rest) = some (k, ' ' :: rest) := by
  cases k with
  | wireName name =>
    have hquoted := unquote?_quoted name
    rw [DispatchKey.pattern, quoted, String.toList_ofList, List.cons_append, List.cons_append,
      List.append_assoc, List.singleton_append, readKey?, closeQuote_quoted]
    rw [quoted, String.toList_ofList, List.cons_append] at hquoted
    simp [hquoted]
  | number n =>
    have htext : (DispatchKey.number n).pattern.toList = (toString n.toNat).toList := rfl
    have hspace := space_notMem_toString n.toNat
    have hdigits := digits?_toString n.toNat
    have hword : word? n.toNat = some n := by simp [word?, n.toNat_lt_size]
    rw [htext]
    unfold readKey?
    split
    · -- A number does not start with a quote.
      rename_i cs hcs
      cases hnumber : (toString n.toNat).toList with
      | nil =>
        rw [hnumber] at hdigits
        simp [digits?, guard] at hdigits
      | cons c digits =>
        rw [hnumber, List.cons_append] at hcs
        obtain ⟨rfl, -⟩ := List.cons.inj hcs
        rw [hnumber] at hdigits
        simp [digits?, digit?] at hdigits
    · rw [takeWhile_append_of_notMem hspace, dropWhile_append_of_notMem hspace, hdigits]
      simp [hword]

/-- The variant of an enumeration at the front of a text, and what follows the bracket after it. -/
def readVariant? (text : List Char) : Option ((String × String) × List Char) := do
  let rest ← (text.dropWhile (· != ':')).dropPrefix? "::".toList
  let inner ← (rest.dropWhile (· != '(')).dropPrefix? "(".toList
  return ((String.ofList (text.takeWhile (· != ':')), String.ofList (rest.takeWhile (· != '('))),
    inner)

theorem readVariant?_append {enum variant : String} (henum : ':' ∉ enum.toList)
    (hvariant : '(' ∉ variant.toList) (inner : List Char) :
    readVariant? (enum.toList ++ ("::".toList ++ (variant.toList ++ ("(".toList ++ inner)))) =
      some ((enum, variant), inner) := by
  have hrest : ∀ rest : List Char, (enum.toList ++ ("::".toList ++ rest)).dropWhile (· != ':') =
      "::".toList ++ rest := fun rest => dropWhile_append_of_notMem henum (':' :: rest)
  have hinner : (variant.toList ++ ("(".toList ++ inner)).dropWhile (· != '(') =
      "(".toList ++ inner := dropWhile_append_of_notMem hvariant inner
  have hname : ∀ rest : List Char, (enum.toList ++ ("::".toList ++ rest)).takeWhile (· != ':') =
      enum.toList := fun rest => takeWhile_append_of_notMem henum (':' :: rest)
  have hcase : (variant.toList ++ ("(".toList ++ inner)).takeWhile (· != '(') = variant.toList :=
    takeWhile_append_of_notMem hvariant inner
  simp only [readVariant?, hrest, hname, dropPrefix?_append, Option.bind_eq_bind, Option.bind_some,
    hinner, hcase, String.ofList_toList]
  rfl

/-- An arm that makes a variant from a key, with the enumeration of the variant. The content tells
the path of the type inside. -/
def readArm? (path? : List Char → Option (List Char)) (text : List Char) :
    Option (String × Variant) := do
  let (key, rest) ← readKey? text
  let rest ← rest.dropPrefix? " => Ok(".toList
  let ((enum, ident), rest) ← readVariant? rest
  let content ← rest.dropSuffix? ")),".toList
  return (enum, ⟨ident, String.ofList (← path? content), key⟩)

def readArms? (path? : List Char → Option (List Char)) :
    List Step → Option (List (String × Variant))
  | [.line text] => if "_ => ".toList.isPrefixOf text.toList then some [] else none
  | .line text :: steps => do return (← readArm? path? text.toList) :: (← readArms? path? steps)
  | _ => none

/-- What an empty value is made of. -/
def createdPath? (content : List Char) : Option (List Char) :=
  content.dropSuffix? "::default()".toList

/-- What a value is read as. -/
def decodedPath? (content : List Char) : Option (List Char) :=
  between? "<" " as Xdr>::deserialize(de)?" content

/-- The function of an enumeration whose header starts as given. -/
def enumFunction? (file : List Step) (enum start : String) : Option (List Step) := do
  let items ← block? (· == "impl " ++ enum) file
  block? (fun header => start.toList.isPrefixOf header.toList) items

/-- The arms of a function that does nothing but match on its key. -/
def keyArms? (file : List Step) (enum start key : String)
    (path? : List Char → Option (List Char)) : Option (List (String × Variant)) :=
  match enumFunction? file enum start with
  | some [.block header arms] => if header = "match " ++ key then readArms? path? arms else none
  | _ => none

def createArms? (file : List Step) (enum key : String) : Option (List (String × Variant)) :=
  keyArms? file enum ("pub fn create(" ++ key ++ ": ") key createdPath?

def decodeArms? (file : List Step) (enum key : String) : Option (List (String × Variant)) :=
  keyArms? file enum ("pub fn decode(" ++ key ++ ": ") key decodedPath?

/-- A variant of the requests and the variant of the responses with which it is paired. -/
structure Pairing where
  request : String × String
  response : Option (String × String)
deriving DecidableEq, Repr

def readPairing? (text : List Char) : Option Pairing := do
  let (request, rest) ← readVariant? text
  if rest = "_) => None,".toList then return ⟨request, none⟩
  else
    let rest ← rest.dropPrefix? "request) => Some(".toList
    let (response, rest) ← readVariant? rest
    if rest = "request.create_default_response())),".toList then return ⟨request, some response⟩
    else none

def readPairings? : List Step → Option (List Pairing)
  | [] => some []
  | .line text :: steps => do return (← readPairing? text.toList) :: (← readPairings? steps)
  | _ => none

/-- The arms by which requests are paired with empty responses. Without a request there are none. -/
def pairings? (file : List Step) (enum : String) : Option (List Pairing) :=
  match enumFunction? file enum "pub fn create_default_response(&self) -> Option<" with
  | some [.line text] => if text = "match *self \x7b\x7d" then some [] else none
  | some [.block header arms] => if header = "match self" then readPairings? arms else none
  | _ => none

/-- The identifiers of an enumeration and of its variants are free of the signs around them. -/
structure DispatchEnum.Plain (d : DispatchEnum) : Prop where
  ident : ':' ∉ d.ident.toList
  variants : ∀ v ∈ d.variants, '(' ∉ v.ident.toList

variable {d : DispatchEnum} {t : Target}

theorem readArm?_text {v : Variant} (hident : ':' ∉ d.ident.toList)
    (hvariant : '(' ∉ v.ident.toList) {path? : List Char → Option (List Char)} {content : String}
    (hpath : path? content.toList = some v.path.toList) :
    readArm? path? (s!"{v.key.pattern} => Ok({d.ident}::{v.ident}({content})),").toList =
      some (d.ident, v) := by
  have htext : (s!"{v.key.pattern} => Ok({d.ident}::{v.ident}({content})),").toList =
      v.key.pattern.toList ++ (" => Ok(".toList ++ (d.ident.toList ++ ("::".toList ++
        (v.ident.toList ++ ("(".toList ++ (content.toList ++ ")),".toList)))))) := by
    simp only [String.toList_append, List.append_assoc]
    rfl
  have hkey : ∀ rest, readKey? (v.key.pattern.toList ++ (" => Ok(".toList ++ rest)) =
      some (v.key, " => Ok(".toList ++ rest) := fun rest => readKey?_pattern v.key _
  rw [htext]
  simp only [readArm?, hkey, Option.bind_eq_bind, Option.bind_some, dropPrefix?_append,
    readVariant?_append hident hvariant, dropSuffix?_append, hpath, String.ofList_toList]
  rfl

/-- All arms of a match on a key are read back, in their order. -/
theorem readArms?_keyArms (hd : d.Plain) {path? : List Char → Option (List Char)}
    {content : Variant → String}
    (hpath : ∀ v, path? (content v).toList = some v.path.toList) :
    readArms? path? (d.keyArms t content) = some (d.variants.map fun v => (d.ident, v)) := by
  have hlast : "_ => ".toList.isPrefixOf (s!"_ => {d.unknown t},").toList = true := by
    simp only [String.toList_append, List.append_assoc]
    exact List.isPrefixOf_iff_prefix.mpr (List.prefix_append ..)
  have hlines : ∀ variants : List Variant, (∀ v ∈ variants, '(' ∉ v.ident.toList) →
      readArms? path? (variants.map (fun v =>
        .line s!"{v.key.pattern} => Ok({d.ident}::{v.ident}({content v})),") ++
          [.line s!"_ => {d.unknown t},"]) = some (variants.map fun v => (d.ident, v)) := by
    intro variants hvariants
    induction variants with
    | nil => simp only [List.map_nil, List.nil_append, readArms?, hlast, if_true]
    | cons v variants ih =>
      have hrest := ih fun w hw => hvariants w (.tail _ hw)
      have hv := readArm?_text hd.ident (hvariants v List.mem_cons_self) (hpath v)
      rw [List.map_cons, List.cons_append, readArms?, hv, hrest]
      · rfl
      · simp
  exact hlines d.variants hd.variants

theorem createdPath?_text (path : String) :
    createdPath? (s!"{path}::default()").toList = some path.toList := by
  have htext : (s!"{path}::default()").toList = path.toList ++ "::default()".toList := by
    simp only [String.toList_append]
    rfl
  rw [htext, createdPath?, dropSuffix?_append]

theorem decodedPath?_text (path : String) :
    decodedPath? (s!"<{path} as Xdr>::deserialize(de)?").toList = some path.toList := by
  have htext : (s!"<{path} as Xdr>::deserialize(de)?").toList =
      "<".toList ++ (path.toList ++ " as Xdr>::deserialize(de)?".toList) := by
    simp only [String.toList_append, List.append_assoc]
    rfl
  rw [htext, decodedPath?, between?_append]

section Pairings

variable {request response variant : String} (hrequest : ':' ∉ request.toList)
  (hresponse : ':' ∉ response.toList) (hvariant : '(' ∉ variant.toList)

include hrequest hvariant in
theorem readPairing?_none :
    readPairing? (s!"{request}::{variant}(_) => None,").toList =
      some ⟨(request, variant), none⟩ := by
  have htext : (s!"{request}::{variant}(_) => None,").toList =
      request.toList ++ ("::".toList ++
        (variant.toList ++ ("(".toList ++ "_) => None,".toList))) := by
    simp only [String.toList_append, List.append_assoc]
    rfl
  rw [htext, readPairing?, readVariant?_append hrequest hvariant, Option.bind_eq_bind,
    Option.bind_some]
  exact if_pos rfl

include hrequest hresponse hvariant in
theorem readPairing?_some :
    readPairing? (s!"{request}::{variant}(request) => " ++
        s!"Some({response}::{variant}(request.create_default_response())),").toList =
      some ⟨(request, variant), some (response, variant)⟩ := by
  have htext : (s!"{request}::{variant}(request) => " ++
      s!"Some({response}::{variant}(request.create_default_response())),").toList =
      request.toList ++ ("::".toList ++ (variant.toList ++ ("(".toList ++
        ("request) => Some(".toList ++ (response.toList ++ ("::".toList ++
          (variant.toList ++ ("(".toList ++
            "request.create_default_response())),".toList)))))))) := by
    simp only [String.toList_append, List.append_assoc]
    rfl
  have hne : ∀ rest : List Char, "request) => Some(".toList ++ rest ≠ "_) => None,".toList := by
    intro rest heq
    exact absurd (List.cons.inj heq).1 (by decide)
  rw [htext, readPairing?, readVariant?_append hrequest hvariant, Option.bind_eq_bind,
    Option.bind_some]
  refine (if_neg (hne _)).trans ?_
  rw [dropPrefix?_append, Option.bind_eq_bind, Option.bind_some,
    readVariant?_append hresponse hvariant, Option.bind_some]
  exact if_pos rfl

end Pairings

/-- A block that is not selected is passed over, and so is all that is no block. -/
theorem block?_append_of_not_selected {selected : String → Bool} {before rest : List Step}
    (h : ∀ header body, Step.block header body ∈ before → selected header = false) :
    block? selected (before ++ rest) = block? selected rest := by
  induction before with
  | nil => rfl
  | cons step before ih =>
    have hrest := ih fun header body hmem => h header body (.tail _ hmem)
    cases step with
    | block header body =>
      rw [List.cons_append, Target.block?_cons_of_not_selected (h header body List.mem_cons_self),
        hrest]
    | line text => exact hrest
    | blank => exact hrest
    | indent => exact hrest
    | dedent => exact hrest

section Functions

variable {file comment extra : List Step} {start : String}

/-- The function of an enumeration is sought in its block, after comments. -/
theorem enumFunction?_eq (hcomment : ∀ header body, Step.block header body ∉ comment)
    (h : block? (· == "impl " ++ d.ident) file = some (comment ++ d.functions t extra)) :
    enumFunction? file d.ident start =
      block? (fun header => start.toList.isPrefixOf header.toList) (d.functions t extra) := by
  rw [enumFunction?, h]
  exact block?_append_of_not_selected fun header body hmem => absurd hmem (hcomment header body)

theorem keyArms?_eq (hd : d.Plain) {path? : List Char → Option (List Char)}
    {content : Variant → String} (hpath : ∀ v, path? (content v).toList = some v.path.toList)
    (h : enumFunction? file d.ident start =
      some [.block ("match " ++ d.kind.key) (d.keyArms t content)]) :
    keyArms? file d.ident start d.kind.key path? =
      some (d.variants.map fun v => (d.ident, v)) := by
  rw [keyArms?, h]
  exact (if_pos rfl).trans (readArms?_keyArms hd hpath)

theorem createArms?_eq (hd : d.Plain) (hcomment : ∀ header body, Step.block header body ∉ comment)
    (h : block? (· == "impl " ++ d.ident) file = some (comment ++ d.functions t extra)) :
    createArms? file d.ident d.kind.key = some (d.variants.map fun v => (d.ident, v)) := by
  refine keyArms?_eq (t := t) hd (fun v => createdPath?_text v.path) ?_
  rw [enumFunction?_eq hcomment h]
  apply Target.block?_cons_of_selected
  simp only [String.append_assoc, String.toList_append]
  exact List.isPrefixOf_iff_prefix.mpr ⟨_, by simp only [List.append_assoc]; rfl⟩

theorem decodeArms?_eq (hd : d.Plain) (hcomment : ∀ header body, Step.block header body ∉ comment)
    (h : block? (· == "impl " ++ d.ident) file = some (comment ++ d.functions t extra)) :
    decodeArms? file d.ident d.kind.key = some (d.variants.map fun v => (d.ident, v)) := by
  refine keyArms?_eq (t := t) hd (fun v => decodedPath?_text v.path) ?_
  rw [enumFunction?_eq hcomment h]
  refine (Target.block?_cons_of_not_selected ?_).trans
    (Target.block?_blank.trans (Target.block?_cons_of_selected ?_))
  · simp only [String.append_assoc, String.toList_append]
    rfl
  · simp only [String.append_assoc, String.toList_append]
    exact List.isPrefixOf_iff_prefix.mpr ⟨_, by simp only [List.append_assoc]; rfl⟩

end Functions

end WireSchema.Source
