import Mathlib.Data.Option.Basic
import Mathlib.Tactic.SplitIfs
import WireSchema.Command.Numeral
import WireSchema.Text.Quoted

/-!
# Reading literals back

Numbers and quoted texts are read back from the literals that they are written as. So a literal in
emitted source determines what it stands for.
-/
namespace WireSchema

open Command

namespace Command

theorem digit?_digitChar {base n : Nat} (hbase : base ≤ 16) (hn : n < base) :
    digit? base n.digitChar = some n := by
  have hvalue : ∀ m < 16, digit? 16 m.digitChar = some m := by decide
  have hm := hvalue n (by omega)
  unfold digit? at hm ⊢
  obtain ⟨hm, -⟩ := Option.filter_eq_some_iff.mp hm
  exact Option.filter_eq_some_iff.mpr ⟨hm, by simpa using hn⟩

theorem digits?_toDigits {base : Nat} (hbase : 1 < base) (hle : base ≤ 16) (n : Nat) :
    digits? base (Nat.toDigits base n) = some n := by
  have hmap : ∃ values, (Nat.toDigits base n).mapM (digit? base) = some values ∧ values ≠ [] ∧
      values.foldl (fun n d => base * n + d) 0 = n := by
    induction n using Nat.strongRecOn with
    | ind n ih =>
      by_cases hn : n < base
      · refine ⟨[n], ?_, by simp, by simp⟩
        rw [Nat.toDigits_of_lt_base hn]
        simp [digit?_digitChar hle hn]
      · have hpos : 0 < base := by omega
        have hdiv : n / base < n := Nat.div_lt_self (by omega) hbase
        obtain ⟨values, hvalues, -, hsum⟩ := ih _ hdiv
        refine ⟨values ++ [n % base], ?_, by simp, ?_⟩
        · rw [Nat.toDigits_of_base_le hbase (Nat.le_of_not_lt hn), List.mapM_append, hvalues]
          simp [digit?_digitChar hle (Nat.mod_lt n hpos)]
        · rw [List.foldl_append, hsum]
          exact Nat.div_add_mod n base
  obtain ⟨values, hvalues, hne, hsum⟩ := hmap
  simp [digits?, hvalues, hne, hsum, guard]

end Command

namespace Text

def integer? : List Char → Option Int
  | '-' :: cs => (digits? 10 cs).map fun n => -(n : Int)
  | cs => (digits? 10 cs).map fun n => (n : Int)

theorem digits?_toString (n : Nat) : digits? 10 (toString n).toList = some n := by
  rw [show (toString n).toList = Nat.toDigits 10 n from Nat.toList_repr]
  exact digits?_toDigits (by decide) (by decide) n

theorem integer?_toString (v : Int) : integer? (toString v).toList = some v := by
  cases v with
  | ofNat n =>
    have hdigits := digits?_toString n
    have hcs : (toString (Int.ofNat n)).toList = (toString n).toList := rfl
    rw [hcs]
    unfold integer?
    split
    · rename_i cs hminus
      rw [hminus] at hdigits
      simp [digits?, digit?] at hdigits
    · rw [hdigits]
      rfl
  | negSucc n =>
    have hcs : (toString (Int.negSucc n)).toList = '-' :: (toString (n + 1)).toList := by
      rw [show toString (Int.negSucc n) = "-" ++ toString (n + 1) from rfl, String.toList_append]
      rfl
    rw [hcs, integer?, digits?_toString]
    rfl

/-- The character that a backslash and another character stand for. -/
def escapedChar? : Char → Option Char
  | '"' => some '"'
  | '\\' => some '\\'
  | 'n' => some '\n'
  | 'r' => some '\r'
  | 't' => some '\t'
  | '0' => some '\x00'
  | _ => none

inductive QuoteState where
  | plain
  /-- After a backslash. -/
  | escape
  /-- After the letter of a code point escape. -/
  | brace
  /-- Inside the braces of a code point escape. -/
  | code (n : Nat)

/-- The rest of a quoted text, up to the quote at its end. -/
def unquoteFrom : QuoteState → List Char → Option (List Char)
  | _, [] => none
  | .plain, c :: cs =>
    if c = '"' then if cs.isEmpty then some [] else none
    else if c = '\\' then unquoteFrom .escape cs
    else (unquoteFrom .plain cs).map (c :: ·)
  | .escape, c :: cs =>
    if c = 'u' then unquoteFrom .brace cs
    else (escapedChar? c).bind fun d => (unquoteFrom .plain cs).map (d :: ·)
  | .brace, c :: cs => if c = '\x7b' then unquoteFrom (.code 0) cs else none
  | .code n, c :: cs =>
    if c = '\x7d' then (unquoteFrom .plain cs).map (Char.ofNat n :: ·)
    else (digit? 16 c).bind fun d => unquoteFrom (.code (16 * n + d)) cs

def unquote? : List Char → Option String
  | '"' :: cs => (unquoteFrom .plain cs).map String.ofList
  | _ => none

theorem unquoteFrom_code_digit {n d : Nat} (hd : d < 16) (cs : List Char) :
    unquoteFrom (.code n) (d.digitChar :: cs) = unquoteFrom (.code (16 * n + d)) cs := by
  have hdigit : digit? 16 d.digitChar = some d := digit?_digitChar (by decide) hd
  have hbrace : d.digitChar ≠ '\x7d' := by
    intro hc
    rw [hc] at hdigit
    simp [digit?] at hdigit
  rw [unquoteFrom, if_neg hbrace, hdigit]
  rfl

theorem unquoteFrom_code_toDigits (n : Nat) (cs : List Char) :
    unquoteFrom (.code 0) (Nat.toDigits 16 n ++ cs) = unquoteFrom (.code n) cs := by
  induction n using Nat.strongRecOn generalizing cs with
  | ind n ih =>
    by_cases hn : n < 16
    · rw [Nat.toDigits_of_lt_base hn]
      simpa using unquoteFrom_code_digit (n := 0) hn cs
    · have hdiv : n / 16 < n := Nat.div_lt_self (by omega) (by decide)
      rw [Nat.toDigits_of_base_le (by decide) (Nat.le_of_not_lt hn), List.append_assoc, ih _ hdiv,
        List.singleton_append, unquoteFrom_code_digit (Nat.mod_lt n (by decide)), Nat.div_add_mod]

theorem unquoteFrom_quoteChar (c : Char) (cs : List Char) :
    unquoteFrom .plain (quoteChar c ++ cs) = (unquoteFrom .plain cs).map (c :: ·) := by
  unfold quoteChar
  split_ifs with hquote hslash hn hr ht hzero hshown
  · simp [unquoteFrom, escapedChar?, hquote]
  · simp [unquoteFrom, escapedChar?, hslash]
  · simp [unquoteFrom, escapedChar?, hn]
  · simp [unquoteFrom, escapedChar?, hr]
  · simp [unquoteFrom, escapedChar?, ht]
  · simp [unquoteFrom, escapedChar?, hzero]
  · simp [unquoteFrom, hquote, hslash]
  · simp [codePointEscape, unquoteFrom, unquoteFrom_code_toDigits]

theorem unquote?_quoted (s : String) : unquote? (quoted s).toList = some s := by
  have hchars : ∀ cs : List Char,
      unquoteFrom .plain (cs.flatMap quoteChar ++ ['"']) = some cs := by
    intro cs
    induction cs with
    | nil => rfl
    | cons c cs ih =>
      rw [List.flatMap_cons, List.append_assoc, unquoteFrom_quoteChar, ih]
      rfl
  rw [quoted, String.toList_ofList, List.cons_append, unquote?, hchars, Option.map_some,
    String.ofList_toList]

end Text
end WireSchema
