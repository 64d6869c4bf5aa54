import Mathlib.Tactic.Common

/-! The tokens of a C file, as far as declarations need them: words and numerals, single
punctuators, and directives that are left out up to the end of their line. -/
namespace Swindle.Machine

inductive Token
  | word (w : List Char)
  | punct (c : Char)
  deriving DecidableEq, Repr

def isWordChar (c : Char) : Bool := c.isAlphanum || c == '_'

/-- The word read so far, last character first. -/
def flush (acc : List Char) : List Token := if acc = [] then [] else [.word acc.reverse]

/-- `none` is the rest of a directive. -/
def lex : Option (List Char) → List Char → List Token
  | none, [] => []
  | none, c :: cs => if c = '\n' then lex (some []) cs else lex none cs
  | some acc, [] => flush acc
  | some acc, c :: cs =>
    if isWordChar c then lex (some (c :: acc)) cs
    else if c = '#' then flush acc ++ lex none cs
    else if c.isWhitespace then flush acc ++ lex (some []) cs
    else flush acc ++ .punct c :: lex (some []) cs

def Separates (c : Char) : Prop := isWordChar c = false ∧ c ≠ '#'

instance : DecidablePred Separates := fun _ => inferInstanceAs (Decidable (_ ∧ _))

section Lex

variable {acc w cs : List Char} {c : Char}

theorem lex_wordChars (h : ∀ c ∈ w, isWordChar c) :
    lex (some acc) (w ++ cs) = lex (some (w.reverse ++ acc)) cs := by
  induction w generalizing acc with
  | nil => rfl
  | cons c w ih =>
    obtain ⟨hc, hw⟩ := List.forall_mem_cons.mp h
    rw [List.cons_append, lex, if_pos hc, ih hw]
    simp

theorem lex_separator (h : Separates c) :
    lex (some acc) (c :: cs) = flush acc ++
      if c.isWhitespace then lex (some []) cs else .punct c :: lex (some []) cs := by
  rw [lex, if_neg (Bool.eq_false_iff.mp h.1), if_neg h.2]
  split <;> rfl

theorem lex_word (h : ∀ c ∈ w, isWordChar c) (hw : w ≠ []) (hc : Separates c) :
    lex (some []) (w ++ c :: cs) = .word w :: lex (some []) (c :: cs) := by
  rw [lex_wordChars h, lex_separator hc, lex_separator hc, List.append_nil]
  simp [flush, hw]

theorem lex_space (h : Separates c) (hs : c.isWhitespace) :
    lex (some []) (c :: cs) = lex (some []) cs := by
  rw [lex_separator h, if_pos hs]
  rfl

theorem lex_punct (h : Separates c) (hs : c.isWhitespace = false) :
    lex (some []) (c :: cs) = .punct c :: lex (some []) cs := by
  rw [lex_separator h, if_neg (Bool.eq_false_iff.mp hs)]
  rfl

theorem lex_rest (h : '\n' ∉ w) : lex none (w ++ '\n' :: cs) = lex (some []) cs := by
  induction w with
  | nil => exact if_pos rfl
  | cons c w ih =>
    obtain ⟨hc, hw⟩ := not_or.mp (mt List.mem_cons.mpr h)
    rw [List.cons_append, lex, if_neg (Ne.symm hc), ih hw]

theorem lex_directive (h : '\n' ∉ w) :
    lex (some []) ('#' :: (w ++ '\n' :: cs)) = lex (some []) cs := by
  have hword : ¬isWordChar '#' := by decide
  rw [lex, if_neg hword, if_pos rfl, lex_rest h]
  rfl

end Lex

/-! Numerals. -/

def digitValue (c : Char) : ℕ :=
  if c.isDigit then c.toNat - '0'.toNat else c.toNat - 'a'.toNat + 10

/-- Hexadecimal in lower case, or decimal with or without `u`. No octal. -/
def numeral : List Char → Option ℕ
  | '0' :: 'x' :: ds => some (ds.foldl (fun n c => 16 * n + digitValue c) 0)
  | w =>
    let ds := w.takeWhile Char.isDigit
    let rest := w.dropWhile Char.isDigit
    if ds ≠ [] ∧ (rest = [] ∨ rest = ['u']) ∧ (ds.head? = some '0' → ds = ['0']) then
      some (Nat.ofDigitChars 10 ds 0)
    else none

theorem digitValue_digitChar : ∀ n < 16, digitValue n.digitChar = n := by decide

theorem isWordChar_digitChar : ∀ n < 16, isWordChar n.digitChar := by decide

theorem head?_toDigits {n : ℕ} (h : (Nat.toDigits 10 n).head? = some '0') : n = 0 := by
  induction n using Nat.strongRecOn with
  | ind n ih =>
    rw [Nat.toDigits_eq_if (by decide)] at h
    split at h
    · rename_i hlt
      have hdigit : ∀ m < 10, m.digitChar = '0' → m = 0 := by decide
      exact hdigit n hlt (Option.some.inj h)
    · rename_i hge
      have hzero : n / 10 = 0 := by
        apply ih (n / 10) (by omega)
        cases hd : Nat.toDigits 10 (n / 10) with
        | nil => exact absurd hd Nat.toDigits_ne_nil
        | cons d ds =>
          rw [hd] at h
          exact h
      omega

theorem numeral_toDigits (n : ℕ) : numeral (Nat.toDigits 10 n ++ ['u']) = some n := by
  have hdigits : ∀ c ∈ Nat.toDigits 10 n, c.isDigit := fun c hc =>
    Nat.isDigit_of_mem_toDigits (by decide) (by decide) hc
  have hne : Nat.toDigits 10 n ≠ [] := Nat.toDigits_ne_nil
  have hval : Nat.ofDigitChars 10 (Nat.toDigits 10 n) 0 = n :=
    Nat.ofDigitChars_toDigits (by decide) (by decide)
  have htake : (Nat.toDigits 10 n ++ ['u']).takeWhile Char.isDigit = Nat.toDigits 10 n := by
    rw [List.takeWhile_append_of_pos hdigits]
    simp
  have hdrop : (Nat.toDigits 10 n ++ ['u']).dropWhile Char.isDigit = ['u'] := by
    rw [List.dropWhile_append_of_pos hdigits]
    rfl
  have hlead : (Nat.toDigits 10 n).head? = some '0' → Nat.toDigits 10 n = ['0'] := fun h => by
    rw [head?_toDigits h]
    rfl
  unfold numeral
  split
  · -- no digit of a decimal numeral is an `x`
    rename_i ds heq
    have hx : 'x' ∈ Nat.toDigits 10 n ++ ['u'] := by
      rw [heq]
      simp
    simp only [List.mem_append, List.mem_singleton] at hx
    rcases hx with hx | hx
    · exact absurd (hdigits 'x' hx) (by decide)
    · cases hx
  · simp only [htake, hdrop, hval]
    exact if_pos ⟨hne, .inr trivial, hlead⟩

end Swindle.Machine
