import HttpsDnsProxy.Bytes
import HttpsDnsProxy.CStrings
import Mathlib.Data.List.TakeWhile

/-!
# `strtoul`

`strtoul` reads an integer in base 10 off the start of a string, into an `unsigned long` of 64
bits : blanks, a sign, digits. A number that does not fit gives the largest value, a minus sign
negates what does fit modulo `2 ^ 64`, and without a digit nothing is read, blanks and sign
included.

`DecimalLiteral` is a text of just this form, with the integer it stands for.

* `strtoul_text` : what `strtoul` makes of a literal;
* `eq_nil_or_literal` : a string that `strtoul` reads to its end is empty or a literal;
* `DecimalLiteral.value_eq` : the integer is determined by the text.
-/

namespace CStrings

open Bytes

/-- `isspace` in the C locale. -/
def isSpace (c : Char) : Bool :=
  c = ' ' || (9 ≤ c.toNat && c.toNat ≤ 13)

/-- The sign at the start of a string, with what follows it. -/
def takeSign : CString → Bool × CString
  | '-' :: s => (true, s)
  | '+' :: s => (false, s)
  | s => (false, s)

/-- `strtoul(str, &endptr, 10)` : the value, and the string at `endptr`. -/
def strtoul (str : CString) : ℕ × CString :=
  let (negative, s) := takeSign (str.dropWhile isSpace)
  let digits := s.takeWhile Char.isDigit
  if digits = [] then (0, str)
  else
    let n := Nat.ofDigitChars 10 digits 0
    (if n ≥ 2 ^ 64 then 2 ^ 64 - 1 else if negative then wrapSub (2 ^ 64) 0 n else n,
      s.dropWhile Char.isDigit)

/-- The sign of a literal. -/
inductive Sign where
  | absent
  | plus
  | minus
  deriving DecidableEq, Repr

/-- The sign as it is written. -/
def Sign.text : Sign → CString
  | .absent => []
  | .plus => ['+']
  | .minus => ['-']

/-- A decimal integer literal : blanks, perhaps a sign, and at least one digit. -/
structure DecimalLiteral where
  blanks : CString
  sign : Sign
  digits : CString
  isSpace_blanks : ∀ c ∈ blanks, isSpace c = true
  isDigit_digits : ∀ c ∈ digits, c.isDigit = true
  digits_ne : digits ≠ []

/-- The integer that a sign and digits stand for. -/
def signedValue (negative : Bool) (digits : CString) : ℤ :=
  if negative then -(Nat.ofDigitChars 10 digits 0 : ℤ) else Nat.ofDigitChars 10 digits 0

namespace DecimalLiteral

variable (l : DecimalLiteral)

/-- The literal as it is written. -/
def text : CString :=
  l.blanks ++ (l.sign.text ++ l.digits)

/-- The integer it stands for. -/
def value : ℤ :=
  signedValue (l.sign = .minus) l.digits

theorem text_ne_nil : l.text ≠ [] := by
  simp [text, l.digits_ne]

end DecimalLiteral

/-! ## Blanks, sign, digits -/

theorem isSpace_of_isDigit {c : Char} (h : c.isDigit = true) : isSpace c = false := by
  have hdigit : 48 ≤ c.toNat := by
    simp only [Char.isDigit, Bool.and_eq_true, decide_eq_true_eq] at h
    exact UInt32.le_iff_toNat_le.1 h.1
  have hne : c ≠ ' ' := by
    rintro rfl
    exact absurd hdigit (by decide)
  have hle : ¬c.toNat ≤ 13 := by omega
  simp [isSpace, hne, hle]

theorem takeSign_append (sign : Sign) {digits : CString} (hne : digits ≠ [])
    (h : ∀ c ∈ digits, c.isDigit = true) :
    takeSign (sign.text ++ digits) = (decide (sign = .minus), digits) := by
  cases sign with
  | plus => rfl
  | minus => rfl
  | absent =>
    obtain ⟨c, cs, rfl⟩ := List.exists_cons_of_ne_nil hne
    have hc : c.isDigit = true := h c (List.mem_cons_self ..)
    have hminus : c ≠ '-' := by
      rintro rfl
      exact absurd hc (by decide)
    have hplus : c ≠ '+' := by
      rintro rfl
      exact absurd hc (by decide)
    unfold takeSign
    split
    · rename_i heq
      exact absurd (List.cons.inj heq).1 hminus
    · rename_i heq
      exact absurd (List.cons.inj heq).1 hplus
    · rfl

/-- What follows the sign, put together again. -/
theorem exists_sign (s : CString) :
    ∃ sign : Sign, s = sign.text ++ (takeSign s).2 ∧ (takeSign s).1 = decide (sign = .minus) := by
  unfold takeSign
  split
  · exact ⟨.minus, rfl, rfl⟩
  · exact ⟨.plus, rfl, rfl⟩
  · exact ⟨.absent, rfl, rfl⟩

theorem DecimalLiteral.dropWhile_text (l : DecimalLiteral) :
    l.text.dropWhile isSpace = l.sign.text ++ l.digits := by
  rw [text, List.dropWhile_append_of_pos l.isSpace_blanks]
  -- neither a sign nor a digit is a blank
  have hhead : ∀ c cs, l.sign.text ++ l.digits = c :: cs → isSpace c = false := by
    intro c cs heq
    cases hsign : l.sign with
    | absent =>
      rw [hsign] at heq
      have hmem : c ∈ l.digits := by
        rw [show l.digits = c :: cs from heq]
        exact List.mem_cons_self ..
      exact isSpace_of_isDigit (l.isDigit_digits c hmem)
    | plus =>
      rw [hsign] at heq
      rw [← (List.cons.inj heq).1]
      decide
    | minus =>
      rw [hsign] at heq
      rw [← (List.cons.inj heq).1]
      decide
  cases hrest : l.sign.text ++ l.digits with
  | nil => rfl
  | cons c cs => rw [List.dropWhile_cons_of_neg (by simp [hhead c cs hrest])]

/-- The integer is determined by the text. -/
theorem DecimalLiteral.value_eq (l : DecimalLiteral) :
    l.value = signedValue (takeSign (l.text.dropWhile isSpace)).1
      (takeSign (l.text.dropWhile isSpace)).2 := by
  rw [l.dropWhile_text, takeSign_append l.sign l.digits_ne l.isDigit_digits, value]

/-! ## Reading -/

/-- A literal is read to its end. -/
theorem strtoul_text (l : DecimalLiteral) :
    strtoul l.text =
      (if Nat.ofDigitChars 10 l.digits 0 ≥ 2 ^ 64 then 2 ^ 64 - 1
        else if l.sign = .minus then wrapSub (2 ^ 64) 0 (Nat.ofDigitChars 10 l.digits 0)
        else Nat.ofDigitChars 10 l.digits 0, []) := by
  have htake : l.digits.takeWhile Char.isDigit = l.digits :=
    List.takeWhile_eq_self_iff.2 l.isDigit_digits
  have hdrop : l.digits.dropWhile Char.isDigit = [] :=
    List.dropWhile_eq_nil_iff.2 l.isDigit_digits
  unfold strtoul
  simp only [l.dropWhile_text, takeSign_append l.sign l.digits_ne l.isDigit_digits, htake, hdrop,
    if_neg l.digits_ne, decide_eq_true_eq]

/-- A string that is read to its end is empty or a literal. -/
theorem eq_nil_or_literal {str : CString} (h : (strtoul str).2 = []) :
    str = [] ∨ ∃ l : DecimalLiteral, l.text = str := by
  obtain ⟨sign, hsign, -⟩ := exists_sign (str.dropWhile isSpace)
  by_cases hdigits : (takeSign (str.dropWhile isSpace)).2.takeWhile Char.isDigit = []
  · simp only [strtoul, if_pos hdigits] at h
    exact Or.inl h
  · simp only [strtoul, if_neg hdigits] at h
    have hall := List.dropWhile_eq_nil_iff.1 h
    have hself := List.takeWhile_eq_self_iff.2 hall
    rw [hself] at hdigits
    refine Or.inr ⟨⟨str.takeWhile isSpace, sign, (takeSign (str.dropWhile isSpace)).2,
      fun c hc => List.all_eq_true.1 List.all_takeWhile c hc, hall, hdigits⟩, ?_⟩
    rw [DecimalLiteral.text, ← hsign, List.takeWhile_append_dropWhile]

/-- A literal that is not negative gives its value, if it fits. -/
theorem strtoul_of_nonneg {l : DecimalLiteral} (h : 0 ≤ l.value) :
    (strtoul l.text).1 = min l.value.toNat (2 ^ 64 - 1) := by
  rw [strtoul_text]
  simp only
  by_cases hminus : l.sign = .minus
  · -- only zero is not negative behind a minus sign
    have hzero : Nat.ofDigitChars 10 l.digits 0 = 0 := by
      simp only [DecimalLiteral.value, signedValue, hminus, decide_true, if_true] at h
      omega
    simp [DecimalLiteral.value, signedValue, hminus, hzero, wrapSub]
  · have hvalue : l.value.toNat = Nat.ofDigitChars 10 l.digits 0 := by
      simp [DecimalLiteral.value, signedValue, hminus]
    rw [hvalue, if_neg hminus]
    split_ifs with hge
    · exact (Nat.min_eq_right (by omega)).symm
    · exact (Nat.min_eq_left (by omega)).symm

end CStrings
