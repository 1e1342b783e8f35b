import Mathlib.Data.Rat.Defs
import Mathlib.Algebra.Field.Rat
import Mathlib.Data.List.Basic
import Mathlib.Data.List.Induction

/-!
# JSON values and decimal literals

Numbers are exact, and the members of an object keep their order and their repetitions. A
decimal literal is a JSON number without an exponent.
-/

namespace Json

/-- A JSON value. -/
inductive Value
  | null
  | bool (b : Bool)
  | number (q : ℚ)
  | string (text : List Char)
  | array (items : List Value)
  | object (members : List (List Char × Value))

/-- A decimal literal, by its digits. -/
structure Decimal where
  negative : Bool
  whole : List Char
  fraction : List Char
  whole_isDigit : ∀ c ∈ whole, c.isDigit = true
  fraction_isDigit : ∀ c ∈ fraction, c.isDigit = true
  whole_ne_nil : whole ≠ []
  /-- There is no leading zero. -/
  canonical : whole.head? = some '0' → whole = ['0']

/-- What a sign, digits and a number of digits after the point stand for. -/
def scaled (negative : Bool) (digits : List Char) (places : ℕ) : ℚ :=
  (if negative then -1 else 1) * (Nat.ofDigitChars 10 digits 0 : ℚ) / 10 ^ places

namespace Decimal

/-- The literal as text. -/
def text (d : Decimal) : List Char :=
  (if d.negative then ['-'] else []) ++ d.whole ++
    (if d.fraction = [] then [] else '.' :: d.fraction)

/-- The number that the literal stands for. -/
def value (d : Decimal) : ℚ := scaled d.negative (d.whole ++ d.fraction) d.fraction.length

/-- Only zero begins with the digit zero. -/
theorem toDigits_head {n : ℕ} (h : (Nat.toDigits 10 n).head? = some '0') :
    Nat.toDigits 10 n = ['0'] := by
  have hpos (n : ℕ) (hn : 0 < n) : (Nat.toDigits 10 n).head? ≠ some '0' := by
    induction n using Nat.base_induction 10 (by decide) with
    | single m hm =>
      have hdigit : ∀ m < 10, 0 < m → m.digitChar ≠ '0' := by decide
      rw [Nat.toDigits_of_lt_base hm]
      simpa using hdigit m hm hn
    | digit m k hk hm ih =>
      rw [← Nat.toDigits_append_toDigits (by decide) hm hk,
        List.head?_append_of_ne_nil _ Nat.toDigits_ne_nil]
      exact ih hm
  rcases Nat.eq_zero_or_pos n with rfl | hn
  · rfl
  · exact absurd h (hpos n hn)

/-- A digit is what its value is printed as. -/
theorem digitChar_of_isDigit {c : Char} (hc : c.isDigit = true) :
    c.toNat - '0'.toNat < 10 ∧ Nat.digitChar (c.toNat - '0'.toNat) = c := by
  have hrange : 48 ≤ c.toNat ∧ c.toNat ≤ 57 := by
    simpa [Char.isDigit, UInt32.le_iff_toNat_le] using hc
  have hzero : '0'.toNat = 48 := rfl
  have hlt : c.toNat - '0'.toNat < 10 := by omega
  refine ⟨hlt, Char.toNat_inj.mp ?_⟩
  rw [Nat.toNat_digitChar_of_lt_ten hlt]
  omega

/-- Digits without a leading zero are what their number is printed as. -/
theorem toDigits_ofDigitChars {digits : List Char} (hdigits : ∀ c ∈ digits, c.isDigit = true)
    (hne : digits ≠ []) (hcanonical : digits.head? = some '0' → digits = ['0']) :
    Nat.toDigits 10 (Nat.ofDigitChars 10 digits 0) = digits := by
  induction digits using List.reverseRecOn with
  | nil => exact absurd rfl hne
  | append_singleton digits c ih =>
    obtain ⟨hlt, hchar⟩ := digitChar_of_isDigit (hdigits c (by simp))
    by_cases hfirst : digits = []
    · subst hfirst
      rw [List.nil_append, Nat.ofDigitChars_cons, Nat.ofDigitChars_nil, Nat.mul_zero, Nat.zero_add,
        Nat.toDigits_of_lt_base hlt, hchar]
    · have hzero : digits.head? ≠ some '0' := by
        intro h
        have hsingle := hcanonical ((List.head?_append_of_ne_nil _ hfirst).trans h)
        have hlength := congrArg List.length hsingle
        have hpos := List.length_pos_iff.mpr hfirst
        rw [List.length_append, List.length_singleton, List.length_singleton] at hlength
        omega
      have hrest := ih (fun d hd => hdigits d (by simp [hd])) hfirst fun h => absurd h hzero
      have hpos : 0 < Nat.ofDigitChars 10 digits 0 := by
        apply Nat.pos_of_ne_zero
        intro h
        rw [h, Nat.toDigits_zero] at hrest
        exact hzero (by rw [← hrest]; rfl)
      rw [Nat.ofDigitChars_append, Nat.ofDigitChars_cons, Nat.ofDigitChars_nil,
        ← Nat.toDigits_append_toDigits (by decide) hpos hlt, hrest,
        Nat.toDigits_of_lt_base hlt, hchar]

/-- The literal of an integer. -/
def ofInt (i : ℤ) : Decimal where
  negative := i < 0
  whole := Nat.toDigits 10 i.natAbs
  fraction := []
  whole_isDigit _ := Nat.isDigit_of_mem_toDigits (by decide) (by decide)
  fraction_isDigit _ hc := nomatch hc
  whole_ne_nil := Nat.toDigits_ne_nil
  canonical := toDigits_head

/-- The literal of an integer has its value. -/
@[simp] theorem value_ofInt (i : ℤ) : (ofInt i).value = i := by
  cases i with
  | ofNat n => simp [value, scaled, ofInt]
  | negSucc n =>
    have habs : (Int.negSucc n).natAbs = n + 1 := rfl
    simp only [value, scaled, ofInt, Int.negSucc_lt_zero, decide_true, if_true, habs,
      List.append_nil, Nat.ofDigitChars_ten_toDigits]
    push_cast [Int.negSucc_eq]
    simp

/-- It is what the integer is printed as. -/
theorem text_ofInt (i : ℤ) : (ofInt i).text = (toString i).toList := by
  cases i with
  | ofNat n => simp [text, ofInt, Int.repr]
  | negSucc n => simp [text, ofInt, Int.repr, Int.negSucc_lt_zero]

/-- The number of a literal without a fraction. -/
def toInt (d : Decimal) : ℤ :=
  if d.negative then -(Nat.ofDigitChars 10 d.whole 0 : ℤ) else Nat.ofDigitChars 10 d.whole 0

/-- A literal without a fraction has the value of its integer. -/
theorem value_eq_toInt {d : Decimal} (h : d.fraction = []) : d.value = d.toInt := by
  unfold value scaled toInt
  split <;> simp [h]

/-- A literal without a fraction is what its number is printed as, unless it is the negative
zero. -/
theorem text_eq_toString_iff {d : Decimal} (h : d.fraction = []) :
    (toString d.toInt).toList = d.text ↔ ¬ (d.negative = true ∧ d.toInt = 0) := by
  have hwhole := toDigits_ofDigitChars d.whole_isDigit d.whole_ne_nil d.canonical
  have habs : d.toInt.natAbs = Nat.ofDigitChars 10 d.whole 0 := by
    unfold toInt
    split <;> simp
  have hinteger : (toString d.toInt).toList =
      (if d.toInt < 0 then ['-'] else []) ++ d.whole := by
    rw [← text_ofInt]
    simp [text, ofInt, habs, hwhole]
  have htext : d.text = (if d.negative then ['-'] else []) ++ d.whole := by
    simp [text, h]
  rw [hinteger, htext]
  constructor
  · rintro heq ⟨hnegative, hzero⟩
    rw [hnegative, hzero] at heq
    have hlength := congrArg List.length heq
    simp at hlength
  · intro hnot
    cases hsign : d.negative with
    | false =>
      have hpos : ¬ d.toInt < 0 := by simp [toInt, hsign]
      rw [if_neg hpos, if_neg Bool.false_ne_true]
    | true =>
      have hneg : d.toInt < 0 := by
        have hne : d.toInt ≠ 0 := fun hzero => hnot ⟨hsign, hzero⟩
        have hle : d.toInt ≤ 0 := by simp [toInt, hsign]
        omega
      rw [if_pos hneg, if_pos rfl]

end Decimal

end Json
