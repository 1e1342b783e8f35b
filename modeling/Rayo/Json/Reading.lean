import Mathlib.Data.List.Forall2
import Rayo.Json.Parser

/-!
# What the reference parser reads

One rule for each kind of value: what the parser takes off its input, and what it makes of
it, whatever follows. A writer of JSON is correct when these rules apply to what it writes.
-/

namespace Json

/-- What may follow a number. -/
def Delimited (rest : List Char) : Prop :=
  ∀ c ∈ rest.head?, c.isDigit = false ∧ c ≠ '.' ∧ c ≠ 'e' ∧ c ≠ 'E'

/-- The text is exactly the value, whatever follows it. -/
structure Reads (text : List Char) (v : Value) : Prop where
  start : ∃ c rest, text = c :: rest ∧ isSpace c = false ∧ c ≠ ']'
  parse : ∀ n rest, text.length < n → Delimited rest → parseValue n (text ++ rest) = some (v, rest)

/-- The text is exactly one character of a string. -/
structure ReadsChar (text : List Char) (c : Char) : Prop where
  start : text ≠ [] ∧ text.head? ≠ some '"'
  parse : ∀ rest, parseChar (text ++ rest) = some (c, rest)

/-- The text is exactly a string, with its quotation marks. -/
def ReadsString (text s : List Char) : Prop :=
  ∃ body, text = '"' :: body ∧
    ∀ n rest, body.length ≤ n → parseString n (body ++ rest) = some (s, rest)

/-- The text is exactly a member of an object. -/
def ReadsMember (text : List Char) (member : List Char × Value) : Prop :=
  ∃ name value, text = name ++ ':' :: value ∧ ReadsString name member.1 ∧ Reads value member.2

/-- A number may end the text. -/
theorem delimited_nil : Delimited [] := nofun

/-- A number may be followed by what is no part of one. -/
theorem delimited_cons {c : Char} {rest : List Char}
    (hc : c.isDigit = false ∧ c ≠ '.' ∧ c ≠ 'e' ∧ c ≠ 'E') : Delimited (c :: rest) := by
  rintro c' hc'
  obtain rfl : c = c' := by simpa using hc'
  exact hc

/-- A character that is no white space is not skipped. -/
theorem skipSpace_cons {c : Char} {rest : List Char} (hc : isSpace c = false) :
    skipSpace (c :: rest) = c :: rest := by
  simp [skipSpace, List.dropWhile, hc]

/-- A whole text is read to its end. -/
theorem Reads.parseText_eq {text : List Char} {v : Value} (h : Reads text v) :
    parseText text = some v := by
  have hread := h.parse (text.length + 1) [] (Nat.lt_succ_self _) delimited_nil
  rw [List.append_nil] at hread
  simp [parseText, hread, skipSpace]

/-- `null` is read. -/
theorem reads_null : Reads ['n', 'u', 'l', 'l'] .null where
  start := ⟨'n', _, rfl, by decide, by decide⟩
  parse n rest hn _ := by
    obtain ⟨m, rfl⟩ := Nat.exists_eq_succ_of_ne_zero (Nat.ne_of_gt (Nat.zero_lt_of_lt hn))
    simp [parseValue, skipSpace, isSpace, parseWord, List.isPrefixOf]

/-- `true` is read. -/
theorem reads_true : Reads ['t', 'r', 'u', 'e'] (.bool true) where
  start := ⟨'t', _, rfl, by decide, by decide⟩
  parse n rest hn _ := by
    obtain ⟨m, rfl⟩ := Nat.exists_eq_succ_of_ne_zero (Nat.ne_of_gt (Nat.zero_lt_of_lt hn))
    simp [parseValue, skipSpace, isSpace, parseWord, List.isPrefixOf]

/-- `false` is read. -/
theorem reads_false : Reads ['f', 'a', 'l', 's', 'e'] (.bool false) where
  start := ⟨'f', _, rfl, by decide, by decide⟩
  parse n rest hn _ := by
    obtain ⟨m, rfl⟩ := Nat.exists_eq_succ_of_ne_zero (Nat.ne_of_gt (Nat.zero_lt_of_lt hn))
    simp [parseValue, skipSpace, isSpace, parseWord, List.isPrefixOf]

/-- Digits are taken up to the first character that is none. -/
theorem takeDigits {digits rest : List Char} (hdigits : ∀ c ∈ digits, c.isDigit = true)
    (hrest : ∀ c ∈ rest.head?, c.isDigit = false) :
    (digits ++ rest).takeWhile Char.isDigit = digits ∧
      (digits ++ rest).dropWhile Char.isDigit = rest := by
  rw [List.takeWhile_append_of_pos hdigits, List.dropWhile_append_of_pos hdigits]
  cases rest with
  | nil => simp
  | cons c rest =>
    have hc := hrest c rfl
    simp [List.takeWhile, List.dropWhile, hc]

/-- A number that ends has no fraction. -/
theorem parseFraction_of_delimited {rest : List Char} (h : Delimited rest) :
    parseFraction rest = some ([], rest) := by
  cases rest with
  | nil => rfl
  | cons c rest =>
    have hpoint := (h c rfl).2.1
    unfold parseFraction
    split <;> simp_all

/-- A number that ends has no exponent. -/
theorem parseExponent_of_delimited {rest : List Char} (h : Delimited rest) :
    parseExponent rest = some (0, rest) := by
  have hnone (c : Char) (hc : rest.head? = some c) := h c hc
  unfold parseExponent
  rw [if_neg]
  rintro (he | he)
  · exact (hnone _ he).2.2.1 rfl
  · exact (hnone _ he).2.2.2 rfl

/-- The fraction of a literal. -/
theorem parseFraction_text {fraction rest : List Char}
    (hdigits : ∀ c ∈ fraction, c.isDigit = true) (h : Delimited rest) :
    parseFraction ((if fraction = [] then [] else '.' :: fraction) ++ rest) =
      some (fraction, rest) := by
  by_cases hempty : fraction = []
  · simpa [hempty] using parseFraction_of_delimited h
  · obtain ⟨htake, hdrop⟩ := takeDigits hdigits fun c hc => (h c hc).1
    simp [hempty, parseFraction, htake, hdrop]

/-- A literal begins with its sign or with a digit. -/
theorem text_start (d : Decimal) :
    ∃ c tail, d.text = c :: tail ∧ (c = '-' ∨ c.isDigit = true) := by
  obtain ⟨c, tail, hwhole⟩ := List.exists_cons_of_ne_nil d.whole_ne_nil
  have hc : c.isDigit = true := d.whole_isDigit c (by simp [hwhole])
  cases hsign : d.negative with
  | true => exact ⟨'-', _, by simp [Decimal.text, hsign]; rfl, Or.inl rfl⟩
  | false => exact ⟨c, _, by simp [Decimal.text, hsign, hwhole]; rfl, Or.inr hc⟩

/-- What a number begins with begins nothing else. -/
theorem ne_of_numeric {c : Char} (hc : c = '-' ∨ c.isDigit = true) (c' : Char)
    (hdigit : c'.isDigit = false) (hsign : c' ≠ '-') : c ≠ c' := by
  rintro rfl
  simp [hdigit, hsign] at hc

/-- No number begins with white space. -/
theorem isSpace_of_numeric {c : Char} (hc : c = '-' ∨ c.isDigit = true) : isSpace c = false := by
  have hne := ne_of_numeric hc
  simp [isSpace, hne ' ' (by decide) (by decide), hne '\t' (by decide) (by decide),
    hne '\n' (by decide) (by decide), hne '\r' (by decide) (by decide)]

/-- The part of a literal after its sign. -/
theorem parseUnsigned_text (d : Decimal) {rest : List Char} (h : Delimited rest) :
    parseUnsigned d.negative (d.whole ++
      ((if d.fraction = [] then [] else '.' :: d.fraction) ++ rest)) = some (d.value, rest) := by
  have hpoint : ∀ c ∈ ((if d.fraction = [] then [] else '.' :: d.fraction) ++ rest).head?,
      c.isDigit = false := by
    intro c hc
    by_cases hempty : d.fraction = []
    · exact (h c (by simpa [hempty] using hc)).1
    · obtain rfl : '.' = c := by simpa [hempty] using hc
      decide
  obtain ⟨htake, hdrop⟩ := takeDigits d.whole_isDigit hpoint
  have hcanonical : ¬ (d.whole = [] ∨ (d.whole.head? = some '0' ∧ d.whole ≠ ['0'])) := by
    rintro (hnil | ⟨hzero, hmore⟩)
    · exact d.whole_ne_nil hnil
    · exact hmore (d.canonical hzero)
  simp only [parseUnsigned, htake, hdrop, if_neg hcanonical,
    parseFraction_text d.fraction_isDigit h, Option.bind_eq_bind, Option.bind_some,
    parseExponent_of_delimited h, zpow_zero, mul_one, Decimal.value]

/-- A decimal literal stands for its value. -/
theorem parseNumber_text (d : Decimal) {rest : List Char} (h : Delimited rest) :
    parseNumber (d.text ++ rest) = some (d.value, rest) := by
  have hunsigned := parseUnsigned_text d h
  obtain ⟨c, tail, hwhole⟩ := List.exists_cons_of_ne_nil d.whole_ne_nil
  have hc : c ≠ '-' := by
    rintro rfl
    exact absurd (d.whole_isDigit '-' (by simp [hwhole])) (by decide)
  cases hsign : d.negative with
  | true =>
    rw [hsign] at hunsigned
    simpa [parseNumber, Decimal.text, hsign] using hunsigned
  | false =>
    rw [hsign] at hunsigned
    simpa [parseNumber, Decimal.text, hsign, hwhole, hc] using hunsigned

/-- A decimal literal is read as its value. -/
theorem reads_number (d : Decimal) : Reads d.text (.number d.value) := by
  obtain ⟨c, tail, htext, hc⟩ := text_start d
  have hne := ne_of_numeric hc
  refine ⟨⟨c, tail, htext, isSpace_of_numeric hc, hne ']' (by decide) (by decide)⟩,
    fun n rest hn hrest => ?_⟩
  obtain ⟨m, rfl⟩ := Nat.exists_eq_succ_of_ne_zero (Nat.ne_of_gt (Nat.zero_lt_of_lt hn))
  have hnumber := parseNumber_text d hrest
  rw [htext, List.cons_append] at hnumber ⊢
  simp [parseValue, skipSpace_cons (isSpace_of_numeric hc), hne '{' (by decide) (by decide),
    hne '[' (by decide) (by decide), hne '"' (by decide) (by decide),
    hne 'n' (by decide) (by decide), hne 't' (by decide) (by decide),
    hne 'f' (by decide) (by decide), hnumber]

/-- A character that stands for itself. -/
theorem readsChar_self {c : Char} (hquote : c ≠ '"') (hescape : c ≠ '\\')
    (hcontrol : ¬ c.toNat < 0x20) : ReadsChar [c] c :=
  ⟨by simp [hquote], fun rest => by simp [parseChar, hescape, hcontrol]⟩

/-- A character after a backslash. -/
theorem readsChar_escape {c : Char} {letters : List Char}
    (h : ∀ rest, parseEscape (letters ++ rest) = some (c, rest)) :
    ReadsChar ('\\' :: letters) c :=
  ⟨by simp, fun rest => by simp [parseChar, h]⟩

/-- A control character by its code. -/
theorem parseHex4_control : ∀ n < 0x20, parseHex4 ['0', '0', Nat.digitChar (n / 16),
    Nat.digitChar (n % 16)] = some (n, []) := by decide

/-- Four hexadecimal digits are read whatever follows them. -/
theorem parseHex4_append {a b c d : Char} {n : ℕ} (h : parseHex4 [a, b, c, d] = some (n, []))
    (rest : List Char) : parseHex4 (a :: b :: c :: d :: rest) = some (n, rest) := by
  simp only [parseHex4, Option.bind_eq_bind, Option.bind_eq_some_iff, Option.some.injEq,
    Prod.mk.injEq, and_true] at h ⊢
  exact h

/-- A control character is read from its four digits. -/
theorem readsChar_control {c : Char} (hc : c.toNat < 0x20) :
    ReadsChar ['\\', 'u', '0', '0', Nat.digitChar (c.toNat / 16), Nat.digitChar (c.toNat % 16)]
      c := by
  refine readsChar_escape fun rest => ?_
  have hhex := parseHex4_append (parseHex4_control _ hc) rest
  have hpair : ¬ (0xd800 ≤ c.toNat ∧ c.toNat < 0xdc00) := by omega
  have hlow : ¬ (0xdc00 ≤ c.toNat ∧ c.toNat < 0xe000) := by omega
  simp [parseEscape, parseUnicode, hhex, hpair, hlow]

/-- The characters of a string, each written in a way that is read back, and the closing
quotation mark. -/
theorem readsString_flatMap (escape : Char → List Char) (s : List Char)
    (h : ∀ c ∈ s, ReadsChar (escape c) c) :
    ReadsString ('"' :: (s.flatMap escape ++ ['"'])) s := by
  refine ⟨_, rfl, fun n rest hn => ?_⟩
  induction s generalizing n with
  | nil =>
    obtain ⟨m, rfl⟩ := Nat.exists_eq_succ_of_ne_zero (Nat.ne_of_gt (Nat.lt_of_lt_of_le
      Nat.zero_lt_one (by simpa using hn)))
    simp [parseString]
  | cons c s ih =>
    obtain ⟨⟨hne, hquote⟩, hchar⟩ := h c List.mem_cons_self
    obtain ⟨b, tail, hescape⟩ := List.exists_cons_of_ne_nil hne
    have hlength : (s.flatMap escape ++ ['"']).length + 1 ≤ n := by
      have hmore : 1 ≤ (escape c).length := by simp [hescape]
      simp only [List.flatMap_cons, List.append_assoc, List.length_append] at hn ⊢
      omega
    obtain ⟨m, rfl⟩ := Nat.exists_eq_succ_of_ne_zero (Nat.ne_of_gt (Nat.lt_of_lt_of_le
      (Nat.succ_pos _) hlength))
    have hrest := ih (fun c' hc' => h c' (List.mem_cons_of_mem _ hc')) m (by omega)
    have hone := hchar (s.flatMap escape ++ ['"'] ++ rest)
    have hstart : (escape c ++ (s.flatMap escape ++ ['"'] ++ rest)).head? ≠ some '"' := by
      simpa [hescape] using hquote
    simp only [List.flatMap_cons, List.append_assoc] at hone hrest hstart ⊢
    rw [parseString, if_neg hstart, hone]
    simp only [List.cons_append, List.nil_append] at hrest ⊢
    simp [hrest]

/-- A string is a value. -/
theorem ReadsString.reads {text s : List Char} (h : ReadsString text s) :
    Reads text (.string s) := by
  obtain ⟨body, rfl, hbody⟩ := h
  refine ⟨⟨'"', body, rfl, by decide, by decide⟩, fun n rest hn _ => ?_⟩
  obtain ⟨m, rfl⟩ := Nat.exists_eq_succ_of_ne_zero (Nat.ne_of_gt (Nat.zero_lt_of_lt hn))
  have hstring := hbody m rest (by simp only [List.length_cons] at hn; omega)
  simp [parseValue, skipSpace, isSpace, hstring]

/-- Items with commas between them, and the closing bracket. -/
theorem parseItems_intercalate {texts : List (List Char)} {items : List Value}
    (h : List.Forall₂ Reads texts items) (hne : texts ≠ []) {n : ℕ}
    (hn : ([','].intercalate texts).length + 1 < n) (rest : List Char) :
    parseItems n ([','].intercalate texts ++ ']' :: rest) = some (items, rest) := by
  induction h generalizing n with
  | nil => exact absurd rfl hne
  | @cons text v texts items hread hreads ih =>
    obtain ⟨m, rfl⟩ := Nat.exists_eq_succ_of_ne_zero (Nat.ne_of_gt (Nat.zero_lt_of_lt hn))
    cases hreads with
    | nil =>
      rw [List.intercalate_singleton] at hn ⊢
      have hvalue := hread.parse m (']' :: rest) (by omega) (delimited_cons (by decide))
      simp [parseItems, hvalue, skipSpace, isSpace]
    | @cons text' v' texts items hnext hlater =>
      rw [List.intercalate_cons_cons] at hn ⊢
      simp only [List.length_append, List.length_cons, List.length_nil] at hn
      have hmore := ih (by simp) (n := m) (by omega)
      have hvalue := hread.parse m
        (',' :: ([','].intercalate (text' :: texts) ++ ']' :: rest)) (by omega)
        (delimited_cons (by decide))
      simp only [List.append_assoc, List.cons_append, List.nil_append]
      rw [parseItems, hvalue]
      simp [skipSpace, isSpace, hmore]

/-- The text of the first of several parts begins the whole. -/
theorem intercalate_start (texts : List (List Char)) {c : Char} {tail : List Char}
    (htext : (c :: tail) ∈ texts.head?) : ∃ more, [','].intercalate texts = c :: more := by
  match texts with
  | [] => simp at htext
  | [text] =>
    obtain rfl : text = c :: tail := by simpa using htext
    exact ⟨tail, List.intercalate_singleton⟩
  | text :: text' :: texts =>
    obtain rfl : text = c :: tail := by simpa using htext
    exact ⟨_, List.intercalate_cons_cons⟩

/-- An array is read from its items. -/
theorem reads_array {texts : List (List Char)} {items : List Value}
    (h : List.Forall₂ Reads texts items) :
    Reads ('[' :: ([','].intercalate texts ++ [']'])) (.array items) := by
  refine ⟨⟨'[', _, rfl, by decide, by decide⟩, fun n rest hn _ => ?_⟩
  obtain ⟨m, rfl⟩ := Nat.exists_eq_succ_of_ne_zero (Nat.ne_of_gt (Nat.zero_lt_of_lt hn))
  cases h with
  | nil => simp [parseValue, skipSpace, isSpace, List.intercalate_nil]
  | @cons text v texts items hread hreads =>
    obtain ⟨c, tail, rfl, hspace, hclose⟩ := hread.start
    obtain ⟨more, hmore⟩ := intercalate_start ((c :: tail) :: texts) rfl
    simp only [List.length_cons, List.length_append, List.length_nil] at hn
    have hitems := parseItems_intercalate (.cons hread hreads) (by simp) (n := m) (by omega) rest
    rw [hmore, List.cons_append] at hitems
    simp [parseValue, skipSpace_cons (c := '[') (by decide), hmore, skipSpace_cons hspace, hclose,
      hitems]

/-- Members with commas between them, and the closing brace. -/
theorem parseMembers_intercalate {texts : List (List Char)} {members : List (List Char × Value)}
    (h : List.Forall₂ ReadsMember texts members) (hne : texts ≠ []) {n : ℕ}
    (hn : ([','].intercalate texts).length + 1 < n) (rest : List Char) :
    parseMembers n ([','].intercalate texts ++ '}' :: rest) = some (members, rest) := by
  induction h generalizing n with
  | nil => exact absurd rfl hne
  | @cons text member texts members hread hreads ih =>
    obtain ⟨m, rfl⟩ := Nat.exists_eq_succ_of_ne_zero (Nat.ne_of_gt (Nat.zero_lt_of_lt hn))
    obtain ⟨-, value, rfl, ⟨body, rfl, hbody⟩, hvalue⟩ := hread
    have hname (rest : List Char) (hle : body.length ≤ m) :
        parseString m (body ++ rest) = some (member.1, rest) := hbody m rest hle
    cases hreads with
    | nil =>
      rw [List.intercalate_singleton] at hn ⊢
      simp only [List.length_append, List.length_cons] at hn
      have hmember := hvalue.parse m ('}' :: rest) (by omega) (delimited_cons (by decide))
      simp [parseMembers, skipSpace, isSpace, hname _ (by omega), hmember]
    | @cons text' member' texts members hnext hlater =>
      rw [List.intercalate_cons_cons] at hn ⊢
      simp only [List.length_append, List.length_cons, List.length_nil] at hn
      have hmore := ih (by simp) (n := m) (by omega)
      have hmember := hvalue.parse m
        (',' :: ([','].intercalate (text' :: texts) ++ '}' :: rest)) (by omega)
        (delimited_cons (by decide))
      simp only [List.append_assoc, List.cons_append, List.nil_append]
      simp [parseMembers, skipSpace, isSpace, hname _ (by omega), hmember, hmore]

/-- An object is read from its members. -/
theorem reads_object {texts : List (List Char)} {members : List (List Char × Value)}
    (h : List.Forall₂ ReadsMember texts members) :
    Reads ('{' :: ([','].intercalate texts ++ ['}'])) (.object members) := by
  refine ⟨⟨'{', _, rfl, by decide, by decide⟩, fun n rest hn _ => ?_⟩
  obtain ⟨m, rfl⟩ := Nat.exists_eq_succ_of_ne_zero (Nat.ne_of_gt (Nat.zero_lt_of_lt hn))
  cases h with
  | nil => simp [parseValue, skipSpace, isSpace, List.intercalate_nil]
  | @cons text member texts members hread hreads =>
    obtain ⟨-, value, rfl, ⟨body, rfl, -⟩, -⟩ := id hread
    obtain ⟨more, hmore⟩ :=
      intercalate_start (c := '"') (('"' :: body ++ ':' :: value) :: texts) rfl
    simp only [List.length_cons, List.length_append, List.length_nil] at hn
    have hmembers := parseMembers_intercalate (.cons hread hreads) (by simp) (n := m) (by omega)
      rest
    rw [hmore, List.cons_append] at hmembers
    rw [hmore]
    simp [parseValue, skipSpace_cons (c := '{') (by decide),
      skipSpace_cons (c := '"') (by decide), hmembers]

end Json
