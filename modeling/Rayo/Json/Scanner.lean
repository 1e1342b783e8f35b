import Rayo.Json.Reading

/-!
# A reference scanner for string tokens

It reads a JSON string from raw bytes, of which only the token itself has to be UTF-8: the
scanner decodes as it goes and stops at the closing quotation mark. `ScansChar bytes c` says
that it takes exactly `bytes` off its input for the character `c`, whatever comes after.
-/

namespace Json

/-- The value of a hexadecimal digit. -/
def hexByte? (b : UInt8) : Option ℕ := hexDigit? (Char.ofNat b.toNat)

/-- Four hexadecimal digits. -/
def scanHex4 : List UInt8 → Option (ℕ × List UInt8)
  | a :: b :: c :: d :: rest => do
    let a ← hexByte? a
    let b ← hexByte? b
    let c ← hexByte? c
    let d ← hexByte? d
    some (((a * 16 + b) * 16 + c) * 16 + d, rest)
  | _ => none

/-- A UTF-16 code unit after `\u`, and the second one of a surrogate pair. -/
def scanUnicode (bytes : List UInt8) : Option (Char × List UInt8) :=
  match scanHex4 bytes with
  | none => none
  | some (unit, rest) =>
    if 0xd800 ≤ unit ∧ unit < 0xdc00 then
      match rest with
      -- a second `\u`
      | 0x5c :: 0x75 :: rest =>
        match scanHex4 rest with
        | none => none
        | some (low, rest) =>
          if 0xdc00 ≤ low ∧ low < 0xe000 then
            some (Char.ofNat (0x10000 + (unit - 0xd800) * 0x400 + (low - 0xdc00)), rest)
          else none
      | _ => none
    else if 0xdc00 ≤ unit ∧ unit < 0xe000 then none
    else some (Char.ofNat unit, rest)

/-- What follows a backslash. -/
def scanEscape : List UInt8 → Option (Char × List UInt8)
  | [] => none
  | b :: rest =>
    if b = '"'.toUInt8 then some ('"', rest)
    else if b = '\\'.toUInt8 then some ('\\', rest)
    else if b = '/'.toUInt8 then some ('/', rest)
    else if b = 'b'.toUInt8 then some ('\x08', rest)
    else if b = 'f'.toUInt8 then some ('\x0c', rest)
    else if b = 'n'.toUInt8 then some ('\n', rest)
    else if b = 'r'.toUInt8 then some ('\r', rest)
    else if b = 't'.toUInt8 then some ('\t', rest)
    else if b = 'u'.toUInt8 then scanUnicode rest
    else none

/-- One character of a string. -/
def scanChar : List UInt8 → Option (Char × List UInt8)
  | [] => none
  | b :: rest =>
    if b = '\\'.toUInt8 then scanEscape rest
    else if b.toNat < 0x20 then none
    else Utf8.decodeChar? (b :: rest)

/-- The characters of a string, up to the closing quotation mark. -/
def scanChars : ℕ → List UInt8 → Option (List Char × List UInt8)
  | 0, _ => none
  | n + 1, bytes =>
    if bytes.head? = some '"'.toUInt8 then some ([], bytes.tail)
    else do
      let (c, rest) ← scanChar bytes
      let (text, rest) ← scanChars n rest
      some (c :: text, rest)

/-- A string token, and what is left of the bytes after it. -/
def scanString (bytes : List UInt8) : Option (List Char × List UInt8) :=
  if bytes.head? = some '"'.toUInt8 then scanChars bytes.length bytes.tail else none

/-- The bytes are exactly one character of a string. -/
structure ScansChar (bytes : List UInt8) (c : Char) : Prop where
  start : bytes ≠ [] ∧ bytes.head? ≠ some '"'.toUInt8
  scan : ∀ rest, scanChar (bytes ++ rest) = some (c, rest)

/-- What a character is encoded by does not begin with an ASCII character, unless it is that
character. -/
theorem encodeChar_start {c c' : Char} {b : UInt8} {tail : List UInt8}
    (hbytes : String.utf8EncodeChar c = b :: tail) (hascii : c'.toNat ≤ 0x7f) (hne : c ≠ c') :
    b ≠ c'.toUInt8 := by
  intro hb
  have hcode : b.toNat = c'.toNat := hb ▸ Utf8.toNat_toUInt8 hascii
  by_cases hsmall : c.toNat ≤ 0x7f
  · rw [Utf8.encodeChar_of_ascii hsmall] at hbytes
    have hfirst : c.toNat = b.toNat :=
      (Utf8.toNat_toUInt8 hsmall).symm.trans (congrArg UInt8.toNat (List.cons.inj hbytes).1)
    exact hne (Char.toNat_inj.mp (hfirst.trans hcode))
  · have hhigh : 0x80 ≤ b.toNat := Utf8.le_of_mem_encodeChar hsmall (by simp [hbytes])
    omega

/-- A character that stands for itself. -/
theorem scansChar_self {c : Char} (hquote : c ≠ '"') (hescape : c ≠ '\\')
    (hcontrol : ¬ c.toNat < 0x20) : ScansChar (Utf8.encode [c]) c := by
  have hencode : Utf8.encode [c] = String.utf8EncodeChar c := by simp
  obtain ⟨b, tail, hbytes⟩ := List.exists_cons_of_ne_nil (String.utf8EncodeChar_ne_nil (c := c))
  have hlow : 0x20 ≤ b.toNat :=
    Utf8.le_of_mem_encodeChar_of_le (by omega) (Nat.le_of_not_lt hcontrol) (by simp [hbytes])
  have hnotQuote : b ≠ '"'.toUInt8 := encodeChar_start hbytes (by decide) hquote
  have hnotEscape : b ≠ '\\'.toUInt8 := encodeChar_start hbytes (by decide) hescape
  rw [hencode, hbytes]
  refine ⟨⟨by simp, by simpa using hnotQuote⟩, fun rest => ?_⟩
  have hdecode := Utf8.decodeChar?_encodeChar_append c rest
  rw [hbytes, List.cons_append] at hdecode
  rw [List.cons_append, scanChar, if_neg hnotEscape, if_neg (Nat.not_lt.mpr hlow), hdecode]

/-- A character after a backslash. -/
theorem scansChar_escape {c : Char} {bytes : List UInt8}
    (h : ∀ rest, scanEscape (bytes ++ rest) = some (c, rest)) :
    ScansChar ('\\'.toUInt8 :: bytes) c := by
  refine ⟨⟨by simp, ?_⟩, fun rest => by simp [scanChar, h]⟩
  rw [List.head?_cons]
  decide

/-- A control character by its code. -/
theorem scanHex4_control : ∀ n < 0x20, scanHex4 (Utf8.encode ['0', '0', Nat.digitChar (n / 16),
    Nat.digitChar (n % 16)]) = some (n, []) := by decide

/-- Four hexadecimal digits are scanned whatever follows them. -/
theorem scanHex4_append {a b c d : UInt8} {n : ℕ} (h : scanHex4 [a, b, c, d] = some (n, []))
    (rest : List UInt8) : scanHex4 (a :: b :: c :: d :: rest) = some (n, rest) := by
  simp only [scanHex4, Option.bind_eq_bind, Option.bind_eq_some_iff, Option.some.injEq,
    Prod.mk.injEq, and_true] at h ⊢
  exact h

/-- A control character is scanned from its four digits. -/
theorem scansChar_control {c : Char} (hc : c.toNat < 0x20) :
    ScansChar (Utf8.encode ['\\', 'u', '0', '0', Nat.digitChar (c.toNat / 16),
      Nat.digitChar (c.toNat % 16)]) c := by
  have hdigit : ∀ n < 0x20, ∃ high low, Utf8.encode ['0', '0', Nat.digitChar (n / 16),
      Nat.digitChar (n % 16)] = ['0'.toUInt8, '0'.toUInt8, high, low] := by
    intro n hn
    refine ⟨(Nat.digitChar (n / 16)).toUInt8, (Nat.digitChar (n % 16)).toUInt8, ?_⟩
    revert n
    decide
  obtain ⟨high, low, hbytes⟩ := hdigit _ hc
  have hcontrol := scanHex4_control _ hc
  rw [hbytes] at hcontrol
  have hencode : Utf8.encode ['\\', 'u', '0', '0', Nat.digitChar (c.toNat / 16),
      Nat.digitChar (c.toNat % 16)] = '\\'.toUInt8 :: 'u'.toUInt8 :: ['0'.toUInt8, '0'.toUInt8,
        high, low] := by
    rw [← hbytes]
    rfl
  rw [hencode]
  refine scansChar_escape fun rest => ?_
  have hhex := scanHex4_append hcontrol rest
  have hpair : ¬ (0xd800 ≤ c.toNat ∧ c.toNat < 0xdc00) := by omega
  have hlow : ¬ (0xdc00 ≤ c.toNat ∧ c.toNat < 0xe000) := by omega
  have hescape : scanEscape ('u'.toUInt8 :: ['0'.toUInt8, '0'.toUInt8, high, low] ++ rest) =
      scanUnicode ('0'.toUInt8 :: '0'.toUInt8 :: high :: low :: rest) := rfl
  rw [hescape, scanUnicode, hhex]
  simp [hpair, hlow]

/-- The characters of a string, each written in a way that is scanned back, and the closing
quotation mark. Nothing is asked of the bytes that follow. -/
theorem scanString_flatMap (escape : Char → List UInt8) (s : List Char)
    (h : ∀ c ∈ s, ScansChar (escape c) c) (rest : List UInt8) :
    scanString ('"'.toUInt8 :: (s.flatMap escape ++ '"'.toUInt8 :: rest)) = some (s, rest) := by
  have hscan (n : ℕ) (hn : (s.flatMap escape).length < n) :
      scanChars n (s.flatMap escape ++ '"'.toUInt8 :: rest) = some (s, rest) := by
    induction s generalizing n with
    | nil =>
      obtain ⟨m, rfl⟩ := Nat.exists_eq_succ_of_ne_zero (Nat.ne_of_gt (Nat.zero_lt_of_lt hn))
      simp [scanChars]
    | cons c s ih =>
      obtain ⟨⟨hne, hquote⟩, hchar⟩ := h c List.mem_cons_self
      obtain ⟨b, tail, hescape⟩ := List.exists_cons_of_ne_nil hne
      have hmore : 1 ≤ (escape c).length := by simp [hescape]
      rw [List.flatMap_cons, List.length_append] at hn
      obtain ⟨m, rfl⟩ := Nat.exists_eq_succ_of_ne_zero (Nat.ne_of_gt (Nat.zero_lt_of_lt hn))
      have hrest := ih (fun c' hc' => h c' (List.mem_cons_of_mem _ hc')) m (by omega)
      have hstart : (escape c ++ (s.flatMap escape ++ '"'.toUInt8 :: rest)).head? ≠
          some '"'.toUInt8 := by
        simpa [hescape] using hquote
      rw [List.flatMap_cons, List.append_assoc, scanChars, if_neg hstart, hchar]
      simp [hrest]
  have hlength : (s.flatMap escape).length <
      ('"'.toUInt8 :: (s.flatMap escape ++ '"'.toUInt8 :: rest)).length := by
    simp only [List.length_cons, List.length_append]
    omega
  simpa [scanString] using hscan _ hlength

end Json
