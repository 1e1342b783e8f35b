import Mathlib.Data.List.Basic

/-!
# UTF-8 on byte lists

The encoder and the one-character decoder of the core library, stated for the byte
lists that buffers are modelled by. Decoding is deterministic on a prefix: what
follows an encoded character does not matter.
-/

namespace Utf8

/-- The UTF-8 encoding of a text, one character after the other. -/
def encode (text : List Char) : List UInt8 := text.flatMap String.utf8EncodeChar

/-- The empty text has no bytes. -/
@[simp] theorem encode_nil : encode [] = [] := rfl

/-- A text is encoded character by character. -/
@[simp] theorem encode_cons (c : Char) (text : List Char) :
    encode (c :: text) = String.utf8EncodeChar c ++ encode text := rfl

/-- Two texts are encoded one after the other. -/
@[simp] theorem encode_append (left right : List Char) :
    encode (left ++ right) = encode left ++ encode right := by
  simp [encode]

/-- Decode the first character of a byte list, returning the bytes after it. -/
def decodeChar? (bytes : List UInt8) : Option (Char × List UInt8) :=
  (ByteArray.utf8DecodeChar? ⟨bytes.toArray⟩ 0).map fun c => (c, bytes.drop c.utf8Size)

/-- Decoding reads back an encoded character, whatever bytes follow it. -/
@[simp] theorem decodeChar?_encodeChar_append (c : Char) (rest : List UInt8) :
    decodeChar? (String.utf8EncodeChar c ++ rest) = some (c, rest) := by
  have hbytes : (⟨(String.utf8EncodeChar c ++ rest).toArray⟩ : ByteArray) =
      (String.utf8EncodeChar c).toByteArray ++ rest.toByteArray := by
    rw [← List.toByteArray_append]
    ext1
    simp
  have hdrop : (String.utf8EncodeChar c ++ rest).drop c.utf8Size = rest := by
    rw [← String.length_utf8EncodeChar c, List.drop_left]
  simp only [decodeChar?, hbytes, ByteArray.utf8DecodeChar?_utf8EncodeChar_append,
    Option.map_some, hdrop]

/-- Decode a byte list as a whole. -/
def decode? : List UInt8 → Option (List Char)
  | [] => some []
  | b :: bytes =>
    match decodeChar? (b :: bytes) with
    | none => none
    | some (c, _) => (decode? (bytes.drop (c.utf8Size - 1))).map (c :: ·)
termination_by bytes => bytes.length
decreasing_by
  simp only [List.length_drop, List.length_cons]
  omega

/-- Decoding inverts encoding. -/
@[simp] theorem decode?_encode (text : List Char) : decode? (encode text) = some text := by
  induction text with
  | nil => simp [decode?]
  | cons c text ih =>
    have hlength : (String.utf8EncodeChar c).length = c.utf8Size := String.length_utf8EncodeChar c
    have hchar := decodeChar?_encodeChar_append c (encode text)
    rw [encode_cons]
    cases hbytes : String.utf8EncodeChar c with
    | nil =>
      have hpos := c.utf8Size_pos
      simp [← hlength, hbytes] at hpos
    | cons b bytes =>
      have hdrop : (bytes ++ encode text).drop (c.utf8Size - 1) = encode text := by
        rw [← hlength, hbytes, List.length_cons, Nat.add_sub_cancel, List.drop_left]
      rw [hbytes, List.cons_append] at hchar
      simp [decode?, hchar, hdrop, ih]

/-- An ASCII character is one byte. -/
theorem encodeChar_of_ascii {c : Char} (hc : c.toNat ≤ 0x7f) :
    String.utf8EncodeChar c = [c.toUInt8] :=
  if_pos hc

/-- That byte is the code of the character. -/
theorem toNat_toUInt8 {c : Char} (hc : c.toNat ≤ 0x7f) : c.toUInt8.toNat = c.toNat := by
  have hval : c.val.toNat < 2 ^ 8 := Nat.lt_of_le_of_lt hc (by decide)
  rw [Char.toUInt8, UInt32.toNat_toUInt8]
  exact Nat.mod_eq_of_lt hval

/-- The bytes of all other characters have their highest bit set. -/
theorem le_of_mem_encodeChar {c : Char} (hc : ¬ c.toNat ≤ 0x7f) {b : UInt8}
    (hb : b ∈ String.utf8EncodeChar c) : 0x80 ≤ b.toNat := by
  have hnotAscii : ¬ c.val.toNat ≤ 0x7f := hc
  simp only [String.utf8EncodeChar, if_neg hnotAscii] at hb
  split at hb
  · simp only [List.mem_cons, List.not_mem_nil, or_false] at hb
    rcases hb with rfl | rfl <;> rw [UInt8.toNat_ofNat'] <;> omega
  split at hb
  · simp only [List.mem_cons, List.not_mem_nil, or_false] at hb
    rcases hb with rfl | rfl | rfl <;> rw [UInt8.toNat_ofNat'] <;> omega
  · simp only [List.mem_cons, List.not_mem_nil, or_false] at hb
    rcases hb with rfl | rfl | rfl | rfl <;> rw [UInt8.toNat_ofNat'] <;> omega

/-- A character from `low` on has no byte below it, if `low` is ASCII. -/
theorem le_of_mem_encodeChar_of_le {low : ℕ} (hlow : low ≤ 0x80) {c : Char} (hc : low ≤ c.toNat)
    {b : UInt8} (hb : b ∈ String.utf8EncodeChar c) : low ≤ b.toNat := by
  by_cases hascii : c.toNat ≤ 0x7f
  · rw [encodeChar_of_ascii hascii, List.mem_singleton] at hb
    rw [hb, toNat_toUInt8 hascii]
    exact hc
  · exact Nat.le_trans hlow (le_of_mem_encodeChar hascii hb)

end Utf8
