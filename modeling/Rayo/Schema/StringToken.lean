import Rayo.Json.Scanner
import Rayo.Schema.RoundTrip

/-!
# String tokens

What `write_json_string` appends ends where it ends: a scanner that starts at its opening
quotation mark stops at its closing one, whatever the string holds and whatever bytes follow.
-/

namespace Rayo

open Json

/-- The bytes that `write_json_string` appends. -/
def stringToken (text : List Char) : List UInt8 :=
  Utf8.encode ('"' :: (text.flatMap escape ++ ['"']))

/-- A string is written as its token. -/
theorem writeJsonString_eq (text : List Char) (out : Buffer) :
    writeJsonString text out = (out ++ stringToken text, none) :=
  writes_writeJsonString text out

/-- The characters of the token between its quotation marks. -/
theorem stringToken_eq (text : List Char) :
    stringToken text = '"'.toUInt8 ::
      (text.flatMap (fun c => Utf8.encode (escape c)) ++ ['"'.toUInt8]) := by
  have hbody : Utf8.encode (text.flatMap escape) =
      text.flatMap fun c => Utf8.encode (escape c) := by
    simp only [Utf8.encode, List.flatMap_assoc]
  have hquote : Utf8.encode ['"'] = ['"'.toUInt8] := rfl
  have hopen : stringToken text = Utf8.encode ['"'] ++
      (Utf8.encode (text.flatMap escape) ++ Utf8.encode ['"']) := by
    rw [← Utf8.encode_append, ← Utf8.encode_append]
    rfl
  rw [hopen, hbody, hquote]
  rfl

/-- `write_json_string` escapes every character in a way that is scanned back. -/
theorem scansChar_escape_char (c : Char) : ScansChar (Utf8.encode (escape c)) c := by
  unfold escape
  split
  · next hc => exact hc.symm ▸ scansChar_escape fun _ => rfl
  split
  · next hc => exact hc.symm ▸ scansChar_escape fun _ => rfl
  split
  · next hc => exact hc.symm ▸ scansChar_escape fun _ => rfl
  split
  · next hc => exact hc.symm ▸ scansChar_escape fun _ => rfl
  split
  · next hc => exact hc.symm ▸ scansChar_escape fun _ => rfl
  split
  · next hcontrol =>
    rw [lowerHex4_control _ hcontrol]
    exact scansChar_control hcontrol
  · next hquote hescape _ _ _ hcontrol => exact scansChar_self hquote hescape hcontrol

/-- An escaped character has no control character left in it. -/
theorem le_of_mem_escape {c : Char} : ∀ e ∈ escape c, 0x20 ≤ e.toNat := by
  have hdigit : ∀ n < 0x20,
      ('\\' :: 'u' :: lowerHex4 n).all (fun e => 0x20 ≤ e.toNat) = true := by decide
  unfold escape
  split
  · simp
  split
  · simp
  split
  · simp
  split
  · simp
  split
  · simp
  split
  · next hcontrol =>
    intro e he
    simpa using List.all_eq_true.mp (hdigit _ hcontrol) e he
  · next hcontrol =>
    intro e he
    rw [List.mem_singleton.mp he]
    exact Nat.le_of_not_lt hcontrol

/-- There is no raw control character in a token. -/
theorem le_of_mem_stringToken {text : List Char} {b : UInt8} (hb : b ∈ stringToken text) :
    0x20 ≤ b.toNat := by
  obtain ⟨e, he, hbyte⟩ := List.mem_flatMap.mp hb
  have hchar : 0x20 ≤ e.toNat := by
    rcases List.mem_cons.mp he with rfl | he
    · decide
    rcases List.mem_append.mp he with he | he
    · obtain ⟨c, -, hescape⟩ := List.mem_flatMap.mp he
      exact le_of_mem_escape e hescape
    · rw [List.mem_singleton.mp he]
      decide
  exact Utf8.le_of_mem_encodeChar_of_le (by omega) hchar hbyte

/-- The scanner stops at the closing quotation mark, whatever follows. -/
theorem scanString_stringToken (text : List Char) (rest : List UInt8) :
    scanString (stringToken text ++ rest) = some (text, rest) := by
  rw [stringToken_eq, List.cons_append, List.append_assoc]
  exact scanString_flatMap _ text (fun c _ => scansChar_escape_char c) rest

/-- **A string token delimits itself.** For every string and whatever bytes follow: what
`write_json_string` appends begins and ends with a quotation mark, is scanned from the one to
the other and no further, and decodes to the string; it is UTF-8 without control
characters; and the token of no other string begins with it. -/
theorem writeJsonString_selfDelimiting (text : List Char) (out : Buffer) :
    ∃ token, writeJsonString text out = (out ++ token, none) ∧
      (∃ body, token = '"'.toUInt8 :: (body ++ ['"'.toUInt8])) ∧
      (∀ suffix, scanString (token ++ suffix) = some (text, suffix)) ∧
      (Utf8.decode? token).isSome = true ∧ (∀ b ∈ token, 0x20 ≤ b.toNat) ∧
      ∀ other suffix, writeJsonString other [] = (token ++ suffix, none) →
        other = text ∧ suffix = [] := by
  refine ⟨stringToken text, writeJsonString_eq text out, ⟨_, stringToken_eq text⟩,
    scanString_stringToken text, ?_, fun b => le_of_mem_stringToken, ?_⟩
  · rw [stringToken, Utf8.decode?_encode]
    rfl
  · intro other suffix hother
    rw [writeJsonString_eq, List.nil_append, Prod.mk.injEq] at hother
    have hscan := scanString_stringToken other []
    rw [List.append_nil, hother.1, scanString_stringToken, Option.some.injEq,
      Prod.mk.injEq] at hscan
    exact ⟨hscan.1.symm, hscan.2⟩

end Rayo
