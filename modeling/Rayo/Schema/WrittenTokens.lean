import Rayo.Json.Tokens
import Rayo.Schema.RoundTrip

/-!
# The tokens that `write_json` writes

Two objects with the same text have the same tokens, and a number token keeps its spelling.
-/

namespace Rayo

open Json

variable {F : Type} {ops : FloatOps F}

/-- A token as the writer spells it. -/
def spell : Token → List Char
  | .punctuation c => [c]
  | .null => ['n', 'u', 'l', 'l']
  | .bool b => if b then ['t', 'r', 'u', 'e'] else ['f', 'a', 'l', 's', 'e']
  | .string text => '"' :: (text.flatMap escape ++ ['"'])
  | .number spelling => spelling

/-- Tokens one after the other. -/
def spellAll (tokens : List Token) : List Char := tokens.flatMap spell

/-- No tokens are spelled as nothing. -/
@[simp] theorem spellAll_nil : spellAll [] = [] := rfl

/-- Tokens are spelled one after the other. -/
@[simp] theorem spellAll_cons (token : Token) (tokens : List Token) :
    spellAll (token :: tokens) = spell token ++ spellAll tokens := rfl

/-- Two lists of tokens are spelled one after the other. -/
@[simp] theorem spellAll_append (tokens tokens' : List Token) :
    spellAll (tokens ++ tokens') = spellAll tokens ++ spellAll tokens' :=
  List.flatMap_append

/-- The comma in front of all but the first part. -/
def separator (first : Bool) : List Token := if first then [] else [.punctuation ',']

/-- Entries are separated by commas. -/
theorem spellAll_separator (first : Bool) :
    spellAll (separator first) = if first then [] else [','] := by
  cases first <;> rfl

/-- The token of a key. -/
def keyToken : PyKey → Token
  | .str text => .string ((toStr text).getD [])
  | .other _ => .string []

mutual

/-- The tokens of an object. -/
def tokens (ops : FloatOps F) : PyValue F → List Token
  | .none => [.null]
  | .bool b => [.bool b]
  | .int i => [.number (toString i).toList]
  | .float x => [.number (ops.display x)]
  | .str text => [.string ((toStr text).getD [])]
  | .dict entries => .punctuation '{' :: (entryTokens ops true entries ++ [.punctuation '}'])
  | .list items => .punctuation '[' :: (itemTokens ops true items ++ [.punctuation ']'])
  | .tuple items => .punctuation '[' :: (itemTokens ops true items ++ [.punctuation ']'])
  | .other _ => []
termination_by structural v => v

/-- The tokens of the entries of a dict. -/
def entryTokens (ops : FloatOps F) (first : Bool) : List (PyKey × PyValue F) → List Token
  | [] => []
  | (key, v) :: rest =>
    separator first ++ keyToken key :: .punctuation ':' ::
      (tokens ops v ++ entryTokens ops false rest)
termination_by structural entries => entries

/-- The tokens of the items of a sequence. -/
def itemTokens (ops : FloatOps F) (first : Bool) : List (PyValue F) → List Token
  | [] => []
  | v :: rest => separator first ++ (tokens ops v ++ itemTokens ops false rest)
termination_by structural items => items

end

/-- A string without lone surrogates is written. -/
theorem toStr_of_isValidChar {text : PyStr} (h : ∀ p ∈ text, p.val.isValidChar) :
    toStr text = some ((toStr text).getD []) := by
  obtain ⟨chars, hchars⟩ := Option.isSome_iff_exists.mp ((toStr_isSome text).mpr h)
  rw [hchars]
  rfl

mutual

/-- A serializable object is written as its tokens. -/
theorem writes_tokens {v : PyValue F} (hv : Serializable ops v) :
    Writes (writeJson ops v) (some (spellAll (tokens ops v))) := by
  match v with
  | .none => exact writes_push _
  | .bool b => cases b <;> exact writes_push _
  | .int i =>
    cases hv with
    | int hlow hhigh =>
      have hextract : extractI64 i = some i := if_pos ⟨hlow, hhigh⟩
      simp only [writeJson, hextract, tokens, spellAll_cons, spell, spellAll_nil, List.append_nil]
      exact writes_push _
  | .float x =>
    cases hv with
    | float hx =>
      simp only [writeJson, hx, tokens, spellAll_cons, spell, spellAll_nil, List.append_nil]
      exact writes_push _
  | .str text =>
    cases hv with
    | str htext =>
      rw [writeJson, toStr_of_isValidChar htext]
      simpa [tokens, spell] using writes_writeJsonString ((toStr text).getD [])
  | .dict entries =>
    cases hv with
    | dict hkeys hvalues =>
      have hentries := writes_entryTokens hkeys hvalues true
      simpa [tokens, spell, writeJson] using
        (writes_push ['{']).andThen (hentries.andThen (writes_push ['}']))
  | .list items =>
    cases hv with
    | list hitems =>
      have hitems := writes_itemTokens hitems 0
      simpa [tokens, spell, writeJson, bracketed] using
        (writes_push ['[']).andThen (hitems.andThen (writes_push [']']))
  | .tuple items =>
    cases hv with
    | tuple hitems =>
      have hitems := writes_itemTokens hitems 0
      simpa [tokens, spell, writeJson, bracketed] using
        (writes_push ['[']).andThen (hitems.andThen (writes_push [']']))
  | .other _ => nomatch hv

/-- The entries of a dictionary are written as their tokens are spelled. -/
theorem writes_entryTokens {entries : List (PyKey × PyValue F)}
    (hkeys : ∀ entry ∈ entries, ∃ text, entry.1 = .str text ∧ ∀ p ∈ text, p.val.isValidChar)
    (hvalues : ∀ entry ∈ entries, Serializable ops entry.2) (first : Bool) :
    Writes (writeEntries ops first entries) (some (spellAll (entryTokens ops first entries))) := by
  match entries with
  | [] => exact writes_push []
  | (key, v) :: rest =>
    obtain ⟨text, hkey, htext⟩ := hkeys _ List.mem_cons_self
    have hv := writes_tokens (hvalues _ List.mem_cons_self)
    have hrest := writes_entryTokens (fun e he => hkeys e (List.mem_cons_of_mem _ he))
      (fun e he => hvalues e (List.mem_cons_of_mem _ he)) false
    have hstr := toStr_of_isValidChar htext
    have hname := writes_writeJsonString ((toStr text).getD [])
    obtain rfl : key = .str text := hkey
    have hentry := (writes_push (if first then [] else [','])).andThen
      (hname.andThen ((writes_push [':']).andThen (hv.andThen hrest)))
    rw [writeEntries, hstr]
    simpa [entryTokens, keyToken, spell, spellAll_separator] using hentry

/-- The items of a sequence are written as their tokens are spelled. -/
theorem writes_itemTokens {items : List (PyValue F)}
    (hitems : ∀ item ∈ items, Serializable ops item) (index : ℕ) :
    Writes (writeItems ops index items)
      (some (spellAll (itemTokens ops (decide (index = 0)) items))) := by
  match items with
  | [] => exact writes_push []
  | v :: rest =>
    have hv := writes_tokens (hitems _ List.mem_cons_self)
    have hrest := writes_itemTokens (fun e he => hitems e (List.mem_cons_of_mem _ he)) (index + 1)
    have hcomma : (if 0 < index then [','] else []) =
        if decide (index = 0) then ([] : List Char) else [','] := by
      rcases Nat.eq_zero_or_pos index with h | h
      · simp [h]
      · have hne : index ≠ 0 := by omega
        simp [h, hne]
    have hloop := (writes_push (if 0 < index then [','] else [])).andThen (hv.andThen hrest)
    rw [hcomma] at hloop
    rw [writeItems, hcomma]
    simpa [itemTokens, spellAll_separator] using hloop

end

/-- What follows an item is delimited. -/
theorem delimits_itemTokens (items : List (PyValue F)) :
    Delimits (spellAll (itemTokens ops false items)) := by
  cases items with
  | nil => exact delimits_nil
  | cons v rest => exact delimits_punctuation (by decide) _

/-- The entries after the first delimit what comes before them. -/
theorem delimits_entryTokens (entries : List (PyKey × PyValue F)) :
    Delimits (spellAll (entryTokens ops false entries)) := by
  cases entries with
  | nil => exact delimits_nil
  | cons entry rest => exact delimits_punctuation (by decide) _

/-- One character of punctuation at the end. -/
theorem lexes_punctuation {c : Char} (hc : isPunctuation c = true) :
    Lexes (spellAll [.punctuation c]) [.punctuation c] := lexes_nil.punctuation hc

/-- A part after its separator. -/
theorem lexes_separated {ts : List Token} (first : Bool) (h : Lexes (spellAll ts) ts) :
    Lexes (spellAll (separator first ++ ts)) (separator first ++ ts) := by
  cases first with
  | true => exact h
  | false => exact h.punctuation (by decide)

/-- Every finite float is printed as some decimal literal. -/
def PrintsLiterals (ops : FloatOps F) : Prop :=
  ∀ x, ops.isFinite x = true → ∃ d : Decimal, ops.display x = d.text

/-- The writer only succeeds on a serializable object. -/
theorem serializable_of_ok (hdisplay : PrintsLiterals ops) {v : PyValue F} {out : Buffer}
    (h : (writeJson ops v out).2 = none) : Serializable ops v := by
  choose d hd using hdisplay
  have hdecimals : PrintsDecimals ops fun x =>
      if hx : ops.isFinite x = true then (d x hx).value else 0 := fun x hx =>
    ⟨d x hx, hd x hx, by simp [hx]⟩
  exact (writeJson_ok_iff hdecimals v out).mp h

mutual

/-- The text of the tokens is read as these tokens. -/
theorem lexes_tokens (hdisplay : PrintsLiterals ops) {v : PyValue F} (hv : Serializable ops v) :
    Lexes (spellAll (tokens ops v)) (tokens ops v) := by
  match v with
  | .none => exact lexes_null
  | .bool b => simpa [tokens, spell] using lexes_bool b
  | .int i =>
    have hnumber := lexes_number (Decimal.ofInt i)
    rw [Decimal.text_ofInt] at hnumber
    simpa [tokens, spell] using hnumber
  | .float x =>
    cases hv with
    | float hx =>
      obtain ⟨d, hd⟩ := hdisplay x hx
      simpa [tokens, spell, hd] using lexes_number d
  | .str text => exact lexes_nil.string (readsString_escape _)
  | .dict entries =>
    cases hv with
    | dict hkeys hvalues =>
      have hentries := lexes_entryTokens hdisplay hvalues true
      have hclosed := hentries.append (lexes_punctuation (c := '}') (by decide))
        (delimits_punctuation (by decide) _)
      simpa [tokens, spell] using hclosed.punctuation (c := '{') (by decide)
  | .list items =>
    cases hv with
    | list hitems =>
      have hitems := lexes_itemTokens hdisplay hitems true
      have hclosed := hitems.append (lexes_punctuation (c := ']') (by decide))
        (delimits_punctuation (by decide) _)
      simpa [tokens, spell] using hclosed.punctuation (c := '[') (by decide)
  | .tuple items =>
    cases hv with
    | tuple hitems =>
      have hitems := lexes_itemTokens hdisplay hitems true
      have hclosed := hitems.append (lexes_punctuation (c := ']') (by decide))
        (delimits_punctuation (by decide) _)
      simpa [tokens, spell] using hclosed.punctuation (c := '[') (by decide)
  | .other _ => nomatch hv

/-- The entries of a dictionary are read as their tokens. -/
theorem lexes_entryTokens (hdisplay : PrintsLiterals ops) {entries : List (PyKey × PyValue F)}
    (hvalues : ∀ entry ∈ entries, Serializable ops entry.2) (first : Bool) :
    Lexes (spellAll (entryTokens ops first entries)) (entryTokens ops first entries) := by
  match entries with
  | [] => exact lexes_nil
  | (key, v) :: rest =>
    have hv := lexes_tokens hdisplay (hvalues _ List.mem_cons_self)
    have hrest := lexes_entryTokens hdisplay
      (fun e he => hvalues e (List.mem_cons_of_mem _ he)) false
    have hafter := (hv.append hrest (delimits_entryTokens rest)).punctuation
      (c := ':') (by decide)
    have hkey (text : List Char) := hafter.string (readsString_escape text)
    refine lexes_separated first ?_
    cases key with
    | str text => simpa [keyToken, spell] using hkey ((toStr text).getD [])
    | other _ => simpa [keyToken, spell] using hkey []

/-- The items of a sequence are read as their tokens. -/
theorem lexes_itemTokens (hdisplay : PrintsLiterals ops) {items : List (PyValue F)}
    (hitems : ∀ item ∈ items, Serializable ops item) (first : Bool) :
    Lexes (spellAll (itemTokens ops first items)) (itemTokens ops first items) := by
  match items with
  | [] => exact lexes_nil
  | v :: rest =>
    have hv := lexes_tokens hdisplay (hitems _ List.mem_cons_self)
    have hrest := lexes_itemTokens hdisplay
      (fun e he => hitems e (List.mem_cons_of_mem _ he)) false
    have happend := hv.append hrest (delimits_itemTokens rest)
    rw [← spellAll_append] at happend
    exact lexes_separated first happend

end

/-- Objects with the same text have the same tokens. -/
theorem tokens_eq_of_spellAll (hdisplay : PrintsLiterals ops) {v w : PyValue F}
    (hv : Serializable ops v) (hw : Serializable ops w)
    (h : spellAll (tokens ops v) = spellAll (tokens ops w)) : tokens ops v = tokens ops w := by
  have hleft := (lexes_tokens hdisplay hv).tokenize_eq
  have hright := (lexes_tokens hdisplay hw).tokenize_eq
  rw [h, hright] at hleft
  exact (Option.some.inj hleft).symm

end Rayo
