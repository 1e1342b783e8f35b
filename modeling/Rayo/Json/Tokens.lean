import Rayo.Json.Reading

/-!
# Tokens of a JSON text

A text is cut into tokens, and a number keeps the characters that it is spelled with.
`Lexes text tokens` says that the lexer takes exactly `text` off its input and makes `tokens` of
it. A number ends where the next token is punctuation.
-/

namespace Json

/-- A token, with the content of a string and the spelling of a number. -/
inductive Token
  | punctuation (c : Char)
  | null
  | bool (b : Bool)
  | string (text : List Char)
  | number (spelling : List Char)
  deriving DecidableEq

/-- The structural characters. -/
def isPunctuation (c : Char) : Bool :=
  c = '{' ∨ c = '}' ∨ c = '[' ∨ c = ']' ∨ c = ':' ∨ c = ','

/-- A fixed word. -/
def lexWord (word : List Char) (token : Token) (input : List Char) :
    Option (Token × List Char) :=
  if word.isPrefixOf input then some (token, input.drop word.length) else none

/-- A number, as it is spelled. -/
def lexNumber (input : List Char) : Option (Token × List Char) :=
  (parseNumber input).map fun (_, rest) =>
    (.number (input.take (input.length - rest.length)), rest)

/-- The first token of an input without leading whitespace. -/
def lexToken : List Char → Option (Token × List Char)
  | [] => none
  | c :: rest =>
    if isPunctuation c then some (.punctuation c, rest)
    else if c = '"' then
      (parseString (rest.length + 1) rest).map fun (text, rest) => (.string text, rest)
    else if c = 'n' then lexWord ['n', 'u', 'l', 'l'] .null (c :: rest)
    else if c = 't' then lexWord ['t', 'r', 'u', 'e'] (.bool true) (c :: rest)
    else if c = 'f' then lexWord ['f', 'a', 'l', 's', 'e'] (.bool false) (c :: rest)
    else lexNumber (c :: rest)

/-- The tokens of an input, at most `n` of them. -/
def lex : ℕ → List Char → Option (List Token)
  | 0, _ => none
  | n + 1, input =>
    match skipSpace input with
    | [] => some []
    | c :: rest => do
      let (token, rest) ← lexToken (c :: rest)
      let tokens ← lex n rest
      some (token :: tokens)

/-- The tokens of a whole text. -/
def tokenize (input : List Char) : Option (List Token) := lex (input.length + 1) input

/-- The text is exactly these tokens, whatever delimited text follows it. -/
structure Lexes (text : List Char) (tokens : List Token) : Prop where
  length : tokens.length ≤ text.length
  lex : ∀ n rest, Delimited rest →
    lex (tokens.length + n) (text ++ rest) = (lex n rest).map (tokens ++ ·)

/-- A whole text is cut into its tokens. -/
theorem Lexes.tokenize_eq {text : List Char} {tokens : List Token} (h : Lexes text tokens) :
    tokenize text = some tokens := by
  have hlength := h.length
  have hlex := h.lex (text.length - tokens.length + 1) [] delimited_nil
  have hfuel : tokens.length + (text.length - tokens.length + 1) = text.length + 1 := by omega
  rw [hfuel, List.append_nil] at hlex
  rw [tokenize, hlex]
  simp [Json.lex, skipSpace]

/-- The empty text has no tokens. -/
theorem lexes_nil : Lexes [] [] := ⟨le_rfl, fun n rest _ => by simp⟩

/-- One more token in front, whose text begins with something else than whitespace. -/
theorem Lexes.cons {c : Char} {tail text : List Char} {token : Token} {tokens : List Token}
    (hspace : isSpace c = false)
    (htoken : ∀ rest, Delimited rest →
      lexToken (c :: tail ++ (text ++ rest)) = some (token, text ++ rest))
    (h : Lexes text tokens) : Lexes (c :: tail ++ text) (token :: tokens) := by
  have hlength := h.length
  refine ⟨?_, fun n rest hrest => ?_⟩
  · simp only [List.length_cons, List.length_append]
    omega
  · have hfirst := htoken rest hrest
    have hfuel : (token :: tokens).length + n = tokens.length + n + 1 := by
      rw [List.length_cons]
      omega
    rw [hfuel, List.append_assoc, Json.lex]
    rw [List.cons_append] at hfirst ⊢
    rw [skipSpace_cons hspace]
    simp only [hfirst, Option.bind_eq_bind, Option.bind_some, h.lex n rest hrest]
    cases Json.lex n rest <;> rfl

/-- Punctuation is no white space. -/
theorem isSpace_of_isPunctuation {c : Char} (hc : isPunctuation c = true) :
    isSpace c = false := by
  simp only [isPunctuation, decide_eq_true_eq] at hc
  rcases hc with rfl | rfl | rfl | rfl | rfl | rfl <;> decide

/-- Punctuation delimits what comes before it. -/
theorem delimited_of_isPunctuation {c : Char} (hc : isPunctuation c = true) (rest : List Char) :
    Delimited (c :: rest) := by
  apply delimited_cons
  simp only [isPunctuation, decide_eq_true_eq] at hc
  rcases hc with rfl | rfl | rfl | rfl | rfl | rfl <;> decide

/-- A punctuation character is a token of its own. -/
theorem Lexes.punctuation {c : Char} {text : List Char} {tokens : List Token}
    (hc : isPunctuation c = true) (h : Lexes text tokens) :
    Lexes (c :: text) (.punctuation c :: tokens) := by
  have hcons : Lexes ([c] ++ text) (.punctuation c :: tokens) :=
    Lexes.cons (isSpace_of_isPunctuation hc) (fun _ _ => by simp [lexToken, hc]) h
  exact hcons

/-- A string is a token of its own. -/
theorem Lexes.string {spelling s text : List Char} {tokens : List Token}
    (hs : ReadsString spelling s) (h : Lexes text tokens) :
    Lexes (spelling ++ text) (.string s :: tokens) := by
  obtain ⟨body, rfl, hbody⟩ := hs
  refine Lexes.cons (by decide) (fun rest _ => ?_) h
  have hread := hbody ((body ++ (text ++ rest)).length + 1) (text ++ rest) (by
    rw [List.length_append]
    omega)
  have hplain : ¬ isPunctuation '"' = true := by decide
  rw [List.cons_append, lexToken, if_neg hplain, if_pos rfl, hread]
  rfl

/-- A word at the end of the text. -/
theorem lexes_word {c : Char} {tail : List Char} {token : Token} (hspace : isSpace c = false)
    (htoken : ∀ rest, lexToken (c :: tail ++ rest) =
      lexWord (c :: tail) token (c :: tail ++ rest)) :
    Lexes (c :: tail) [token] := by
  have hword : Lexes (c :: tail ++ []) (token :: []) := by
    refine Lexes.cons hspace (fun rest _ => ?_) lexes_nil
    rw [List.nil_append, htoken, lexWord]
    simp
  rwa [List.append_nil] at hword

/-- `null` is a token. -/
theorem lexes_null : Lexes ['n', 'u', 'l', 'l'] [.null] :=
  lexes_word (by decide) fun _ => rfl

/-- A boolean is a token. -/
theorem lexes_bool (b : Bool) :
    Lexes (if b then ['t', 'r', 'u', 'e'] else ['f', 'a', 'l', 's', 'e']) [.bool b] := by
  cases b with
  | true => exact lexes_word (by decide) fun _ => rfl
  | false => exact lexes_word (by decide) fun _ => rfl

/-- A number at the end of the text keeps its spelling. -/
theorem lexes_number (d : Decimal) : Lexes d.text [.number d.text] := by
  obtain ⟨c, tail, htext, hc⟩ := text_start d
  have hne := ne_of_numeric hc
  have hplain : ¬ isPunctuation c = true := by
    simp [isPunctuation, hne '{' (by decide) (by decide), hne '}' (by decide) (by decide),
      hne '[' (by decide) (by decide), hne ']' (by decide) (by decide),
      hne ':' (by decide) (by decide), hne ',' (by decide) (by decide)]
  have hnumber : Lexes (c :: tail ++ []) (.number d.text :: []) := by
    refine Lexes.cons (isSpace_of_numeric hc) (fun rest hrest => ?_) lexes_nil
    have hparse := parseNumber_text d hrest
    rw [htext, List.cons_append] at hparse
    have htake : (c :: (tail ++ rest)).take ((c :: (tail ++ rest)).length - rest.length) =
        c :: tail := by
      have hlength : (c :: (tail ++ rest)).length - rest.length = (c :: tail).length := by
        simp only [List.length_cons, List.length_append]
        omega
      rw [hlength, ← List.cons_append, List.take_left]
    rw [List.nil_append, List.cons_append, lexToken, if_neg hplain,
      if_neg (hne '"' (by decide) (by decide)), if_neg (hne 'n' (by decide) (by decide)),
      if_neg (hne 't' (by decide) (by decide)), if_neg (hne 'f' (by decide) (by decide)),
      lexNumber, hparse]
    simp only [Option.map_some, htake, htext]
  rwa [List.append_nil, ← htext] at hnumber

/-- Texts that delimit what comes before them. -/
def Delimits (text : List Char) : Prop :=
  ∀ rest, Delimited rest → Delimited (text ++ rest)

/-- The empty text delimits as much as what follows it. -/
theorem delimits_nil : Delimits [] := fun _ hrest => hrest

/-- Punctuation delimits what comes before it. -/
theorem delimits_punctuation {c : Char} (hc : isPunctuation c = true) (text : List Char) :
    Delimits (c :: text) := fun _ _ => delimited_of_isPunctuation hc _

/-- The tokens of two texts are those of the whole if the second one delimits the first. -/
theorem Lexes.append {left right : List Char} {tokens tokens' : List Token}
    (h : Lexes left tokens) (h' : Lexes right tokens') (hdelimits : Delimits right) :
    Lexes (left ++ right) (tokens ++ tokens') := by
  have hleft := h.length
  have hright := h'.length
  refine ⟨?_, fun n rest hrest => ?_⟩
  · simp only [List.length_append]
    omega
  · have hfuel : (tokens ++ tokens').length + n = tokens.length + (tokens'.length + n) := by
      rw [List.length_append]
      omega
    rw [hfuel, List.append_assoc, h.lex _ _ (hdelimits rest hrest), h'.lex n rest hrest]
    cases Json.lex n rest with
    | none => rfl
    | some later => simp

end Json
