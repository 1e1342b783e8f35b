import Rayo.Json.Value
import Rayo.Utf8

/-!
# A reference parser for JSON

The grammar of RFC 8259 on bytes that are decoded as UTF-8 first. `Reads text v` says that
the parser takes exactly `text` off its input and makes `v` of it; there is one rule for each
kind of value. The fuel of the parser is the length of its input, which is always enough.
-/

namespace Json

/-- Insignificant whitespace. -/
def isSpace (c : Char) : Bool := c = ' ' ∨ c = '\t' ∨ c = '\n' ∨ c = '\r'

/-- Skip whitespace. -/
def skipSpace (input : List Char) : List Char := input.dropWhile isSpace

/-- The value of a hexadecimal digit. -/
def hexDigit? (c : Char) : Option ℕ :=
  if '0' ≤ c ∧ c ≤ '9' then some (c.toNat - '0'.toNat)
  else if 'a' ≤ c ∧ c ≤ 'f' then some (c.toNat - 'a'.toNat + 10)
  else if 'A' ≤ c ∧ c ≤ 'F' then some (c.toNat - 'A'.toNat + 10)
  else none

/-- Four hexadecimal digits. -/
def parseHex4 : List Char → Option (ℕ × List Char)
  | a :: b :: c :: d :: rest => do
    let a ← hexDigit? a
    let b ← hexDigit? b
    let c ← hexDigit? c
    let d ← hexDigit? d
    some (((a * 16 + b) * 16 + c) * 16 + d, rest)
  | _ => none

/-- A UTF-16 code unit after `\u`, and the second one of a surrogate pair. -/
def parseUnicode (input : List Char) : Option (Char × List Char) :=
  match parseHex4 input with
  | none => none
  | some (unit, rest) =>
    if 0xd800 ≤ unit ∧ unit < 0xdc00 then
      match rest with
      | '\\' :: 'u' :: rest =>
        match parseHex4 rest with
        | none => none
        | some (low, rest) =>
          if 0xdc00 ≤ low ∧ low < 0xe000 then
            some (Char.ofNat (0x10000 + (unit - 0xd800) * 0x400 + (low - 0xdc00)), rest)
          else none
      | _ => none
    else if 0xdc00 ≤ unit ∧ unit < 0xe000 then none
    else some (Char.ofNat unit, rest)

/-- What follows a backslash. -/
def parseEscape : List Char → Option (Char × List Char)
  | '"' :: rest => some ('"', rest)
  | '\\' :: rest => some ('\\', rest)
  | '/' :: rest => some ('/', rest)
  | 'b' :: rest => some ('\x08', rest)
  | 'f' :: rest => some ('\x0c', rest)
  | 'n' :: rest => some ('\n', rest)
  | 'r' :: rest => some ('\r', rest)
  | 't' :: rest => some ('\t', rest)
  | 'u' :: rest => parseUnicode rest
  | _ => none

/-- One character of a string. -/
def parseChar : List Char → Option (Char × List Char)
  | [] => none
  | c :: rest =>
    if c = '\\' then parseEscape rest
    else if c.toNat < 0x20 then none
    else some (c, rest)

/-- The characters of a string, up to the closing quotation mark. -/
def parseString : ℕ → List Char → Option (List Char × List Char)
  | 0, _ => none
  | n + 1, input =>
    if input.head? = some '"' then some ([], input.tail)
    else do
      let (c, rest) ← parseChar input
      let (text, rest) ← parseString n rest
      some (c :: text, rest)

/-- An optional fraction. -/
def parseFraction : List Char → Option (List Char × List Char)
  | '.' :: rest =>
    if rest.takeWhile Char.isDigit = [] then none
    else some (rest.takeWhile Char.isDigit, rest.dropWhile Char.isDigit)
  | input => some ([], input)

/-- The digits of an exponent. -/
def parseExponentDigits (input : List Char) : Option (ℕ × List Char) :=
  if input.takeWhile Char.isDigit = [] then none
  else some (Nat.ofDigitChars 10 (input.takeWhile Char.isDigit) 0, input.dropWhile Char.isDigit)

/-- An optional exponent. -/
def parseExponent (input : List Char) : Option (ℤ × List Char) :=
  if input.head? = some 'e' ∨ input.head? = some 'E' then
    match input.tail with
    | '-' :: rest => (parseExponentDigits rest).map fun (n, rest) => (-n, rest)
    | '+' :: rest => (parseExponentDigits rest).map fun (n, rest) => (n, rest)
    | rest => (parseExponentDigits rest).map fun (n, rest) => (n, rest)
  else some (0, input)

/-- A number after its sign. -/
def parseUnsigned (negative : Bool) (input : List Char) : Option (ℚ × List Char) :=
  let whole := input.takeWhile Char.isDigit
  if whole = [] ∨ (whole.head? = some '0' ∧ whole ≠ ['0']) then none
  else do
    let (fraction, rest) ← parseFraction (input.dropWhile Char.isDigit)
    let (exponent, rest) ← parseExponent rest
    some (scaled negative (whole ++ fraction) fraction.length * 10 ^ exponent, rest)

/-- A number. -/
def parseNumber (input : List Char) : Option (ℚ × List Char) :=
  if input.head? = some '-' then parseUnsigned true input.tail else parseUnsigned false input

/-- A fixed word. -/
def parseWord (word : List Char) (v : Value) (input : List Char) : Option (Value × List Char) :=
  if word.isPrefixOf input then some (v, input.drop word.length) else none

mutual

/-- A value, after whitespace. -/
def parseValue : ℕ → List Char → Option (Value × List Char)
  | 0, _ => none
  | n + 1, input =>
    match skipSpace input with
    | [] => none
    | c :: rest =>
      if c = '{' then
        if (skipSpace rest).head? = some '}' then some (.object [], (skipSpace rest).tail)
        else (parseMembers n rest).map fun (members, rest) => (.object members, rest)
      else if c = '[' then
        if (skipSpace rest).head? = some ']' then some (.array [], (skipSpace rest).tail)
        else (parseItems n rest).map fun (items, rest) => (.array items, rest)
      else if c = '"' then
        (parseString n rest).map fun (text, rest) => (.string text, rest)
      else if c = 'n' then parseWord ['n', 'u', 'l', 'l'] .null (c :: rest)
      else if c = 't' then parseWord ['t', 'r', 'u', 'e'] (.bool true) (c :: rest)
      else if c = 'f' then parseWord ['f', 'a', 'l', 's', 'e'] (.bool false) (c :: rest)
      else (parseNumber (c :: rest)).map fun (q, rest) => (.number q, rest)

/-- One or more items, up to the closing bracket. -/
def parseItems : ℕ → List Char → Option (List Value × List Char)
  | 0, _ => none
  | n + 1, input => do
    let (v, rest) ← parseValue n input
    match skipSpace rest with
    | ']' :: rest => some ([v], rest)
    | ',' :: rest => (parseItems n rest).map fun (items, rest) => (v :: items, rest)
    | _ => none

/-- One or more members, up to the closing brace. -/
def parseMembers : ℕ → List Char → Option (List (List Char × Value) × List Char)
  | 0, _ => none
  | n + 1, input =>
    match skipSpace input with
    | '"' :: rest => do
      let (name, rest) ← parseString n rest
      match skipSpace rest with
      | ':' :: rest => do
        let (v, rest) ← parseValue n rest
        match skipSpace rest with
        | '}' :: rest => some ([(name, v)], rest)
        | ',' :: rest =>
          (parseMembers n rest).map fun (members, rest) => ((name, v) :: members, rest)
        | _ => none
      | _ => none
    | _ => none

end

/-- Parse a whole text. -/
def parseText (input : List Char) : Option Value :=
  match parseValue (input.length + 1) input with
  | some (v, rest) => if skipSpace rest = [] then some v else none
  | none => none

/-- Parse the bytes of a whole text. -/
def parse (bytes : List UInt8) : Option Value := (Utf8.decode? bytes).bind parseText

end Json
