import Mathlib.Algebra.Group.Int.Defs
import Mathlib.Data.List.Basic
import Rayo.Dispatch.Channel

/-!
# Writing JSON

`write_json` walks the object that a handler returned and appends bytes to a buffer. An
error ends the walk in the middle of what has been written. The numbers of type `f64` are a
parameter, with their `is_finite` and their `Display`.
-/

namespace Rayo

/-- A code point of a Python string, which may be a surrogate. -/
abbrev CodePoint := Fin 0x110000

/-- A Python string. -/
abbrev PyStr := List CodePoint

/-- The character of a code point that is not a surrogate. -/
def toChar? (p : CodePoint) : Option Char :=
  if p.val.isValidChar then some (Char.ofNat p.val) else none

/-- The code point of a character. -/
def CodePoint.ofChar (c : Char) : CodePoint :=
  ⟨c.toNat, by
    rcases c.valid with h | h
    · exact Nat.lt_trans h (by decide)
    · exact h.2⟩

/-- `PyString::to_str`, which fails on a lone surrogate. -/
def toStr (text : PyStr) : Option (List Char) := text.mapM toChar?

/-- The key of a dict entry: an instance of `str`, or of another type with this name. -/
inductive PyKey
  | str (text : PyStr)
  | other (typeName : String)
  deriving DecidableEq

/-- A Python object as a finite tree, with floats from `F`. An instance of a subclass of a
built-in type counts as one of the type. -/
inductive PyValue (F : Type)
  | none
  | bool (b : Bool)
  | int (i : ℤ)
  | float (x : F)
  | str (text : PyStr)
  | dict (entries : List (PyKey × PyValue F))
  | list (items : List (PyValue F))
  | tuple (items : List (PyValue F))
  | other (typeName : String)

/-- The operations of `f64`. -/
structure FloatOps (F : Type) where
  isFinite : F → Bool
  /-- `to_string`. -/
  display : F → List Char

/-- The exceptions that writing raises. -/
inductive PyErr
  | valueError (message : String)
  | typeError (message : String)
  | unicodeEncodeError
  deriving DecidableEq

/-- `out: &mut Vec<u8>`. -/
abbrev Buffer := List UInt8

/-- What appends to a buffer, and may fail after that. -/
abbrev Writer := Buffer → Buffer × Option PyErr

/-- `extend_from_slice`. -/
def push (text : List Char) : Writer := fun out => (out ++ Utf8.encode text, none)

/-- `return Err(..)`. -/
def fail (e : PyErr) : Writer := fun out => (out, some e)

/-- `w?; w'`. -/
def andThen (w w' : Writer) : Writer := fun out =>
  match w out with
  | (out, none) => w' out
  | failed => failed

/-- `format!("{:04x}", n)`, for up to four digits. -/
def lowerHex4 (n : ℕ) : List Char := (Nat.toDigits 16 n).leftpad 4 '0'

/-- How `write_json_string` writes a character. -/
def escape (c : Char) : List Char :=
  if c = '"' then ['\\', '"']
  else if c = '\\' then ['\\', '\\']
  else if c = '\n' then ['\\', 'n']
  else if c = '\r' then ['\\', 'r']
  else if c = '\t' then ['\\', 't']
  else if c.toNat < 0x20 then '\\' :: 'u' :: lowerHex4 c.toNat
  else [c]

/-- The loop of `write_json_string`. -/
def writeChars : List Char → Writer
  | [] => push []
  | c :: text => andThen (push (escape c)) (writeChars text)

/-- `write_json_string`. -/
def writeJsonString (text : List Char) : Writer :=
  andThen (push ['"']) (andThen (writeChars text) (push ['"']))

/-- The error for an object of another type. -/
def unsupported (typeName : String) : PyErr :=
  .typeError ("Rayo cannot serialize " ++ typeName ++ " to JSON yet (v0 supports dict, list, " ++
    "tuple, str, int, float, bool, None; typed models arrive with the schema engine)")

/-- `value.extract::<i64>()`. -/
def extractI64 (i : ℤ) : Option ℤ := if -2 ^ 63 ≤ i ∧ i < 2 ^ 63 then some i else none

/-- `write_json_sequence` around the loop over its items. -/
def bracketed (w : Writer) : Writer := andThen (push ['[']) (andThen w (push [']']))

variable {F : Type} (ops : FloatOps F)

mutual

/-- `write_json`. -/
def writeJson : PyValue F → Writer
  | .none => push ['n', 'u', 'l', 'l']
  | .bool boolean => push (if boolean then ['t', 'r', 'u', 'e'] else ['f', 'a', 'l', 's', 'e'])
  | .int i =>
    match extractI64 i with
    | some integer => push (toString integer).toList
    | none => fail (.valueError
        "Rayo cannot serialize integers outside the 64-bit range to JSON yet")
  | .float number =>
    if !ops.isFinite number then
      fail (.valueError
        "JSON cannot represent NaN or infinity; return None or a string instead")
    else push (ops.display number)
  | .str text =>
    match toStr text with
    | some text => writeJsonString text
    | none => fail .unicodeEncodeError
  | .dict mapping =>
    andThen (push ['{']) (andThen (writeEntries true mapping) (push ['}']))
  | .list items => bracketed (writeItems 0 items)
  | .tuple items => bracketed (writeItems 0 items)
  | .other typeName => fail (unsupported typeName)
termination_by structural value => value

/-- The loop over the entries of a dict. -/
def writeEntries (firstEntry : Bool) : List (PyKey × PyValue F) → Writer
  | [] => push []
  | (entryKey, entryValue) :: rest =>
    andThen (push (if firstEntry then [] else [','])) <|
      match entryKey with
      | .other typeName => fail (.typeError ("JSON object keys must be str, found " ++ typeName))
      | .str keyText =>
        match toStr keyText with
        | none => fail .unicodeEncodeError
        | some keyText =>
          andThen (writeJsonString keyText) <|
            andThen (push [':']) (andThen (writeJson entryValue) (writeEntries false rest))
termination_by structural entries => entries

/-- The loop of `write_json_sequence`. -/
def writeItems (index : ℕ) : List (PyValue F) → Writer
  | [] => push []
  | item :: rest =>
    andThen (push (if 0 < index then [','] else [])) <|
      andThen (writeJson item) (writeItems (index + 1) rest)
termination_by structural items => items

end

/-- `write_json_sequence`. -/
def writeJsonSequence (items : List (PyValue F)) : Writer := bracketed (writeItems ops 0 items)

/-- `report_handler_error`, without the log. -/
def reportHandlerError (_ : PyErr) : HandlerResponse := .internalError

/-- `response_from_return_value`. -/
def responseFromReturnValue (value : PyValue F) : HandlerResponse :=
  match value with
  | .none => .noContent
  | .str text =>
    match toStr text with
    | some bodyText =>
      { status := 200, contentType := "text/plain; charset=utf-8", body := Utf8.encode bodyText }
    | none => reportHandlerError .unicodeEncodeError
  | value =>
    match writeJson ops value [] with
    | (body, none) => { status := 200, contentType := "application/json", body := body }
    | (_, some e) => reportHandlerError e

namespace PyValue

/-- `is_none`. -/
def isNone : PyValue F → Bool
  | .none => true
  | _ => false

/-- `cast::<PyBool>`. -/
def castBool : PyValue F → Option Bool
  | .bool b => some b
  | _ => Option.none

/-- `bool` is a subclass of `int`. -/
def castInt : PyValue F → Option ℤ
  | .bool b => some (if b then 1 else 0)
  | .int i => some i
  | _ => Option.none

/-- `cast::<PyFloat>`. -/
def castFloat : PyValue F → Option F
  | .float x => some x
  | _ => Option.none

/-- `cast::<PyString>`. -/
def castString : PyValue F → Option PyStr
  | .str text => some text
  | _ => Option.none

/-- `cast::<PyDict>`. -/
def castDict : PyValue F → Option (List (PyKey × PyValue F))
  | .dict entries => some entries
  | _ => Option.none

/-- `cast::<PyList>`. -/
def castList : PyValue F → Option (List (PyValue F))
  | .list items => some items
  | _ => Option.none

/-- `cast::<PyTuple>`. -/
def castTuple : PyValue F → Option (List (PyValue F))
  | .tuple items => some items
  | _ => Option.none

/-- The name of the type of an object that passes none of the tests. -/
def typeName : PyValue F → String
  | .other name => name
  | _ => ""

end PyValue

/-- The tests of `write_json` in their order, with `bool` before `int`, end in the branches of
`writeJson`. -/
theorem writeJson_eq_typeTests (value : PyValue F) :
    writeJson ops value =
      if value.isNone then push ['n', 'u', 'l', 'l']
      else if let some boolean := value.castBool then
        push (if boolean then ['t', 'r', 'u', 'e'] else ['f', 'a', 'l', 's', 'e'])
      else if let some i := value.castInt then
        match extractI64 i with
        | some integer => push (toString integer).toList
        | none => fail (.valueError
            "Rayo cannot serialize integers outside the 64-bit range to JSON yet")
      else if let some number := value.castFloat then
        if !ops.isFinite number then
          fail (.valueError
            "JSON cannot represent NaN or infinity; return None or a string instead")
        else push (ops.display number)
      else if let some text := value.castString then
        match toStr text with
        | some text => writeJsonString text
        | none => fail .unicodeEncodeError
      else if let some mapping := value.castDict then
        andThen (push ['{']) (andThen (writeEntries ops true mapping) (push ['}']))
      else if let some items := value.castList then writeJsonSequence ops items
      else if let some items := value.castTuple then writeJsonSequence ops items
      else fail (unsupported value.typeName) := by
  cases value <;> rfl

end Rayo
