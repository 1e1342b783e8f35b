import Rayo.Json.Tokens
import Rayo.Schema.WriteJson

/-!
# `json.loads`

Python's reader of JSON, with `float` on the spelling of a number as a parameter. A number
without fraction and exponent becomes an `int`, and of the values of a repeated key the last
one stays. Python also takes `NaN`, `Infinity` and escaped lone surrogates, which are no JSON.
-/

namespace Rayo

open Json

variable {F : Type}

/-- `mapping[key] = value`: a new key goes to the end, an old one keeps its place. -/
def setEntry (key : PyKey) (value : PyValue F) :
    List (PyKey × PyValue F) → List (PyKey × PyValue F)
  | [] => [(key, value)]
  | (key', value') :: rest =>
    if key' = key then (key', value) :: rest else (key', value') :: setEntry key value rest

/-- The dict of some entries, the first of which comes first. -/
def ofEntries (pairs : List (PyKey × PyValue F)) : List (PyKey × PyValue F) :=
  pairs.foldl (fun entries entry => setEntry entry.1 entry.2 entries) []

/-- An entry with a new key comes last. -/
theorem setEntry_of_not_mem {key : PyKey} {entries : List (PyKey × PyValue F)}
    (h : key ∉ entries.map Prod.fst) (v : PyValue F) :
    setEntry key v entries = entries ++ [(key, v)] := by
  induction entries with
  | nil => rfl
  | cons entry rest ih =>
    rw [List.map_cons, List.mem_cons, not_or] at h
    have hne : entry.1 ≠ key := fun heq => h.1 heq.symm
    rw [setEntry, if_neg hne, ih h.2, List.cons_append]

/-- A dict has the entries that it was made of if their keys are distinct. -/
theorem ofEntries_of_nodup {pairs : List (PyKey × PyValue F)}
    (h : (pairs.map Prod.fst).Nodup) : ofEntries pairs = pairs := by
  have hfold (rest entries : List (PyKey × PyValue F))
      (hnodup : ((entries ++ rest).map Prod.fst).Nodup) :
      rest.foldl (fun entries entry => setEntry entry.1 entry.2 entries) entries =
        entries ++ rest := by
    induction rest generalizing entries with
    | nil => simp
    | cons entry rest ih =>
      have hfresh : entry.1 ∉ entries.map Prod.fst := by
        rw [List.map_append, List.nodup_append] at hnodup
        intro hmem
        exact hnodup.2.2 _ hmem _ List.mem_cons_self rfl
      have hassoc : entries ++ [entry] ++ rest = entries ++ entry :: rest := by simp
      rw [List.foldl_cons, setEntry_of_not_mem hfresh, ih _ (hassoc ▸ hnodup), hassoc]
  exact hfold pairs [] h

/-- `int(spelling)`, for an optional sign and digits. -/
def pyInt : List Char → ℤ
  | '-' :: digits => -(Nat.ofDigitChars 10 digits 0 : ℤ)
  | digits => Nat.ofDigitChars 10 digits 0

/-- There is neither a fraction nor an exponent. -/
def isIntSpelling (spelling : List Char) : Bool :=
  spelling.all fun c => c = '-' ∨ c.isDigit

/-- A container that is being read. -/
inductive Frame (F : Type)
  /-- The items so far, newest first. -/
  | list (items : List (PyValue F))
  /-- The entries so far, and the key whose value is being read. -/
  | dict (entries : List (PyKey × PyValue F)) (key : PyKey)

/-- What the reader has come to. -/
inductive LoadState (F : Type)
  /-- A value comes next. -/
  | value (stack : List (Frame F))
  /-- A list has been opened. -/
  | firstItem (stack : List (Frame F))
  /-- An object has been opened. -/
  | firstKey (stack : List (Frame F))
  | key (entries : List (PyKey × PyValue F)) (stack : List (Frame F))
  | colon (entries : List (PyKey × PyValue F)) (key : PyKey) (stack : List (Frame F))
  /-- A value has been read. -/
  | read (value : PyValue F) (stack : List (Frame F))

variable (parseFloat : List Char → F)

/-- What a number becomes. -/
def loadNumber (spelling : List Char) : PyValue F :=
  if isIntSpelling spelling then .int (pyInt spelling) else .float (parseFloat spelling)

/-- The key of a string token. -/
def loadKey (text : List Char) : PyKey := .str (text.map .ofChar)

/-- The first token of a value. -/
def loadValue (stack : List (Frame F)) : Token → Option (LoadState F)
  | .null => some (.read .none stack)
  | .bool b => some (.read (.bool b) stack)
  | .string text => some (.read (.str (text.map .ofChar)) stack)
  | .number spelling => some (.read (loadNumber parseFloat spelling) stack)
  | .punctuation c =>
    if c = '[' then some (.firstItem stack)
    else if c = '{' then some (.firstKey stack)
    else none

/-- One token. -/
def loadStep (token : Token) : LoadState F → Option (LoadState F)
  | .value stack => loadValue parseFloat stack token
  | .firstItem stack =>
    if token = .punctuation ']' then some (.read (.list []) stack)
    else loadValue parseFloat (.list [] :: stack) token
  | .firstKey stack =>
    match token with
    | .string text => some (.colon [] (loadKey text) stack)
    | token => if token = .punctuation '}' then some (.read (.dict []) stack) else none
  | .key entries stack =>
    match token with
    | .string text => some (.colon entries (loadKey text) stack)
    | _ => none
  | .colon entries key stack =>
    if token = .punctuation ':' then some (.value (.dict entries key :: stack)) else none
  | .read _ [] => none
  | .read value (.list items :: stack) =>
    if token = .punctuation ',' then some (.value (.list (value :: items) :: stack))
    else if token = .punctuation ']' then some (.read (.list (value :: items).reverse) stack)
    else none
  | .read value (.dict entries key :: stack) =>
    if token = .punctuation ',' then some (.key (setEntry key value entries) stack)
    else if token = .punctuation '}' then some (.read (.dict (setEntry key value entries)) stack)
    else none

/-- One token after the other. -/
def loadTokens : List Token → LoadState F → Option (LoadState F)
  | [], s => some s
  | token :: tokens, s => (loadStep parseFloat token s).bind (loadTokens tokens)

/-- The value that has been read, if there is nothing left to close. -/
def LoadState.result : LoadState F → Option (PyValue F)
  | .read v [] => some v
  | _ => none

/-- `json.loads` on bytes. -/
def loads (bytes : List UInt8) : Option (PyValue F) := do
  let text ← Utf8.decode? bytes
  let tokens ← tokenize text
  let s ← loadTokens parseFloat tokens (.value [])
  s.result

end Rayo
