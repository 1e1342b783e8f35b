import Mathlib.Data.Fin.Basic
import Rayo.Json.Reading
import Rayo.Schema.WriteJson

/-!
# What `write_json` writes is read back

`denote` says which JSON value a Python object stands for, if any. The writer succeeds exactly
on the objects that stand for one, and then it has appended a text that the reference parser
reads as that value and nothing else.
-/

namespace Rayo

open Json

variable {F : Type} {ops : FloatOps F} {value : F → ℚ}

/-- The objects that can be written. -/
inductive Serializable (ops : FloatOps F) : PyValue F → Prop
  | none : Serializable ops .none
  | bool (b : Bool) : Serializable ops (.bool b)
  | int {i : ℤ} : -2 ^ 63 ≤ i → i < 2 ^ 63 → Serializable ops (.int i)
  | float {x : F} : ops.isFinite x = true → Serializable ops (.float x)
  /-- There is no lone surrogate. -/
  | str {text : PyStr} : (∀ p ∈ text, p.val.isValidChar) → Serializable ops (.str text)
  | dict {entries : List (PyKey × PyValue F)} :
    (∀ entry ∈ entries, ∃ text, entry.1 = .str text ∧ ∀ p ∈ text, p.val.isValidChar) →
    (∀ entry ∈ entries, Serializable ops entry.2) → Serializable ops (.dict entries)
  | list {items : List (PyValue F)} :
    (∀ item ∈ items, Serializable ops item) → Serializable ops (.list items)
  | tuple {items : List (PyValue F)} :
    (∀ item ∈ items, Serializable ops item) → Serializable ops (.tuple items)

mutual

/-- The JSON value that an object stands for, with `value` as the numbers that floats are. -/
def denote (ops : FloatOps F) (value : F → ℚ) : PyValue F → Option Value
  | .none => some .null
  | .bool b => some (.bool b)
  | .int i => (extractI64 i).map fun i => .number i
  | .float x => if ops.isFinite x then some (.number (value x)) else none
  | .str text => (toStr text).map .string
  | .dict entries => (denoteEntries ops value entries).map .object
  | .list items => (denoteItems ops value items).map .array
  | .tuple items => (denoteItems ops value items).map .array
  | .other _ => none
termination_by structural v => v

/-- The members of an object, in order. -/
def denoteEntries (ops : FloatOps F) (value : F → ℚ) :
    List (PyKey × PyValue F) → Option (List (List Char × Value))
  | [] => some []
  | (.str key, v) :: rest =>
    (toStr key).bind fun name => (denote ops value v).bind fun v =>
      (denoteEntries ops value rest).map ((name, v) :: ·)
  | (.other _, _) :: _ => none
termination_by structural entries => entries

/-- The items of an array, in order. -/
def denoteItems (ops : FloatOps F) (value : F → ℚ) : List (PyValue F) → Option (List Value)
  | [] => some []
  | v :: rest =>
    (denote ops value v).bind fun v => (denoteItems ops value rest).map (v :: ·)
termination_by structural items => items

end

/-- A text is converted code point by code point. -/
theorem toStr_cons (p : CodePoint) (text : PyStr) :
    toStr (p :: text) = (toChar? p).bind fun c => (toStr text).map (c :: ·) := by
  simp only [toStr, List.mapM_cons, Option.bind_eq_bind, Option.pure_def]
  cases toChar? p with
  | none => rfl
  | some c => cases List.mapM toChar? text <;> rfl

/-- A text can be converted exactly if it has no surrogates. -/
theorem toStr_isSome (text : PyStr) :
    (toStr text).isSome = true ↔ ∀ p ∈ text, p.val.isValidChar := by
  induction text with
  | nil => simp [toStr]
  | cons p text ih =>
    rw [toStr_cons]
    by_cases hp : p.val.isValidChar
    · simp [toChar?, hp, ih]
    · simp [toChar?, hp]

/-- The characters have the code points of the string. -/
theorem map_toNat_of_toStr {text : PyStr} {chars : List Char} (h : toStr text = some chars) :
    chars.map Char.toNat = text.map Fin.val := by
  induction text generalizing chars with
  | nil =>
    obtain rfl : [] = chars := by simpa [toStr] using h
    rfl
  | cons p text ih =>
    rw [toStr_cons] at h
    obtain ⟨c, hc, hrest⟩ := Option.bind_eq_some_iff.mp h
    obtain ⟨tail, htail, rfl⟩ := Option.map_eq_some_iff.mp hrest
    have hvalid : p.val.isValidChar ∧ Char.ofNat p.val = c := by
      simpa [toChar?] using hc
    have hcode : c.toNat = p.val := by
      rw [← hvalid.2, Char.ofNat, dif_pos hvalid.1]
      rfl
    rw [List.map_cons, List.map_cons, hcode, ih htail]

/-- Distinct strings stay distinct. -/
theorem toStr_injective {left right : PyStr} {text : List Char} (hleft : toStr left = some text)
    (hright : toStr right = some text) : left = right := by
  have hsame := (map_toNat_of_toStr hleft).symm.trans (map_toNat_of_toStr hright)
  exact List.map_injective_iff.mpr Fin.val_injective hsame

/-- A control character is written with four digits, of which the first two are zero. -/
theorem lowerHex4_control : ∀ n < 0x20,
    lowerHex4 n = ['0', '0', Nat.digitChar (n / 16), Nat.digitChar (n % 16)] := by decide

/-- `write_json_string` escapes every character in a way that is read back. -/
theorem readsChar_escape_char (c : Char) : ReadsChar (escape c) c := by
  unfold escape
  split
  · next hc => exact hc.symm ▸ readsChar_escape fun _ => rfl
  split
  · next hc => exact hc.symm ▸ readsChar_escape fun _ => rfl
  split
  · next hc => exact hc.symm ▸ readsChar_escape fun _ => rfl
  split
  · next hc => exact hc.symm ▸ readsChar_escape fun _ => rfl
  split
  · next hc => exact hc.symm ▸ readsChar_escape fun _ => rfl
  split
  · next hcontrol =>
    rw [lowerHex4_control _ hcontrol]
    exact readsChar_control hcontrol
  · next hquote hescape _ _ _ hcontrol => exact readsChar_self hquote hescape hcontrol

/-- The writer appends this text, or fails after it has appended something. -/
def Writes (w : Writer) (text : Option (List Char)) : Prop :=
  ∀ out, match text with
    | some text => w out = (out ++ Utf8.encode text, none)
    | none => ∃ written e, w out = (out ++ written, some e)

/-- What is pushed is written. -/
theorem writes_push (text : List Char) : Writes (push text) (some text) := fun _ => rfl

/-- A writer that fails writes no text. -/
theorem writes_fail (e : PyErr) : Writes (fail e) none := fun out => ⟨[], e, by simp [fail]⟩

/-- Two writers write their texts one after the other. -/
theorem Writes.andThen {w w' : Writer} {text text' : List Char} (h : Writes w (some text))
    (h' : Writes w' (some text')) : Writes (andThen w w') (some (text ++ text')) := by
  intro out
  have hfirst : w out = (out ++ Utf8.encode text, none) := h out
  have hsecond : w' (out ++ Utf8.encode text) =
      (out ++ Utf8.encode text ++ Utf8.encode text', none) := h' _
  simp [Rayo.andThen, hfirst, hsecond]

/-- The first writer fails. -/
theorem Writes.fails {w : Writer} (h : Writes w none) (w' : Writer) :
    Writes (Rayo.andThen w w') none := by
  intro out
  obtain ⟨written, e, hw⟩ := h out
  exact ⟨written, e, by simp [Rayo.andThen, hw]⟩

/-- The second writer fails. -/
theorem Writes.andThen_fails {w w' : Writer} {text : List Char} (h : Writes w (some text))
    (h' : Writes w' none) : Writes (Rayo.andThen w w') none := by
  intro out
  have hfirst : w out = (out ++ Utf8.encode text, none) := h out
  obtain ⟨written, e, hw⟩ := h' (out ++ Utf8.encode text)
  exact ⟨Utf8.encode text ++ written, e, by simp [Rayo.andThen, hfirst, hw]⟩

/-- A string is written with its characters escaped, in quotes. -/
theorem writes_writeJsonString (text : List Char) :
    Writes (writeJsonString text) (some ('"' :: (text.flatMap escape ++ ['"']))) := by
  have hchars : Writes (writeChars text) (some (text.flatMap escape)) := by
    induction text with
    | nil => exact writes_push []
    | cons c text ih => exact (writes_push _).andThen ih
  exact (writes_push _).andThen (hchars.andThen (writes_push _))

/-- An escaped string is read as the characters it was written from. -/
theorem readsString_escape (text : List Char) :
    ReadsString ('"' :: (text.flatMap escape ++ ['"'])) text :=
  readsString_flatMap escape text fun c _ => readsChar_escape_char c

/-- Parts of a sequence, all but the first of which follow a comma. -/
def commas (first : Bool) (texts : List (List Char)) : List Char :=
  if first then [','].intercalate texts else texts.flatMap (',' :: ·)

/-- The first part of a sequence follows no comma, and the others do. -/
theorem commas_cons (first : Bool) (text : List Char) (texts : List (List Char)) :
    commas first (text :: texts) =
      (if first then [] else [',']) ++ (text ++ commas false texts) := by
  cases first with
  | false => simp [commas]
  | true =>
    induction texts generalizing text with
    | nil => simp [commas]
    | cons text' texts ih =>
      have hrest := ih text'
      simp only [commas, if_true, List.nil_append, Bool.false_eq_true, if_false] at hrest ⊢
      rw [List.intercalate_cons_cons, hrest]
      simp

/-- The writer writes a text of the value, or fails when there is none. -/
def Renders (w : Writer) : Option Value → Prop
  | some v => ∃ text, Writes w (some text) ∧ Reads text v
  | none => Writes w none

/-- The loop writes a text of each item. -/
def RendersItems (w : Bool → Writer) : Option (List Value) → Prop
  | some items => ∃ texts, List.Forall₂ Reads texts items ∧
      ∀ first, Writes (w first) (some (commas first texts))
  | none => ∀ first, Writes (w first) none

/-- The loop writes a text of each member. -/
def RendersMembers (w : Bool → Writer) : Option (List (List Char × Value)) → Prop
  | some members => ∃ texts, List.Forall₂ ReadsMember texts members ∧
      ∀ first, Writes (w first) (some (commas first texts))
  | none => ∀ first, Writes (w first) none

/-- The assumption about `Display` of `f64`: a finite float is printed as a decimal literal that
denotes it. -/
def PrintsDecimals (ops : FloatOps F) (value : F → ℚ) : Prop :=
  ∀ x, ops.isFinite x = true → ∃ d : Decimal, ops.display x = d.text ∧ d.value = value x

/-- An integer is written as its digits. -/
theorem renders_int (i : ℤ) :
    Renders (writeJson ops (.int i)) (denote ops value (.int i)) := by
  simp only [writeJson, denote]
  cases hi : extractI64 i with
  | none => exact writes_fail _
  | some i' =>
    refine ⟨(Decimal.ofInt i').text, ?_, ?_⟩
    · rw [Decimal.text_ofInt]
      exact writes_push _
    · exact Decimal.value_ofInt i' ▸ reads_number (Decimal.ofInt i')

/-- A finite float is written as a literal that denotes it, and any other one as `null`. -/
theorem renders_float (hdisplay : PrintsDecimals ops value) (x : F) :
    Renders (writeJson ops (.float x)) (denote ops value (.float x)) := by
  simp only [writeJson, denote]
  cases hx : ops.isFinite x with
  | false => exact writes_fail _
  | true =>
    obtain ⟨d, htext, hvalue⟩ := hdisplay x hx
    exact ⟨d.text, htext ▸ writes_push _, hvalue ▸ reads_number d⟩

/-- A text without surrogates is written as a string. -/
theorem renders_str (text : PyStr) :
    Renders (writeJson ops (.str text)) (denote ops value (.str text)) := by
  simp only [writeJson, denote]
  cases toStr text with
  | none => exact writes_fail _
  | some text => exact ⟨_, writes_writeJsonString text, (readsString_escape text).reads⟩

/-- Brackets around the items of a sequence. -/
theorem Renders.bracketed {w : Bool → Writer} {items : Option (List Value)}
    (h : RendersItems w items) : Renders (bracketed (w true)) (items.map .array) := by
  cases items with
  | none => exact (writes_push _).andThen_fails ((h true).fails _)
  | some items =>
    obtain ⟨texts, hreads, hwrites⟩ := h
    exact ⟨_, (writes_push _).andThen ((hwrites true).andThen (writes_push _)), reads_array hreads⟩

/-- Braces around the members of an object. -/
theorem Renders.braced {w : Bool → Writer} {members : Option (List (List Char × Value))}
    (h : RendersMembers w members) :
    Renders (andThen (push ['{']) (andThen (w true) (push ['}']))) (members.map .object) := by
  cases members with
  | none => exact (writes_push _).andThen_fails ((h true).fails _)
  | some members =>
    obtain ⟨texts, hreads, hwrites⟩ := h
    exact ⟨_, (writes_push _).andThen ((hwrites true).andThen (writes_push _)), reads_object hreads⟩

/-- One more item in front of a loop. -/
theorem RendersItems.cons {w : Writer} {ws : Bool → Writer} {v : Option Value}
    {items : Option (List Value)} (h : Renders w v) (hs : RendersItems ws items) :
    RendersItems (fun first => andThen (push (if first then [] else [','])) (andThen w (ws false)))
      (v.bind fun v => items.map (v :: ·)) := by
  cases v with
  | none => exact fun first => (writes_push _).andThen_fails (Writes.fails h _)
  | some v =>
    obtain ⟨text, hwrites, hreads⟩ := h
    cases items with
    | none => exact fun first => (writes_push _).andThen_fails (hwrites.andThen_fails (hs false))
    | some items =>
      obtain ⟨texts, hreadss, hwritess⟩ := hs
      refine ⟨text :: texts, .cons hreads hreadss, fun first => ?_⟩
      rw [commas_cons]
      exact (writes_push _).andThen (hwrites.andThen (hwritess false))

/-- One more entry in front of a loop. -/
theorem RendersMembers.cons {w : Writer} {ws : Bool → Writer} {v : Option Value}
    {members : Option (List (List Char × Value))} (name : List Char) (h : Renders w v)
    (hs : RendersMembers ws members) :
    RendersMembers (fun first => andThen (push (if first then [] else [',']))
        (andThen (writeJsonString name) (andThen (push [':']) (andThen w (ws false)))))
      (v.bind fun v => members.map ((name, v) :: ·)) := by
  have hname := writes_writeJsonString name
  cases v with
  | none =>
    exact fun first => (writes_push _).andThen_fails (hname.andThen_fails
      ((writes_push _).andThen_fails (Writes.fails h _)))
  | some v =>
    obtain ⟨text, hwrites, hreads⟩ := h
    cases members with
    | none =>
      exact fun first => (writes_push _).andThen_fails (hname.andThen_fails
        ((writes_push _).andThen_fails (hwrites.andThen_fails (hs false))))
    | some members =>
      obtain ⟨texts, hreadss, hwritess⟩ := hs
      refine ⟨('"' :: (name.flatMap escape ++ ['"'])  ++ ':' :: text) :: texts,
        .cons ⟨_, text, rfl, readsString_escape name, hreads⟩ hreadss, fun first => ?_⟩
      have hentry := (writes_push (if first then [] else [','])).andThen
        (hname.andThen ((writes_push [':']).andThen (hwrites.andThen (hwritess false))))
      rw [commas_cons]
      simpa using hentry

/-- Only whether an item is the first one matters. -/
theorem writeItems_pos (ops : FloatOps F) (items : List (PyValue F)) (index : ℕ) :
    writeItems ops (index + 1) items = writeItems ops 1 items := by
  induction items generalizing index with
  | nil => rfl
  | cons item rest ih =>
    simp only [writeItems, Nat.zero_lt_succ, if_true]
    rw [ih (index + 1), ih 1]

mutual

/-- **The writer renders** what an object stands for, for every nesting. -/
theorem renders_writeJson (hdisplay : PrintsDecimals ops value) (v : PyValue F) :
    Renders (writeJson ops v) (denote ops value v) := by
  match v with
  | .none => exact ⟨_, writes_push _, reads_null⟩
  | .bool true => exact ⟨_, writes_push _, reads_true⟩
  | .bool false => exact ⟨_, writes_push _, reads_false⟩
  | .int i => exact renders_int i
  | .float x => exact renders_float hdisplay x
  | .str text => exact renders_str text
  | .dict entries => exact Renders.braced (renders_writeEntries hdisplay entries)
  | .list items => exact Renders.bracketed (renders_writeItems hdisplay items)
  | .tuple items => exact Renders.bracketed (renders_writeItems hdisplay items)
  | .other _ => exact writes_fail _

/-- The entries of a dictionary are written as members, up to the first that cannot be. -/
theorem renders_writeEntries (hdisplay : PrintsDecimals ops value)
    (entries : List (PyKey × PyValue F)) :
    RendersMembers (fun first => writeEntries ops first entries)
      (denoteEntries ops value entries) := by
  match entries with
  | [] => exact ⟨[], .nil, fun first => by cases first <;> exact writes_push []⟩
  | (.other typeName, v) :: rest => exact fun first => (writes_push _).andThen_fails (writes_fail _)
  | (.str key, v) :: rest =>
    simp only [writeEntries, denoteEntries]
    cases toStr key with
    | none => exact fun first => (writes_push _).andThen_fails (writes_fail _)
    | some name =>
      exact RendersMembers.cons name (renders_writeJson hdisplay v)
        (renders_writeEntries hdisplay rest)

/-- The items of a sequence are written one by one, up to the first that cannot be. -/
theorem renders_writeItems (hdisplay : PrintsDecimals ops value) (items : List (PyValue F)) :
    RendersItems (fun first => writeItems ops (if first then 0 else 1) items)
      (denoteItems ops value items) := by
  match items with
  | [] => exact ⟨[], .nil, fun first => by cases first <;> exact writes_push []⟩
  | v :: rest =>
    have hloop : (fun first : Bool => writeItems ops (if first then 0 else 1) (v :: rest)) =
        fun first => andThen (push (if first then [] else [',']))
          (andThen (writeJson ops v) (writeItems ops (if false then 0 else 1) rest)) := by
      funext first
      cases first <;> simp [writeItems, writeItems_pos]
    rw [hloop]
    exact RendersItems.cons (renders_writeJson hdisplay v) (renders_writeItems hdisplay rest)

end

/-- A text can be written exactly if it can be converted. -/
theorem serializable_str {text : PyStr} :
    Serializable ops (.str text) ↔ (toStr text).isSome = true := by
  rw [toStr_isSome]
  exact ⟨fun h => by cases h; assumption, .str⟩

mutual

/-- Exactly the serializable objects stand for a value. -/
theorem denote_isSome (v : PyValue F) :
    (denote ops value v).isSome = true ↔ Serializable ops v := by
  match v with
  | .none => exact iff_of_true rfl .none
  | .bool b => exact iff_of_true rfl (.bool b)
  | .int i =>
    by_cases hi : -2 ^ 63 ≤ i ∧ i < 2 ^ 63
    · have hextract : extractI64 i = some i := if_pos hi
      exact iff_of_true (by simp [denote, hextract]) (.int hi.1 hi.2)
    · have hextract : extractI64 i = none := if_neg hi
      refine iff_of_false (by simp [denote, hextract]) fun h => ?_
      cases h with
      | int hlow hhigh => exact hi ⟨hlow, hhigh⟩
  | .float x =>
    cases hx : ops.isFinite x with
    | true => exact iff_of_true (by simp [denote, hx]) (.float hx)
    | false =>
      refine iff_of_false (by simp [denote, hx]) fun h => ?_
      cases h with
      | float hfinite => simp [hx] at hfinite
  | .str text =>
    rw [serializable_str]
    simp [denote]
  | .dict entries =>
    have hentries := denoteEntries_isSome entries
    simp only [denote, Option.isSome_map, hentries]
    exact ⟨fun h => .dict (fun e he => (h e he).1) fun e he => (h e he).2, fun h => by
      cases h with
      | dict hkeys hvalues => exact fun e he => ⟨hkeys e he, hvalues e he⟩⟩
  | .list items =>
    have hitems := denoteItems_isSome items
    simp only [denote, Option.isSome_map, hitems]
    exact ⟨.list, fun h => by cases h; assumption⟩
  | .tuple items =>
    have hitems := denoteItems_isSome items
    simp only [denote, Option.isSome_map, hitems]
    exact ⟨.tuple, fun h => by cases h; assumption⟩
  | .other _ => exact iff_of_false (by simp [denote]) nofun

/-- The entries of a dictionary denote members if their keys are texts and their values can be
written. -/
theorem denoteEntries_isSome (entries : List (PyKey × PyValue F)) :
    (denoteEntries ops value entries).isSome = true ↔ ∀ entry ∈ entries,
      (∃ text, entry.1 = .str text ∧ ∀ p ∈ text, p.val.isValidChar) ∧
        Serializable ops entry.2 := by
  match entries with
  | [] => simp [denoteEntries]
  | (.other _, v) :: rest => simp [denoteEntries]
  | (.str key, v) :: rest =>
    have hkey := toStr_isSome key
    have hvalue := denote_isSome v
    have hrest := denoteEntries_isSome rest
    simp only [denoteEntries, List.forall_mem_cons, PyKey.str.injEq, exists_eq_left']
    rw [← hkey, ← hvalue, ← hrest]
    cases toStr key <;> cases denote ops value v <;> simp

/-- The items of a sequence denote values exactly if all of them can be written. -/
theorem denoteItems_isSome (items : List (PyValue F)) :
    (denoteItems ops value items).isSome = true ↔ ∀ item ∈ items, Serializable ops item := by
  match items with
  | [] => simp [denoteItems]
  | v :: rest =>
    have hvalue := denote_isSome v
    have hrest := denoteItems_isSome rest
    simp only [denoteItems, List.forall_mem_cons]
    rw [← hvalue, ← hrest]
    cases denote ops value v <;> simp

end

/-- A failure anywhere in the tree becomes the opaque 500. -/
theorem response_of_not_serializable (hdisplay : PrintsDecimals ops value) {v : PyValue F}
    (hv : ¬ Serializable ops v) : responseFromReturnValue ops v = .internalError := by
  have hnone : denote ops value v = none := by
    have hdenote : (denote ops value v).isSome = true ↔ Serializable ops v := denote_isSome v
    rw [← hdenote] at hv
    simpa using hv
  have hrenders := renders_writeJson hdisplay v
  rw [hnone] at hrenders
  obtain ⟨written, e, hfails⟩ := hrenders []
  cases v with
  | none => exact absurd .none hv
  | str text =>
    rw [serializable_str] at hv
    have hlone : toStr text = none := by simpa using hv
    simp [responseFromReturnValue, hlone, reportHandlerError]
  | _ => simp [responseFromReturnValue, hfails, reportHandlerError]

/-- The writer succeeds exactly on the serializable objects. -/
theorem writeJson_ok_iff (hdisplay : PrintsDecimals ops value) (v : PyValue F) (out : Buffer) :
    (writeJson ops v out).2 = none ↔ Serializable ops v := by
  have hrenders := renders_writeJson hdisplay v
  have hdenote : (denote ops value v).isSome = true ↔ Serializable ops v := denote_isSome v
  cases hjson : denote ops value v with
  | none =>
    rw [hjson] at hrenders hdenote
    obtain ⟨written, e, hfails⟩ := hrenders out
    exact iff_of_false (by simp [hfails]) fun hv => by simpa using hdenote.mpr hv
  | some json =>
    rw [hjson] at hrenders hdenote
    obtain ⟨text, hwrites, -⟩ := hrenders
    have hwritten : writeJson ops v out = (out ++ Utf8.encode text, none) := hwrites out
    exact iff_of_true (by simp [hwritten]) (hdenote.mp rfl)

/-- **The round trip.** `write_json` succeeds exactly on the serializable objects. It then leaves
the buffer as a prefix and appends one JSON text, which the reference parser reads completely
and decodes to the value that the object stands for; distinct keys stay distinct. When it
fails the response is the opaque 500. -/
theorem writeJson_roundTrip (hdisplay : PrintsDecimals ops value) (v : PyValue F) (out : Buffer) :
    ((writeJson ops v out).2 = none ↔ Serializable ops v) ∧
      (Serializable ops v → ∃ bytes json, writeJson ops v out = (out ++ bytes, none) ∧
        denote ops value v = some json ∧ Json.parse bytes = some json) ∧
      (∀ left right name, toStr left = some name → toStr right = some name → left = right) ∧
      (¬ Serializable ops v → responseFromReturnValue ops v = .internalError) := by
  refine ⟨writeJson_ok_iff hdisplay v out, fun hv => ?_, fun _ _ _ => toStr_injective,
    response_of_not_serializable hdisplay⟩
  have hrenders := renders_writeJson hdisplay v
  have hdenote : (denote ops value v).isSome = true := (denote_isSome v).mpr hv
  obtain ⟨json, hjson⟩ := Option.isSome_iff_exists.mp hdenote
  rw [hjson] at hrenders
  obtain ⟨text, hwrites, hreads⟩ := hrenders
  exact ⟨Utf8.encode text, json, hwrites out, hjson, by simp [Json.parse, hreads.parseText_eq]⟩

/-- Floats that are whole numbers, and NaN. -/
def wholeFloats : FloatOps (Option ℤ) where
  isFinite := Option.isSome
  display x := (toString (x.getD 0)).toList

/-- A dictionary that holds a list of a boolean and a float is read back as it was. -/
theorem writeJson_roundTrip_nested :
    ∃ bytes json, writeJson wholeFloats (.dict [(.str [0x61], .list [.bool true, .float (some 2)])])
        [0x20] = ([0x20] ++ bytes, none) ∧
      denote wholeFloats (fun x => ((x.getD 0 : ℤ) : ℚ))
        (.dict [(.str [0x61], .list [.bool true, .float (some 2)])]) = some json ∧
      Json.parse bytes = some json := by
  have hdisplay : PrintsDecimals wholeFloats fun x => ((x.getD 0 : ℤ) : ℚ) := fun x _ =>
    ⟨.ofInt (x.getD 0), (Decimal.text_ofInt _).symm, Decimal.value_ofInt _⟩
  refine (writeJson_roundTrip hdisplay _ [0x20]).2.1 (.dict ?_ ?_)
  · rintro entry hentry
    obtain rfl := List.mem_singleton.mp hentry
    exact ⟨_, rfl, by simp [Nat.isValidChar]⟩
  · rintro entry hentry
    obtain rfl := List.mem_singleton.mp hentry
    refine .list fun item hitem => ?_
    rcases List.mem_cons.mp hitem with rfl | hitem
    · exact .bool true
    · obtain rfl := List.mem_singleton.mp hitem
      exact .float rfl

end Rayo
