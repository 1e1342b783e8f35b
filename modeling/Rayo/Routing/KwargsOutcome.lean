import Mathlib.Data.List.Nodup
import Rayo.Dispatch.LoopPool
import Rayo.Json.Reading
import Rayo.Routing.Binding
import Rayo.Schema.RoundTrip

/-!
# The outcome of parameter binding

Either every parameter converts and a request is scheduled with all of them, or the first
parameter in the order of the route that does not convert is named in a 422 and nothing is
scheduled. The grammars of the four kinds are stated here on their own.
-/

namespace Rayo

open Json

variable {F : Type}

/-- The optional sign of a number. -/
def dropSign : List Char → List Char
  | '+' :: rest => rest
  | '-' :: rest => rest
  | text => text

/-- One or more decimal digits. -/
def isDigits (text : List Char) : Bool := text ≠ [] ∧ text.all Char.isDigit

/-- The exponent of a float, if there is one. -/
def isExponent : List Char → Bool
  | [] => true
  | c :: rest => (c = 'e' ∨ c = 'E') ∧ isDigits (dropSign rest)

/-- A float without its sign: digits with an optional point, and an exponent. -/
def isUnsignedFloat (text : List Char) : Bool :=
  let whole := text.takeWhile Char.isDigit
  match text.dropWhile Char.isDigit with
  | '.' :: rest =>
    (whole ≠ [] ∨ rest.takeWhile Char.isDigit ≠ []) ∧ isExponent (rest.dropWhile Char.isDigit)
  | rest => whole ≠ [] ∧ isExponent rest

/-- What `parse::<f64>` accepts. -/
def isFloatText (text : List Char) : Bool :=
  let unsigned := dropSign text
  let word := unsigned.map Char.toLower
  word = "inf".toList ∨ word = "infinity".toList ∨ word = "nan".toList ∨ isUnsignedFloat unsigned

/-- `raw_value.parse::<f64>()`, where `toF64` rounds a text of the grammar. -/
def parseFloatText (toF64 : List Char → F) (rawValue : List Char) : Option F :=
  if isFloatText rawValue then some (toF64 rawValue) else none

example : isFloatText "-.5E+3".toList ∧ isFloatText "+Infinity".toList ∧
    ¬ isFloatText "1e".toList ∧ ¬ isFloatText ".".toList ∧ ¬ isFloatText "1_0".toList := by decide

/-- The text spells an integer. -/
def SpellsInt (text : List Char) (i : ℤ) : Prop :=
  ∃ digits, isDigits digits = true ∧
    ((text = digits ∨ text = '+' :: digits) ∧ i = Nat.ofDigitChars 10 digits 0 ∨
      text = '-' :: digits ∧ i = -(Nat.ofDigitChars 10 digits 0 : ℤ))

/-- The segments that a kind accepts. -/
def Accepts : ParamKind → List Char → Prop
  | .str, _ => True
  | .int, rawValue => ∃ i, SpellsInt rawValue i ∧ -2 ^ 63 ≤ i ∧ i < 2 ^ 63
  | .float, rawValue => isFloatText rawValue = true
  | .bool, rawValue => rawValue = ['1'] ∨ rawValue = ['0'] ∨
      rawValue.map Char.toLower = "true".toList ∨ rawValue.map Char.toLower = "false".toList

/-- Digits are read as their number. -/
theorem parseDigits_eq (digits : List Char) :
    parseDigits digits =
      if isDigits digits then some (Nat.ofDigitChars 10 digits 0) else none := by
  simp [parseDigits, isDigits]

/-- No sign is a digit. -/
theorem isDigits_cons_sign {c : Char} (hc : c.isDigit = false) (rest : List Char) :
    isDigits (c :: rest) = false := by
  simp [isDigits, hc]

/-- An integer is extracted if it fits into 64 bits. -/
theorem extractI64_isSome (i : ℤ) : (extractI64 i).isSome = true ↔ -2 ^ 63 ≤ i ∧ i < 2 ^ 63 := by
  unfold extractI64
  by_cases hi : -2 ^ 63 ≤ i ∧ i < 2 ^ 63
  · rw [if_pos hi]
    exact iff_of_true rfl hi
  · rw [if_neg hi]
    exact iff_of_false (by simp) hi

/-- Digits are an integer if their number fits into 64 bits. -/
theorem parseI64_of_digits {digits : List Char} (h : isDigits digits = true) :
    parseI64 digits = extractI64 (Nat.ofDigitChars 10 digits 0) := by
  have hparse := parseDigits_eq digits
  rw [if_pos h] at hparse
  unfold parseI64
  split
  · rw [isDigits_cons_sign (by decide)] at h
    exact absurd h Bool.false_ne_true
  · rw [isDigits_cons_sign (by decide)] at h
    exact absurd h Bool.false_ne_true
  · rw [hparse, Option.bind_some]

/-- What is made of digits is made of their number. -/
theorem bind_parseDigits_isSome {digits : List Char} {f : ℕ → Option ℤ} :
    ((parseDigits digits).bind f).isSome = true ↔
      isDigits digits = true ∧ (f (Nat.ofDigitChars 10 digits 0)).isSome = true := by
  rw [parseDigits_eq]
  by_cases hd : isDigits digits = true
  · rw [if_pos hd, Option.bind_some, and_iff_right hd]
  · rw [if_neg hd]
    exact iff_of_false (by simp) fun h => hd h.1

/-- `parse::<i64>` accepts the texts of the 64-bit integers. -/
theorem parseI64_isSome (text : List Char) :
    (parseI64 text).isSome = true ↔ Accepts .int text := by
  constructor
  · intro h
    unfold parseI64 at h
    split at h
    · obtain ⟨hd, hrange⟩ := bind_parseDigits_isSome.mp h
      exact ⟨_, ⟨_, hd, .inr ⟨rfl, rfl⟩⟩, (extractI64_isSome _).mp hrange⟩
    · obtain ⟨hd, hrange⟩ := bind_parseDigits_isSome.mp h
      exact ⟨_, ⟨_, hd, .inl ⟨.inr rfl, rfl⟩⟩, (extractI64_isSome _).mp hrange⟩
    · obtain ⟨hd, hrange⟩ := bind_parseDigits_isSome.mp h
      exact ⟨_, ⟨_, hd, .inl ⟨.inl rfl, rfl⟩⟩, (extractI64_isSome _).mp hrange⟩
  · rintro ⟨i, ⟨digits, hd, hspells⟩, hrange⟩
    have hsome := (extractI64_isSome i).mpr hrange
    rcases hspells with ⟨rfl | rfl, rfl⟩ | ⟨rfl, rfl⟩
    · rwa [parseI64_of_digits hd]
    · exact bind_parseDigits_isSome.mpr ⟨hd, hsome⟩
    · exact bind_parseDigits_isSome.mpr ⟨hd, hsome⟩

/-- A boolean is read from the segments that its kind accepts. -/
theorem parseBool_isSome (text : List Char) :
    (parseBool text).isSome = true ↔ Accepts .bool text := by
  unfold parseBool Accepts
  by_cases htrue : text.map Char.toLower = "true".toList ∨ text = ['1']
  · rw [if_pos htrue]
    exact iff_of_true rfl (by tauto)
  · rw [if_neg htrue]
    by_cases hfalse : text.map Char.toLower = "false".toList ∨ text = ['0']
    · rw [if_pos hfalse]
      exact iff_of_true rfl (by tauto)
    · rw [if_neg hfalse]
      exact iff_of_false (by simp) (by tauto)

variable {toF64 : List Char → F}

/-- A segment converts exactly if its kind accepts it. -/
theorem convert_isSome (kind : ParamKind) (rawValue : List Char) :
    (convert (parseFloatText toF64) kind rawValue).isSome = true ↔ Accepts kind rawValue := by
  cases kind with
  | str => exact iff_of_true rfl trivial
  | int => simpa [convert] using parseI64_isSome rawValue
  | float =>
    unfold convert parseFloatText Accepts
    by_cases h : isFloatText rawValue = true
    · simp [h]
    · simp [h]
  | bool => simpa [convert] using parseBool_isSome rawValue

/-- A segment that is not converted is not accepted. -/
theorem convert_eq_none {kind : ParamKind} {rawValue : List Char}
    (h : convert (parseFloatText toF64) kind rawValue = none) : ¬ Accepts kind rawValue := by
  intro haccepts
  have hsome : (convert (parseFloatText toF64) kind rawValue).isSome = true :=
    (convert_isSome kind rawValue).mpr haccepts
  rw [h] at hsome
  exact nomatch hsome

/-- The first match of the parameter's name is accepted by its kind. -/
def Accepted (matchedParams : List (List Char × List Char)) (param : List Char × ParamKind) :
    Prop :=
  ∃ matched, findParam param.1 matchedParams = some matched ∧ Accepts param.2 matched.2

/-- The arguments are exactly those of the parameters. Where the parameters repeat a name, the last
one counts. -/
structure Collects (toF64 : List Char → F) (params : List (List Char × ParamKind))
    (matchedParams : List (List Char × List Char)) (kwargs : Kwargs F) : Prop where
  nodup : (kwargs.map Prod.fst).Nodup
  names : ∀ name, name ∈ kwargs.map Prod.fst ↔ name ∈ params.map Prod.fst
  values : ∀ before param later, params = before ++ param :: later →
    param.1 ∉ later.map Prod.fst → ∃ argument ∈ kwargs,
      IsArgument (parseFloatText toF64) matchedParams param argument

/-- The message for a segment. -/
def validationMessage (paramName : List Char) (expected : ParamKind) (rawValue : List Char) :
    List Char :=
  "path parameter '".toList ++ paramName ++ "' expected ".toList ++
    expected.expectedName.toList ++ ", got '".toList ++ rawValue ++ ['\'']

/-- The response is the 422 for the first parameter that is not accepted. -/
def Rejects (params : List (List Char × ParamKind))
    (matchedParams : List (List Char × List Char)) (response : HandlerResponse) : Prop :=
  ∃ before paramName paramKind later matched,
    params = before ++ (paramName, paramKind) :: later ∧
    (∀ param ∈ before, Accepted matchedParams param) ∧
    findParam paramName matchedParams = some matched ∧ ¬ Accepts paramKind matched.2 ∧
    response.status = 422 ∧ response.contentType = "application/json" ∧
    Json.parse response.body = some (.object
      [("detail".toList, .string (validationMessage paramName paramKind matched.2))])

/-- What is written in front of the message. -/
theorem detail_spelled : "\x7b\"detail\":".toList =
    '{' :: ('"' :: ("detail".toList.flatMap escape ++ ['"']) ++ [':']) := by decide

/-- A string between two texts. -/
theorem written_around (before message after : List Char) :
    (andThen (push before) (andThen (writeJsonString message) (push after)) []).1 =
      Utf8.encode (before ++ ('"' :: (message.flatMap escape ++ ['"']) ++ after)) := by
  have hwritten : andThen (push before) (andThen (writeJsonString message) (push after)) [] =
      ([] ++ Utf8.encode (before ++ ('"' :: (message.flatMap escape ++ ['"']) ++ after)), none) :=
    ((writes_push before).andThen ((writes_writeJsonString message).andThen (writes_push after))) []
  rw [hwritten]
  rfl

/-- The body of a 422 is an object with its detail alone. -/
theorem validationErrorResponse_body (paramName : List Char) (expected : ParamKind)
    (rawValue : List Char) : (validationErrorResponse paramName expected rawValue).body =
      Utf8.encode ("\x7b\"detail\":".toList ++
        ('"' :: ((validationMessage paramName expected rawValue).flatMap escape ++ ['"']) ++
          ['}'])) := by
  rw [← written_around]
  unfold validationErrorResponse validationMessage
  -- The strings of the message must not be evaluated.
  with_reducible rfl

/-- The body of the 422 is one JSON text with the message, whatever the segment holds. -/
theorem parse_validationErrorResponse (paramName : List Char) (expected : ParamKind)
    (rawValue : List Char) :
    Json.parse (validationErrorResponse paramName expected rawValue).body = some (.object
      [("detail".toList, .string (validationMessage paramName expected rawValue))]) := by
  have hmember : ReadsMember
      ('"' :: ("detail".toList.flatMap escape ++ ['"']) ++ ':' ::
        ('"' :: ((validationMessage paramName expected rawValue).flatMap escape ++ ['"'])))
      ("detail".toList, .string (validationMessage paramName expected rawValue)) :=
    ⟨_, _, rfl, readsString_escape _, (readsString_escape _).reads⟩
  have hobject := (reads_object (.cons hmember .nil)).parseText_eq
  rw [validationErrorResponse_body, Json.parse, Utf8.decode?_encode, Option.bind_some,
    detail_spelled, ← hobject]
  simp only [List.intercalate_singleton, List.cons_append, List.append_assoc, List.nil_append]

/-- The rest of the loop, from the arguments that have been collected before. -/
theorem collects_of_ok {params : List (List Char × ParamKind)}
    {matchedParams : List (List Char × List Char)} {kwargs out : Kwargs F}
    (hnodup : (kwargs.map Prod.fst).Nodup)
    (hok : buildKwargsFrom (parseFloatText toF64) matchedParams kwargs params = .ok out) :
    (out.map Prod.fst).Nodup ∧
      (∀ name, name ∈ out.map Prod.fst ↔
        name ∈ kwargs.map Prod.fst ∨ name ∈ params.map Prod.fst) ∧
      (∀ argument ∈ kwargs, argument.1 ∉ params.map Prod.fst → argument ∈ out) ∧
      (∀ param ∈ params, Accepted matchedParams param) ∧
      ∀ before param later, params = before ++ param :: later →
        param.1 ∉ later.map Prod.fst → ∃ argument ∈ out,
          IsArgument (parseFloatText toF64) matchedParams param argument := by
  induction params generalizing kwargs with
  | nil =>
    obtain rfl := Except.ok.inj hok
    refine ⟨hnodup, by simp, fun _ h _ => h, by simp, fun before param later hsplit => ?_⟩
    exact absurd hsplit.symm (by simp)
  | cons param params ih =>
    obtain ⟨paramName, paramKind⟩ := param
    simp only [buildKwargsFrom] at hok
    cases hfound : findParam paramName matchedParams with
    | none => simp [hfound] at hok
    | some matched =>
      cases hvalue : convert (parseFloatText toF64) paramKind matched.2 with
      | none => simp [hfound, convertAndInsert, hvalue, bind, Except.bind] at hok
      | some value =>
        simp only [hfound, convertAndInsert, hvalue, bind, Except.bind] at hok
        obtain ⟨hdistinct, hnames, hkept, haccepted, hvalues⟩ := ih (nodup_setItem_keys hnodup) hok
        have hconverts : (convert (parseFloatText toF64) paramKind matched.2).isSome = true := by
          rw [hvalue]
          rfl
        have hthis : Accepted matchedParams (paramName, paramKind) :=
          ⟨matched, hfound, (convert_isSome _ _).mp hconverts⟩
        refine ⟨hdistinct, fun name => ?_, fun argument hargument hnot => ?_,
          List.forall_mem_cons.mpr ⟨hthis, haccepted⟩, fun before param later hsplit hlast => ?_⟩
        · rw [hnames, mem_setItem_keys, List.map_cons, List.mem_cons, or_comm (a := name = _),
            or_assoc]
        · rw [List.map_cons, List.mem_cons, not_or] at hnot
          exact hkept argument (mem_setItem_of_ne hargument hnot.1) hnot.2
        · cases before with
          | nil =>
            obtain ⟨rfl, rfl⟩ := List.cons.inj hsplit
            exact ⟨(paramName, value), hkept _ (mem_setItem_self _ _ _) hlast, rfl, matched, hfound,
              hvalue⟩
          | cons first before =>
            exact hvalues before param later (List.cons.inj hsplit).2 hlast

/-- An error is the one of the first parameter that is not accepted. -/
theorem rejects_of_error {params : List (List Char × ParamKind)}
    {matchedParams : List (List Char × List Char)} {kwargs : Kwargs F} {response : HandlerResponse}
    (hnames : ∀ param ∈ params, param.1 ∈ matchedParams.map Prod.fst)
    (herror : buildKwargsFrom (parseFloatText toF64) matchedParams kwargs params =
      .error response) : Rejects params matchedParams response := by
  induction params generalizing kwargs with
  | nil => exact nomatch herror
  | cons param params ih =>
    obtain ⟨paramName, paramKind⟩ := param
    rw [List.forall_mem_cons] at hnames
    obtain ⟨matched, hfound⟩ := Option.isSome_iff_exists.mp (findParam_isSome hnames.1)
    simp only [buildKwargsFrom, hfound, convertAndInsert] at herror
    cases hvalue : convert (parseFloatText toF64) paramKind matched.2 with
    | none =>
      simp only [hvalue, bind, Except.bind, Except.error.injEq] at herror
      subst herror
      exact ⟨[], paramName, paramKind, params, matched, rfl, by simp, hfound,
        convert_eq_none hvalue, rfl, rfl, parse_validationErrorResponse _ _ _⟩
    | some value =>
      simp only [hvalue, bind, Except.bind] at herror
      obtain ⟨before, name, kind, later, other, rfl, hbefore, hrest⟩ := ih hnames.2 herror
      have hconverts : (convert (parseFloatText toF64) paramKind matched.2).isSome = true := by
        rw [hvalue]
        rfl
      have hthis : Accepted matchedParams (paramName, paramKind) :=
        ⟨matched, hfound, (convert_isSome _ _).mp hconverts⟩
      exact ⟨(paramName, paramKind) :: before, name, kind, later, other, rfl,
        List.forall_mem_cons.mpr ⟨hthis, hbefore⟩, hrest⟩

/-- The rejected parameter is not accepted. -/
theorem Rejects.not_accepted {params : List (List Char × ParamKind)}
    {matchedParams : List (List Char × List Char)} {response : HandlerResponse}
    (h : Rejects params matchedParams response) :
    ¬ ∀ param ∈ params, Accepted matchedParams param := by
  obtain ⟨before, name, kind, later, matched, rfl, -, hfound, hnot, -⟩ := h
  intro hall
  obtain ⟨matched', hfound', haccepts⟩ := hall (name, kind) (by simp)
  obtain rfl : matched = matched' := Option.some.inj (hfound.symm.trans hfound')
  exact hnot haccepts

/-- The loops and the tasks that have been created on them. -/
structure Scheduler (F : Type) (w n : ℕ) where
  eventLoops : LoopPool.EventLoopPool w n
  /-- History: the arguments of each task, newest first. -/
  tasks : List (Kwargs F)

/-- The outcome of `AppService::handle` for an async route, up to the wait for the response. -/
inductive DispatchOutcome
  | scheduled
  | respond (response : HandlerResponse)

/-- `AppService::handle` for an async route. -/
def dispatchAsync {w n : ℕ} (parseF64 : List Char → Option F)
    (params : List (List Char × ParamKind)) (matchedParams : List (List Char × List Char))
    (scheduler : Scheduler F w n) : DispatchOutcome × Scheduler F w n :=
  match buildKwargs parseF64 params matchedParams with
  | .ok kwargs =>
    (.scheduled,
      { eventLoops := scheduler.eventLoops.schedule, tasks := kwargs :: scheduler.tasks })
  | .error errorResponse => (.respond errorResponse, scheduler)

/-- The parameters of a route with an item and a flag. -/
def flaggedItem : List (List Char × ParamKind) :=
  [("item_id".toList, .int), ("flag".toList, .bool)]

/-- The flag is spelled in capital letters, and the item is no number. -/
def quotedItem : List (List Char × List Char) :=
  [("flag".toList, "TRUE".toList), ("item_id".toList, "4\"2".toList)]

end Rayo
