import Rayo.Schema.WriteJson

/-!
# Binding path parameters

The segments that the router captured are converted to the kinds of the route's parameters
and collected in the keyword arguments of the handler. A segment that does not convert is
answered with a 422. Parsing an `f64` is a parameter.
-/

namespace Rayo

/-- `ParamKind`. -/
inductive ParamKind
  | str
  | int
  | float
  | bool
  deriving DecidableEq

/-- `ParamKind::from_code`. -/
def ParamKind.fromCode : ℕ → Option ParamKind
  | 0 => some .str
  | 1 => some .int
  | 2 => some .float
  | 3 => some .bool
  | _ => none

/-- `ParamKind::expected_name`. -/
def ParamKind.expectedName : ParamKind → String
  | .str => "str"
  | .int => "int"
  | .float => "float"
  | .bool => "bool"

/-- `validation_error_response`. -/
def validationErrorResponse (paramName : List Char) (expected : ParamKind)
    (rawValue : List Char) : HandlerResponse :=
  let message := "path parameter '".toList ++ paramName ++ "' expected ".toList ++
    expected.expectedName.toList ++ ", got '".toList ++ rawValue ++ ['\'']
  let body := andThen (push "\x7b\"detail\":".toList)
    (andThen (writeJsonString message) (push ['}'])) []
  { status := 422, contentType := "application/json", body := body.1 }

/-- Decimal digits. -/
def parseDigits (digits : List Char) : Option ℕ :=
  if digits ≠ [] ∧ digits.all Char.isDigit then some (Nat.ofDigitChars 10 digits 0) else none

/-- `raw_value.parse::<i64>()`. -/
def parseI64 : List Char → Option ℤ
  | '-' :: digits => (parseDigits digits).bind fun n => extractI64 (-n)
  | '+' :: digits => (parseDigits digits).bind fun n => extractI64 n
  | digits => (parseDigits digits).bind fun n => extractI64 n

/-- The strings that stand for a `bool`. -/
def parseBool (rawValue : List Char) : Option Bool :=
  if rawValue.map Char.toLower = "true".toList ∨ rawValue = ['1'] then some true
  else if rawValue.map Char.toLower = "false".toList ∨ rawValue = ['0'] then some false
  else none

variable {F : Type} (parseF64 : List Char → Option F)

/-- The value that a segment converts to. -/
def convert (kind : ParamKind) (rawValue : List Char) : Option (PyValue F) :=
  match kind with
  | .str => some (.str (rawValue.map .ofChar))
  | .int => (parseI64 rawValue).map .int
  | .float => (parseF64 rawValue).map .float
  | .bool => (parseBool rawValue).map .bool

/-- Keyword arguments, in insertion order. -/
abbrev Kwargs (F : Type) := List (List Char × PyValue F)

/-- `set_item`, which does not fail for a key of type `str`. -/
def setItem (key : List Char) (value : PyValue F) : Kwargs F → Kwargs F
  | [] => [(key, value)]
  | (key', value') :: rest =>
    if key' = key then (key, value) :: rest else (key', value') :: setItem key value rest

/-- `convert_and_insert`. -/
def convertAndInsert (kwargs : Kwargs F) (paramName : List Char) (paramKind : ParamKind)
    (rawValue : List Char) : Except HandlerResponse (Kwargs F) :=
  match convert parseF64 paramKind rawValue with
  | some value => .ok (setItem paramName value kwargs)
  | none => .error (validationErrorResponse paramName paramKind rawValue)

/-- The first match of a name. -/
def findParam (paramName : List Char) (matchedParams : List (List Char × List Char)) :
    Option (List Char × List Char) :=
  matchedParams.find? fun matched => matched.1 = paramName

/-- The loop of `AppService::build_kwargs`, over the parameters of the route. -/
def buildKwargsFrom (matchedParams : List (List Char × List Char)) (kwargs : Kwargs F) :
    List (List Char × ParamKind) → Except HandlerResponse (Kwargs F)
  | [] => .ok kwargs
  | (paramName, paramKind) :: rest =>
    match findParam paramName matchedParams with
    -- the branch of a lost path parameter
    | none => .error .internalError
    | some (_, rawValue) => do
      let kwargs ← convertAndInsert parseF64 kwargs paramName paramKind rawValue
      buildKwargsFrom matchedParams kwargs rest

/-- `AppService::build_kwargs`. -/
def buildKwargs (params : List (List Char × ParamKind))
    (matchedParams : List (List Char × List Char)) : Except HandlerResponse (Kwargs F) :=
  buildKwargsFrom parseF64 matchedParams [] params

/-- The loop of a sync route, which answers with the first error. -/
def syncKwargsFrom (paramsForThread : List (List Char × List Char)) (kwargs : Kwargs F) :
    List (List Char × ParamKind) → Except HandlerResponse (Kwargs F)
  | [] => .ok kwargs
  | (paramName, paramKind) :: rest =>
    match findParam paramName paramsForThread with
    -- the branch of a lost path parameter
    | none => .error .internalError
    | some (_, rawValue) =>
      match convertAndInsert parseF64 kwargs paramName paramKind rawValue with
      | .error errorResponse => .error errorResponse
      | .ok converted => syncKwargsFrom paramsForThread converted rest

/-- The arguments of a sync route. -/
def syncKwargs (params : List (List Char × ParamKind))
    (paramsForThread : List (List Char × List Char)) : Except HandlerResponse (Kwargs F) :=
  syncKwargsFrom parseF64 paramsForThread [] params

variable {parseF64}

/-- Both loops collect the same arguments and answer with the same errors. -/
theorem syncKwargsFrom_eq (matchedParams : List (List Char × List Char)) (kwargs : Kwargs F)
    (params : List (List Char × ParamKind)) :
    syncKwargsFrom parseF64 matchedParams kwargs params =
      buildKwargsFrom parseF64 matchedParams kwargs params := by
  induction params generalizing kwargs with
  | nil => rfl
  | cons param params ih =>
    obtain ⟨paramName, paramKind⟩ := param
    simp only [syncKwargsFrom, buildKwargsFrom]
    split
    · rfl
    · rename_i rawValue _
      cases convertAndInsert parseF64 kwargs paramName paramKind rawValue with
      | error e => rfl
      | ok converted => exact ih converted

/-- The sync route builds the same arguments. -/
theorem syncKwargs_eq (params : List (List Char × ParamKind))
    (matchedParams : List (List Char × List Char)) :
    syncKwargs parseF64 params matchedParams = buildKwargs parseF64 params matchedParams :=
  syncKwargsFrom_eq matchedParams [] params

/-- A new key goes to the end. -/
theorem setItem_of_notMem {key : List Char} {value : PyValue F} {kwargs : Kwargs F}
    (hkey : key ∉ kwargs.map Prod.fst) : setItem key value kwargs = kwargs ++ [(key, value)] := by
  induction kwargs with
  | nil => rfl
  | cons entry kwargs ih =>
    obtain ⟨first, old⟩ := entry
    have hne : first ≠ key := fun heq => hkey (heq ▸ .head _)
    rw [setItem, if_neg hne, ih fun h => hkey (.tail _ h), List.cons_append]

/-- The keys of the arguments after one of them was set. -/
theorem mem_setItem_keys {key name : List Char} {value : PyValue F} {kwargs : Kwargs F} :
    name ∈ (setItem key value kwargs).map Prod.fst ↔
      name = key ∨ name ∈ kwargs.map Prod.fst := by
  induction kwargs with
  | nil => simp [setItem]
  | cons entry kwargs ih =>
    obtain ⟨first, old⟩ := entry
    by_cases hfirst : first = key
    · simp [setItem, hfirst]
    · simp only [setItem, hfirst, if_false, List.map_cons, List.mem_cons, ih]
      exact or_left_comm

/-- An argument after one of them was set is this one or an old one. -/
theorem mem_of_mem_setItem {key : List Char} {value : PyValue F} {kwargs : Kwargs F}
    {argument : List Char × PyValue F} (h : argument ∈ setItem key value kwargs) :
    argument = (key, value) ∨ argument ∈ kwargs := by
  induction kwargs with
  | nil => exact .inl (List.mem_singleton.mp h)
  | cons entry kwargs ih =>
    obtain ⟨first, old⟩ := entry
    simp only [setItem] at h
    split at h
    · rcases List.mem_cons.mp h with rfl | h
      · exact .inl rfl
      · exact .inr (.tail _ h)
    · rcases List.mem_cons.mp h with rfl | h
      · exact .inr (.head _)
      · exact (ih h).imp_right (.tail _)

/-- No key is set twice. -/
theorem nodup_setItem_keys {key : List Char} {value : PyValue F} {kwargs : Kwargs F}
    (h : (kwargs.map Prod.fst).Nodup) : ((setItem key value kwargs).map Prod.fst).Nodup := by
  induction kwargs with
  | nil => simp [setItem]
  | cons entry kwargs ih =>
    obtain ⟨first, old⟩ := entry
    rw [List.map_cons, List.nodup_cons] at h
    by_cases hfirst : first = key
    · subst hfirst
      rw [setItem, if_pos rfl, List.map_cons, List.nodup_cons]
      exact h
    · rw [setItem, if_neg hfirst, List.map_cons, List.nodup_cons, mem_setItem_keys]
      exact ⟨not_or.mpr ⟨hfirst, h.1⟩, ih h.2⟩

/-- The item that was set is there. -/
theorem mem_setItem_self (key : List Char) (value : PyValue F) (kwargs : Kwargs F) :
    (key, value) ∈ setItem key value kwargs := by
  induction kwargs with
  | nil => exact List.mem_singleton_self _
  | cons entry kwargs ih =>
    rw [setItem]
    split
    · exact .head _
    · exact .tail _ ih

/-- The items under other keys stay. -/
theorem mem_setItem_of_ne {key : List Char} {value : PyValue F} {kwargs : Kwargs F}
    {argument : List Char × PyValue F} (hmem : argument ∈ kwargs) (hne : argument.1 ≠ key) :
    argument ∈ setItem key value kwargs := by
  induction kwargs with
  | nil => exact absurd hmem (by simp)
  | cons entry kwargs ih =>
    obtain ⟨first, old⟩ := entry
    rw [setItem]
    rcases List.mem_cons.mp hmem with rfl | hmem
    · rw [if_neg hne]
      exact .head _
    · split
      · exact .tail _ hmem
      · exact .tail _ (ih hmem)

/-- A captured segment is the first of its name, when no name is captured twice. -/
theorem findParam_eq_some {matchedParams : List (List Char × List Char)}
    (hnodup : (matchedParams.map Prod.fst).Nodup) {name rawValue : List Char}
    (hmem : (name, rawValue) ∈ matchedParams) :
    findParam name matchedParams = some (name, rawValue) := by
  induction matchedParams with
  | nil => simp at hmem
  | cons matched matchedParams ih =>
    rw [List.map_cons, List.nodup_cons] at hnodup
    rcases List.mem_cons.mp hmem with rfl | hmem
    · simp [findParam]
    · have hne : matched.1 ≠ name := fun heq =>
        hnodup.1 (List.mem_map.mpr ⟨_, hmem, heq.symm⟩)
      simpa [findParam, hne] using ih hnodup.2 hmem

/-- A name that was captured is found. -/
theorem findParam_isSome {matchedParams : List (List Char × List Char)} {name : List Char}
    (hname : name ∈ matchedParams.map Prod.fst) : (findParam name matchedParams).isSome := by
  obtain ⟨matched, hmem, rfl⟩ := List.mem_map.mp hname
  exact List.find?_isSome.mpr ⟨matched, hmem, by simp⟩

/-- The error for a segment that does not convert is not the opaque 500. -/
theorem validationErrorResponse_ne_internalError (paramName rawValue : List Char)
    (expected : ParamKind) :
    validationErrorResponse paramName expected rawValue ≠ .internalError := fun h => by
  have hstatus := congrArg HandlerResponse.status h
  simp [validationErrorResponse, HandlerResponse.internalError] at hstatus

/-- A parameter whose name was captured is not lost. -/
theorem buildKwargsFrom_ne_internalError {matchedParams : List (List Char × List Char)}
    {params : List (List Char × ParamKind)}
    (hnames : ∀ param ∈ params, param.1 ∈ matchedParams.map Prod.fst) (kwargs : Kwargs F) :
    buildKwargsFrom parseF64 matchedParams kwargs params ≠ .error .internalError := by
  induction params generalizing kwargs with
  | nil => simp [buildKwargsFrom]
  | cons param params ih =>
    obtain ⟨paramName, paramKind⟩ := param
    obtain ⟨⟨_, rawValue⟩, hfound⟩ :=
      Option.isSome_iff_exists.mp (findParam_isSome (hnames _ (.head _)))
    simp only [buildKwargsFrom, hfound, convertAndInsert]
    cases convert parseF64 paramKind rawValue with
    | none =>
      intro h
      exact validationErrorResponse_ne_internalError _ _ _ (Except.error.inj h)
    | some value => exact ih (fun param hparam => hnames param (.tail _ hparam)) _

/-- The keyword argument of a parameter: its name, with what the first segment captured under
this name converts to. -/
def IsArgument (parseF64 : List Char → Option F) (matchedParams : List (List Char × List Char))
    (param : List Char × ParamKind) (argument : List Char × PyValue F) : Prop :=
  argument.1 = param.1 ∧ ∃ matched, findParam param.1 matchedParams = some matched ∧
    convert parseF64 param.2 matched.2 = some argument.2

/-- The loop appends one argument for each parameter. -/
theorem buildKwargsFrom_ok {matchedParams : List (List Char × List Char)}
    {params : List (List Char × ParamKind)} {kwargs out : Kwargs F}
    (hnodup : (kwargs.map Prod.fst ++ params.map Prod.fst).Nodup)
    (hok : buildKwargsFrom parseF64 matchedParams kwargs params = .ok out) :
    ∃ arguments, out = kwargs ++ arguments ∧
      List.Forall₂ (IsArgument parseF64 matchedParams) params arguments := by
  induction params generalizing kwargs with
  | nil =>
    obtain rfl := Except.ok.inj hok
    exact ⟨[], (List.append_nil _).symm, .nil⟩
  | cons param params ih =>
    obtain ⟨paramName, paramKind⟩ := param
    simp only [buildKwargsFrom] at hok
    cases hfound : findParam paramName matchedParams with
    | none => simp [hfound] at hok
    | some matched =>
      cases hvalue : convert parseF64 paramKind matched.2 with
      | none => simp [hfound, convertAndInsert, hvalue, bind, Except.bind] at hok
      | some value =>
        have hfresh : paramName ∉ kwargs.map Prod.fst := fun hmem =>
          (List.nodup_append.mp hnodup).2.2 _ hmem _ (.head _) rfl
        simp only [hfound, convertAndInsert, hvalue, bind, Except.bind,
          setItem_of_notMem hfresh] at hok
        obtain ⟨arguments, rfl, harguments⟩ := ih (by simpa using hnodup) hok
        exact ⟨(paramName, value) :: arguments, by simp,
          .cons ⟨rfl, matched, hfound, hvalue⟩ harguments⟩

section Arguments

variable {matchedParams : List (List Char × List Char)} {params : List (List Char × ParamKind)}
  {arguments : Kwargs F}

/-- The arguments go by the names of the parameters. -/
theorem arguments_map_fst (h : List.Forall₂ (IsArgument parseF64 matchedParams) params arguments) :
    arguments.map Prod.fst = params.map Prod.fst := by
  induction h with
  | nil => rfl
  | cons hargument _ ih => rw [List.map_cons, List.map_cons, ih, hargument.1]

/-- Every parameter has an argument. -/
theorem exists_argument (h : List.Forall₂ (IsArgument parseF64 matchedParams) params arguments)
    {param : List Char × ParamKind} (hparam : param ∈ params) :
    ∃ argument ∈ arguments, IsArgument parseF64 matchedParams param argument := by
  induction h with
  | nil => simp at hparam
  | @cons first argument params arguments hargument _ ih =>
    rcases List.mem_cons.mp hparam with rfl | hparam
    · exact ⟨argument, .head _, hargument⟩
    · obtain ⟨found, hfound, hargument⟩ := ih hparam
      exact ⟨found, .tail _ hfound, hargument⟩

end Arguments

/-- What is collected when the parameters are the captured segments, without repetition: every
segment, converted and under its own name. -/
theorem arguments_of_buildKwargs {pathParams : List (List Char × List Char)}
    {params : List (List Char × ParamKind)} {kwargs : Kwargs F}
    (hparams : params.map Prod.fst = pathParams.map Prod.fst)
    (hnodup : (pathParams.map Prod.fst).Nodup)
    (hok : buildKwargs parseF64 params pathParams = .ok kwargs) :
    kwargs.map Prod.fst = pathParams.map Prod.fst ∧
      ∀ name rawValue, (name, rawValue) ∈ pathParams → ∃ kind value,
        (name, kind) ∈ params ∧ convert parseF64 kind rawValue = some value ∧
          (name, value) ∈ kwargs := by
  obtain ⟨arguments, hkwargs, harguments⟩ := buildKwargsFrom_ok (by simpa [hparams]) hok
  obtain rfl : kwargs = arguments := by simpa using hkwargs
  refine ⟨(arguments_map_fst harguments).trans hparams, fun name rawValue hmem => ?_⟩
  obtain ⟨param, hparam, rfl⟩ : ∃ param ∈ params, param.1 = name :=
    List.mem_map.mp (hparams ▸ List.mem_map_of_mem hmem)
  obtain ⟨argument, hargument, hname, matched, hfound, hvalue⟩ := exists_argument harguments hparam
  rw [findParam_eq_some hnodup hmem] at hfound
  obtain rfl := Option.some.inj hfound
  exact ⟨param.2, argument.2, hparam, hvalue, hname ▸ hargument⟩

end Rayo
