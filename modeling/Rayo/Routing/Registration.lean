import Mathlib.Data.List.TakeWhile

/-!
# Registering a route

`_build_route_spec` finds the parameter names of a path with the regular expression `\{(\w+)\}`
and compares them with the signature of the handler. What `\w` matches is a parameter.
-/

namespace Rayo

/-- What the scan relies on of `\w`, which matches letters, digits and the underscore. -/
structure WordClass (isWord : Char → Bool) : Prop where
  opening : isWord '{' = false
  closing : isWord '}' = false
  star : isWord '*' = false

variable (isWord : Char → Bool)

/-- Match `(\w+)\}` at the beginning of a text. -/
def wordBeforeBrace (rest : List Char) : Option (List Char) :=
  let name := rest.takeWhile isWord
  if name ≠ [] ∧ (rest.drop name.length).head? = some '}' then some name else none

/-- Match `\{(\w+)\}` at the beginning of a text. -/
def pathParameter : List Char → Option (List Char)
  | '{' :: rest => wordBeforeBrace isWord rest
  | _ => none

/-- `_PATH_PARAMETER.findall`, with the number of characters of the last match that are still
to be passed. -/
def findallFrom : ℕ → List Char → List (List Char)
  | _, [] => []
  | skip + 1, _ :: rest => findallFrom skip rest
  | 0, c :: rest =>
    match pathParameter isWord (c :: rest) with
    | some name => name :: findallFrom (name.length + 1) rest
    | none => findallFrom 0 rest

/-- `_PATH_PARAMETER.findall(path)`. -/
def findall (path : List Char) : List (List Char) := findallFrom isWord 0 path

variable {isWord}

/-- A match consists of word characters and is closed by a brace. -/
theorem wordBeforeBrace_eq_some {rest name : List Char}
    (h : wordBeforeBrace isWord rest = some name) :
    name ≠ [] ∧ (∀ c ∈ name, isWord c = true) ∧ ∃ after, rest = name ++ '}' :: after := by
  simp only [wordBeforeBrace, Option.ite_none_right_eq_some, Option.some.injEq] at h
  obtain ⟨⟨hnonempty, hclosing⟩, rfl⟩ := h
  obtain ⟨after, hafter⟩ := List.head?_eq_some_iff.mp hclosing
  have hsplit := List.prefix_iff_eq_append.mp (List.takeWhile_prefix isWord (l := rest))
  exact ⟨hnonempty, fun c hc => List.mem_takeWhile_imp hc, after, by rw [← hafter, hsplit]⟩

/-- A word that is closed by a brace is matched. -/
theorem wordBeforeBrace_append (hword : WordClass isWord) {name : List Char} (hname : name ≠ [])
    (hchars : ∀ c ∈ name, isWord c = true) (after : List Char) :
    wordBeforeBrace isWord (name ++ '}' :: after) = some name := by
  have htake : (name ++ '}' :: after).takeWhile isWord = name := by
    rw [List.takeWhile_append_of_pos hchars, List.takeWhile_cons_of_neg (by simp [hword.closing]),
      List.append_nil]
  simp [wordBeforeBrace, htake, hname]

/-- Text without an opening brace adds no name. -/
theorem findall_append {skipped : List Char} (hskipped : '{' ∉ skipped) (rest : List Char) :
    findall isWord (skipped ++ rest) = findall isWord rest := by
  induction skipped with
  | nil => rfl
  | cons c skipped ih =>
    have hmatch : pathParameter isWord (c :: (skipped ++ rest)) = none := by
      unfold pathParameter
      split
      · simp_all
      · rfl
    rw [← ih fun hc => hskipped (.tail _ hc), findall, List.cons_append, findallFrom, hmatch]
    rfl

/-- What a match takes has been passed when the scan goes on. -/
theorem findallFrom_length (skipped rest : List Char) :
    findallFrom isWord skipped.length (skipped ++ rest) = findall isWord rest := by
  induction skipped with
  | nil => rfl
  | cons c skipped ih => exact ih

/-- At an opening brace the scan reads one name or none, whatever it read before. -/
theorem findall_opening (hword : WordClass isWord) (rest : List Char) :
    findall isWord ('{' :: rest) =
      (wordBeforeBrace isWord rest).toList ++ findall isWord rest := by
  cases hmatch : wordBeforeBrace isWord rest with
  | none => simp [findall, findallFrom, pathParameter, hmatch]
  | some name =>
    obtain ⟨hnonempty, hchars, after, rfl⟩ := wordBeforeBrace_eq_some hmatch
    have hskipped : '{' ∉ name ++ ['}'] := fun hc => by
      rcases List.mem_append.mp hc with hc | hc
      · simpa [hword.opening] using hchars _ hc
      · simp at hc
    have hpassed : findallFrom isWord (name.length + 1) (name ++ '}' :: after) =
        findall isWord after := by
      simpa using findallFrom_length (name ++ ['}']) after
    have hskip : findall isWord (name ++ '}' :: after) = findall isWord after := by
      simpa using findall_append hskipped after
    simp [findall, findallFrom, pathParameter, hmatch, hpassed] at hskip ⊢
    exact hskip.symm

/-- Every name that is found is a word. -/
theorem isWord_of_mem_findall (hword : WordClass isWord) {path name : List Char}
    (h : name ∈ findall isWord path) : ∀ c ∈ name, isWord c = true := by
  induction path with
  | nil => simp [findall, findallFrom] at h
  | cons c path ih =>
    by_cases hc : c = '{'
    · subst hc
      rw [findall_opening hword, List.mem_append, Option.mem_toList] at h
      rcases h with h | h
      · exact (wordBeforeBrace_eq_some h).2.1
      · exact ih h
    · have hskip : findall isWord ([c] ++ path) = findall isWord path :=
        findall_append (by simpa using Ne.symm hc) path
      exact ih (hskip ▸ h)

/-- The kind of a parameter in a signature. -/
inductive ParameterKind
  | positionalOnly
  | positionalOrKeyword
  | varPositional
  | keywordOnly
  | varKeyword
  deriving DecidableEq

/-- A parameter in a signature. -/
structure Parameter where
  name : List Char
  kind : ParameterKind
  hasDefault : Bool

/-- A type hint: one of the supported types, or another object with its `repr`. -/
inductive Annotation
  | str
  | int
  | float
  | bool
  | other (repr : String)
  deriving DecidableEq

/-- `_PARAM_KIND_BY_ANNOTATION.get`. -/
def paramKindByAnnotation : Annotation → Option ℕ
  | .str => some 0
  | .int => some 1
  | .float => some 2
  | .bool => some 3
  | .other _ => none

/-- The exceptions that registration raises. -/
inductive RegistrationError
  /-- Raised by `inspect.signature` or `get_type_hints`. -/
  | inspection (message : String)
  | typeError (message : String)
  deriving DecidableEq

/-- A handler, as far as registration inspects it. -/
structure Handler where
  /-- `_handler_location`. -/
  location : String
  /-- `inspect.signature`. -/
  signature : Except RegistrationError (List Parameter)
  /-- `get_type_hints`. -/
  typeHints : Except RegistrationError (List (List Char × Annotation))
  /-- `inspect.iscoroutinefunction`. -/
  isCoroutineFunction : Bool

/-- `_RouteSpec`. -/
structure RouteSpec where
  method : String
  path : List Char
  handler : Handler
  isAsync : Bool
  parameterSpecs : List (List Char × ℕ)

/-- The error for an argument that the path does not name. -/
def unmatchedArgument (method : String) (path : List Char) (handler : Handler)
    (argumentName : List Char) : RegistrationError :=
  .typeError (method ++ " " ++ String.ofList path ++ ": handler argument '" ++
    String.ofList argumentName ++ "' does not match any path parameter on " ++
    handler.location ++ ". v0 handlers can only take path parameters; query and body " ++
    "parameters arrive with the schema engine (see ROADMAP.md).")

/-- The error for a path parameter that the signature does not name. -/
def missingArgument (method : String) (path : List Char) (handler : Handler)
    (parameterName : List Char) : RegistrationError :=
  .typeError (method ++ " " ++ String.ofList path ++ ": path parameter '\x7b" ++
    String.ofList parameterName ++ "\x7d' has no matching argument on " ++ handler.location ++
    ". Add '" ++ String.ofList parameterName ++
    ": str' (or int, float, bool) to the handler signature.")

/-- `annotation!r`. -/
def Annotation.repr : Annotation → String
  | .str => "<class 'str'>"
  | .int => "<class 'int'>"
  | .float => "<class 'float'>"
  | .bool => "<class 'bool'>"
  | .other repr => repr

/-- The error for an annotation that is no key of the table. -/
def unsupportedAnnotation (method : String) (path : List Char) (handler : Handler)
    (parameterName : List Char) (hint : Annotation) : RegistrationError :=
  .typeError (method ++ " " ++ String.ofList path ++ ": path parameter '" ++
    String.ofList parameterName ++ "' on " ++ handler.location ++ " is annotated " ++
    hint.repr ++ ", which is not supported yet. Supported path parameter types: " ++
    "str, int, float, bool.")

/-- The loop over the arguments of the signature. -/
def checkArguments (method : String) (path : List Char) (handler : Handler)
    (pathParameterNames : List (List Char)) : List Parameter → Except RegistrationError Unit
  | [] => .ok ()
  | argument :: rest =>
    if argument.name ∉ pathParameterNames then
      .error (unmatchedArgument method path handler argument.name)
    else checkArguments method path handler pathParameterNames rest

/-- The loop over the names of the path. -/
def collectSpecs (method : String) (path : List Char) (handler : Handler)
    (parameters : List Parameter) (typeHints : List (List Char × Annotation)) :
    List (List Char) → Except RegistrationError (List (List Char × ℕ))
  | [] => .ok []
  | parameterName :: rest =>
    if parameterName ∉ parameters.map Parameter.name then
      .error (missingArgument method path handler parameterName)
    else
      let hint := (typeHints.lookup parameterName).getD .str
      match paramKindByAnnotation hint with
      | none => .error <| unsupportedAnnotation method path handler parameterName hint
      | some parameterKind =>
        (collectSpecs method path handler parameters typeHints rest).map
          ((parameterName, parameterKind) :: ·)

variable (isWord)

/-- `_build_route_spec`. -/
def buildRouteSpec (method : String) (path : List Char) (handler : Handler) :
    Except RegistrationError RouteSpec := do
  let pathParameterNames := findall isWord path
  let parameters ← handler.signature
  let typeHints ← handler.typeHints
  checkArguments method path handler pathParameterNames parameters
  let parameterSpecs ←
    collectSpecs method path handler parameters typeHints pathParameterNames
  return { method, path, handler, isAsync := handler.isCoroutineFunction, parameterSpecs }

variable {isWord}

/-- The specs that are collected go by the names of the path, in their order. -/
theorem collectSpecs_map_fst {method : String} {path : List Char} {handler : Handler}
    {parameters : List Parameter} {typeHints : List (List Char × Annotation)}
    {names : List (List Char)} {specs : List (List Char × ℕ)}
    (h : collectSpecs method path handler parameters typeHints names = .ok specs) :
    specs.map Prod.fst = names := by
  induction names generalizing specs with
  | nil =>
    obtain rfl := Except.ok.inj h
    rfl
  | cons name names ih =>
    simp only [collectSpecs] at h
    split at h
    · simp at h
    · split at h
      · simp at h
      · cases hrest : collectSpecs method path handler parameters typeHints names with
        | error e => simp [hrest, Except.map] at h
        | ok rest =>
          simp only [hrest, Except.map, Except.ok.injEq] at h
          subst h
          simp [ih hrest]

/-- What registration has checked of an accepted route. -/
theorem buildRouteSpec_eq_ok {method : String} {path : List Char} {handler : Handler}
    {spec : RouteSpec} (h : buildRouteSpec isWord method path handler = .ok spec) :
    ∃ parameters typeHints specs, handler.signature = .ok parameters ∧
      handler.typeHints = .ok typeHints ∧
      checkArguments method path handler (findall isWord path) parameters = .ok () ∧
      collectSpecs method path handler parameters typeHints (findall isWord path) = .ok specs ∧
      spec = { method, path, handler, isAsync := handler.isCoroutineFunction,
               parameterSpecs := specs } := by
  unfold buildRouteSpec at h
  cases hparameters : handler.signature with
  | error e => simp [hparameters, bind, Except.bind] at h
  | ok parameters =>
    cases htypeHints : handler.typeHints with
    | error e => simp [hparameters, htypeHints, bind, Except.bind] at h
    | ok typeHints =>
      simp only [hparameters, htypeHints, bind, Except.bind, pure, Except.pure] at h
      split at h
      · simp at h
      · rename_i harguments
        split at h
        · simp at h
        · rename_i specs hspecs
          exact ⟨parameters, typeHints, specs, rfl, rfl, harguments, hspecs,
            (Except.ok.inj h).symm⟩

/-- An accepted route has the specs of the names that the regular expression finds. -/
theorem buildRouteSpec_map_fst {method : String} {path : List Char} {handler : Handler}
    {spec : RouteSpec} (h : buildRouteSpec isWord method path handler = .ok spec) :
    spec.parameterSpecs.map Prod.fst = findall isWord spec.path := by
  obtain ⟨parameters, typeHints, specs, -, -, -, hspecs, rfl⟩ := buildRouteSpec_eq_ok h
  exact collectSpecs_map_fst hspecs

end Rayo
