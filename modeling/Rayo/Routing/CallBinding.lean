import Mathlib.Data.List.Forall2
import Rayo.Routing.ParserAgreement

/-!
# Calling a handler with keyword arguments

A handler is called with one keyword argument for each parameter of its route, and with nothing
else. Python binds a keyword argument to the parameter of its name, unless this parameter is
positional-only or collects surplus arguments. Registration compares names and never looks at
the kinds of the parameters.
-/

namespace Rayo

/-- A keyword argument can be bound to a parameter of this kind. -/
def ParameterKind.takesKeyword : ParameterKind → Bool
  | .positionalOrKeyword | .keywordOnly => true
  | .positionalOnly | .varPositional | .varKeyword => false

/-- What a parameter receives in a call with keyword arguments only. -/
inductive Received (F : Type)
  | argument (value : PyValue F)
  | default
  /-- The surplus positional arguments, of which there are none. -/
  | noArguments
  /-- The surplus keyword arguments. -/
  | keywords (surplus : Kwargs F)

/-- The `TypeError` of a call whose arguments do not bind. -/
inductive CallError
  | unexpectedKeyword (name : List Char)
  | missingArgument (name : List Char)

variable {F : Type}

/-- Some parameter is bound by a keyword argument of this name. -/
def bindsKeyword (parameters : List Parameter) (name : List Char) : Bool :=
  parameters.any fun p => p.name = name && p.kind.takesKeyword

/-- The keyword arguments that no parameter is bound by. -/
def surplusKeywords (parameters : List Parameter) (kwargs : Kwargs F) : Kwargs F :=
  kwargs.filter fun argument => !bindsKeyword parameters argument.1

/-- What a parameter receives, if it is not left without an argument. -/
def Parameter.receive (kwargs surplus : Kwargs F) (p : Parameter) : Option (Received F) :=
  let default := if p.hasDefault then some .default else none
  match p.kind with
  | .positionalOrKeyword | .keywordOnly => ((kwargs.lookup p.name).map .argument).or default
  | .positionalOnly => default
  | .varPositional => some .noArguments
  | .varKeyword => some (.keywords surplus)

/-- Fill the parameters, up to one that is left without an argument. -/
def fillParameters (kwargs surplus : Kwargs F) :
    List Parameter → Except CallError (List (Received F))
  | [] => .ok []
  | p :: rest =>
    match p.receive kwargs surplus with
    | none => .error (.missingArgument p.name)
    | some received => (fillParameters kwargs surplus rest).map (received :: ·)

/-- `handler(**kwargs)`, up to the body of the handler. -/
def bindCall (parameters : List Parameter) (kwargs : Kwargs F) :
    Except CallError (List (Received F)) :=
  let surplus := surplusKeywords parameters kwargs
  match surplus, parameters.any (·.kind = .varKeyword) with
  | (name, _) :: _, false => .error (.unexpectedKeyword name)
  | _, _ => fillParameters kwargs surplus parameters

/-- Only a keyword argument of its own name gives a parameter its value. -/
theorem Parameter.takesKeyword_of_receive {kwargs surplus : Kwargs F} {p : Parameter}
    {value : PyValue F} (h : p.receive kwargs surplus = some (.argument value)) :
    p.kind.takesKeyword = true ∧ kwargs.lookup p.name = some value := by
  unfold Parameter.receive at h
  cases hkind : p.kind <;> simp only [hkind] at h
  case positionalOrKeyword | keywordOnly =>
    cases hlookup : kwargs.lookup p.name with
    | none => cases hdefault : p.hasDefault <;> simp [hlookup, hdefault] at h
    | some found =>
      refine ⟨rfl, ?_⟩
      simpa [hlookup] using h
  case positionalOnly => cases hdefault : p.hasDefault <;> simp [hdefault] at h
  case varPositional | varKeyword => simp at h

/-- A keyword argument goes to the parameter of its name. -/
theorem Parameter.receive_of_lookup {kwargs surplus : Kwargs F} {p : Parameter}
    {value : PyValue F} (hkind : p.kind.takesKeyword = true)
    (hlookup : kwargs.lookup p.name = some value) :
    p.receive kwargs surplus = some (.argument value) := by
  unfold Parameter.receive
  cases hp : p.kind <;> simp_all [ParameterKind.takesKeyword]

/-- Filling the parameters succeeds if each of them receives something. -/
theorem fillParameters_eq_ok {kwargs surplus : Kwargs F} {parameters : List Parameter}
    {bound : List (Received F)} :
    fillParameters kwargs surplus parameters = .ok bound ↔
      List.Forall₂ (fun p received => p.receive kwargs surplus = some received)
        parameters bound := by
  induction parameters generalizing bound with
  | nil => simp [fillParameters, List.forall₂_nil_left_iff, eq_comm]
  | cons p parameters ih =>
    simp only [fillParameters]
    cases hreceive : p.receive kwargs surplus with
    | none =>
      constructor
      · intro h
        cases h
      · intro h
        cases h with
        | cons hfirst _ => rw [hreceive] at hfirst; cases hfirst
    | some received =>
      constructor
      · intro h
        cases hrest : fillParameters kwargs surplus parameters with
        | error e => simp [hrest, Except.map] at h
        | ok rest =>
          simp only [hrest, Except.map, Except.ok.injEq] at h
          exact h ▸ .cons hreceive (ih.mp hrest)
      · intro h
        cases h with
        | cons hfirst hrest =>
          rw [hreceive] at hfirst
          rw [ih.mpr hrest, Option.some.inj hfirst]
          rfl

/-- A call that binds has filled the parameters. -/
theorem fillParameters_of_bindCall {kwargs : Kwargs F} {parameters : List Parameter}
    {bound : List (Received F)} (h : bindCall parameters kwargs = .ok bound) :
    fillParameters kwargs (surplusKeywords parameters kwargs) parameters = .ok bound := by
  simp only [bindCall] at h
  split at h
  · cases h
  · exact h

/-- Without surplus arguments, a call binds if the parameters can be filled. -/
theorem bindCall_of_surplus_nil {kwargs : Kwargs F} {parameters : List Parameter}
    (h : surplusKeywords parameters kwargs = []) :
    bindCall parameters kwargs = fillParameters kwargs [] parameters := by
  simp [bindCall, h]

variable {parseF64 : List Char → Option F} {matchedParams : List (List Char × List Char)}

/-- Whatever the parameters of a route repeat, the loop collects an argument for each name, and
each argument is the one of some parameter. -/
theorem arguments_of_buildKwargsFrom {params : List (List Char × ParamKind)}
    {kwargs out : Kwargs F} (hok : buildKwargsFrom parseF64 matchedParams kwargs params = .ok out) :
    (∀ name, name ∈ out.map Prod.fst ↔
        name ∈ kwargs.map Prod.fst ∨ name ∈ params.map Prod.fst) ∧
      ∀ argument ∈ out, argument ∈ kwargs ∨
        ∃ param ∈ params, IsArgument parseF64 matchedParams param argument := by
  induction params generalizing kwargs with
  | nil =>
    obtain rfl := Except.ok.inj hok
    simp
  | cons param params ih =>
    obtain ⟨paramName, paramKind⟩ := param
    simp only [buildKwargsFrom] at hok
    cases hfound : findParam paramName matchedParams with
    | none => simp [hfound] at hok
    | some matched =>
      cases hvalue : convert parseF64 paramKind matched.2 with
      | none => simp [hfound, convertAndInsert, hvalue, bind, Except.bind] at hok
      | some value =>
        simp only [hfound, convertAndInsert, hvalue, bind, Except.bind] at hok
        obtain ⟨hkeys, harguments⟩ := ih hok
        constructor
        · intro name
          rw [hkeys, mem_setItem_keys, List.map_cons, List.mem_cons, or_comm (a := name = _),
            or_assoc]
        · intro argument hargument
          rcases harguments argument hargument with hold | ⟨param, hparam, hthis⟩
          · rcases mem_of_mem_setItem hold with rfl | hold
            · exact .inr ⟨_, .head _, rfl, matched, hfound, hvalue⟩
            · exact .inl hold
          · exact .inr ⟨param, .tail _ hparam, hthis⟩

/-- Every argument of a registered route is found in its signature. -/
theorem mem_names_of_checkArguments {method : String} {path : List Char} {handler : Handler}
    {names : List (List Char)} {parameters : List Parameter}
    (h : checkArguments method path handler names parameters = .ok ()) :
    ∀ p ∈ parameters, p.name ∈ names := by
  induction parameters with
  | nil => simp
  | cons p parameters ih =>
    simp only [checkArguments] at h
    split at h
    · cases h
    · next hname =>
      intro p' hp'
      rcases List.mem_cons.mp hp' with rfl | hp'
      · exact not_not.mp hname
      · exact ih h p' hp'

/-- Every parameter of the path is an argument of the handler. -/
theorem mem_parameters_of_collectSpecs {method : String} {path : List Char} {handler : Handler}
    {parameters : List Parameter} {typeHints : List (List Char × Annotation)}
    {names : List (List Char)} {specs : List (List Char × ℕ)}
    (h : collectSpecs method path handler parameters typeHints names = .ok specs) :
    ∀ name ∈ names, name ∈ parameters.map Parameter.name := by
  induction names generalizing specs with
  | nil => simp
  | cons name names ih =>
    simp only [collectSpecs] at h
    split at h
    · cases h
    · next hname =>
      split at h
      · cases h
      · cases hrest : collectSpecs method path handler parameters typeHints names with
        | error e => simp [hrest, Except.map] at h
        | ok rest =>
          intro name' hname'
          rcases List.mem_cons.mp hname' with rfl | hname'
          · exact not_not.mp hname
          · exact ih hrest name' hname'

/-- The call binds, and every parameter receives what the segment of its name converts to. -/
def BindsSegments (parseF64 : List Char → Option F) (params : List (List Char × ParamKind))
    (matchedParams : List (List Char × List Char)) (parameters : List Parameter)
    (kwargs : Kwargs F) : Prop :=
  ∃ bound, bindCall parameters kwargs = .ok bound ∧
    List.Forall₂ (fun p received => ∃ value, received = .argument value ∧
      ∃ param ∈ params, IsArgument parseF64 matchedParams param (p.name, value)) parameters bound

variable {isWord : Char → Bool}

/-- The loop over the parameters of an accepted route finds an argument for each parameter of
the handler, and none but those. -/
theorem arguments_of_registered {spec : RouteSpec} (hspec : Registered isWord spec)
    {parameters : List Parameter} (hparameters : spec.handler.signature = .ok parameters)
    {params : List (List Char × ParamKind)}
    (hparams : convertParams spec.method spec.path spec.parameterSpecs = .ok params)
    {kwargs : Kwargs F} (hkwargs : buildKwargs parseF64 params matchedParams = .ok kwargs) :
    (∀ argument ∈ kwargs, argument.1 ∈ parameters.map Parameter.name) ∧
      ∀ p ∈ parameters, ∃ value, kwargs.lookup p.name = some value ∧
        ∃ param ∈ params, IsArgument parseF64 matchedParams param (p.name, value) := by
  obtain ⟨parameters', typeHints, specs, hsignature, -, hchecked, hspecs, heq⟩ :=
    buildRouteSpec_eq_ok hspec
  obtain rfl : parameters' = parameters := by
    rw [hsignature] at hparameters
    exact Except.ok.inj hparameters
  obtain ⟨hkeys, harguments⟩ := arguments_of_buildKwargsFrom hkwargs
  have hnames : params.map Prod.fst = findall isWord spec.path := by
    rw [convertParams_map_fst hparams, heq, collectSpecs_map_fst hspecs]
  have hkey (name : List Char) : name ∈ kwargs.map Prod.fst ↔ name ∈ findall isWord spec.path := by
    simpa [hnames] using hkeys name
  constructor
  · intro argument hargument
    exact mem_parameters_of_collectSpecs hspecs _
      ((hkey _).mp (List.mem_map_of_mem hargument))
  · intro p hp
    have hmem := (hkey p.name).mpr (mem_names_of_checkArguments hchecked p hp)
    obtain ⟨entry, hentry, hname⟩ := List.mem_map.mp hmem
    obtain ⟨value, hvalue⟩ : ∃ value, kwargs.lookup p.name = some value :=
      Option.isSome_iff_exists.mp (List.lookup_isSome_iff.mpr
        ⟨entry, hentry, beq_iff_eq.mpr hname.symm⟩)
    obtain ⟨before, after, hsplit, -⟩ := List.lookup_eq_some_iff.mp hvalue
    have hargument : (p.name, value) ∈ kwargs := by simp [hsplit]
    exact ⟨value, hvalue, (harguments _ hargument).resolve_left (List.not_mem_nil)⟩

/-- **Registration and the call.** For every accepted route and every request whose segments
convert, the call binds each parameter to the converted segment of its name if and only if no
parameter of the handler is positional-only, `*args` or `**kwargs`. -/
theorem bindsSegments_iff_takesKeyword {spec : RouteSpec} (hspec : Registered isWord spec)
    {parameters : List Parameter} (hparameters : spec.handler.signature = .ok parameters)
    {params : List (List Char × ParamKind)}
    (hparams : convertParams spec.method spec.path spec.parameterSpecs = .ok params)
    {kwargs : Kwargs F} (hkwargs : buildKwargs parseF64 params matchedParams = .ok kwargs) :
    BindsSegments parseF64 params matchedParams parameters kwargs ↔
      ∀ p ∈ parameters, p.kind.takesKeyword = true := by
  constructor
  · rintro ⟨bound, hbound, hvalues⟩
    have hfilled := fillParameters_eq_ok.mp (fillParameters_of_bindCall hbound)
    have hkinds : List.Forall₂ (fun p _ => p.kind.takesKeyword = true ∧ True) parameters bound := by
      refine List.Forall₂.mp ?_ hfilled hvalues
      rintro p received hreceive ⟨value, rfl, -⟩
      exact ⟨(Parameter.takesKeyword_of_receive hreceive).1, trivial⟩
    exact ((List.forall₂_and_left _ _).mp hkinds).1
  · intro hkinds
    obtain ⟨hknown, hfound⟩ := arguments_of_registered hspec hparameters hparams hkwargs
    have hsurplus : surplusKeywords parameters kwargs = [] := by
      refine List.filter_eq_nil_iff.mpr fun argument hargument => ?_
      obtain ⟨p, hp, hname⟩ := List.mem_map.mp (hknown argument hargument)
      have hbinds : bindsKeyword parameters argument.1 = true :=
        List.any_eq_true.mpr ⟨p, hp, by simp [hname, hkinds p hp]⟩
      simp [hbinds]
    refine ⟨parameters.map fun p => ((kwargs.lookup p.name).map .argument).getD .default, ?_, ?_⟩
    · rw [bindCall_of_surplus_nil hsurplus, fillParameters_eq_ok, List.forall₂_map_right_iff,
        List.forall₂_same]
      intro p hp
      obtain ⟨value, hvalue, -⟩ := hfound p hp
      rw [Parameter.receive_of_lookup (hkinds p hp) hvalue, hvalue]
      rfl
    · rw [List.forall₂_map_right_iff, List.forall₂_same]
      intro p hp
      obtain ⟨value, hvalue, hargument⟩ := hfound p hp
      exact ⟨value, by rw [hvalue]; rfl, hargument⟩

/-- The routes of the same path with an argument that is positional-only. -/
def positionalRoute : RouteSpec :=
  { itemRoute ['/', '{', 'i', 'd', '}'] with
    handler := { showItem with signature := .ok [⟨['i', 'd'], .positionalOnly, false⟩] } }

/-- The handler of the item takes its segment by keyword. -/
theorem bindsSegments_iff_takesKeyword_item :
    BindsSegments (F := ℚ) (fun _ => none) [(['i', 'd'], .int)] [(['i', 'd'], ['4', '2'])]
        [⟨['i', 'd'], .positionalOrKeyword, false⟩] [(['i', 'd'], .int 42)] ↔
      ∀ p ∈ [(⟨['i', 'd'], .positionalOrKeyword, false⟩ : Parameter)],
        p.kind.takesKeyword = true := by
  have hspec : Registered asciiWord (itemRoute ['/', '{', 'i', 'd', '}']) := rfl
  exact bindsSegments_iff_takesKeyword hspec rfl rfl rfl

/-- A handler `def show_item(id, /)` is accepted for `/{id}`, and every call of it fails. -/
theorem positional_only_accepted_but_unbound :
    Registered asciiWord positionalRoute ∧
      convertParams positionalRoute.method positionalRoute.path positionalRoute.parameterSpecs =
        .ok [(['i', 'd'], .int)] ∧
      buildKwargs (F := ℚ) (fun _ => none) [(['i', 'd'], .int)] [(['i', 'd'], ['4', '2'])] =
        .ok [(['i', 'd'], .int 42)] ∧
      positionalRoute.handler.signature = .ok [⟨['i', 'd'], .positionalOnly, false⟩] ∧
      bindCall (F := ℚ) [⟨['i', 'd'], .positionalOnly, false⟩] [(['i', 'd'], .int 42)] =
        .error (.unexpectedKeyword ['i', 'd']) ∧
      ¬ BindsSegments (F := ℚ) (fun _ => none) [(['i', 'd'], .int)] [(['i', 'd'], ['4', '2'])]
        [⟨['i', 'd'], .positionalOnly, false⟩] [(['i', 'd'], .int 42)] := by
  refine ⟨rfl, rfl, rfl, rfl, rfl, ?_⟩
  rintro ⟨bound, hbound, -⟩
  cases hbound

end Rayo
