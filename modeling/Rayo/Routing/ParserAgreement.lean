import Mathlib.Data.Rat.Init
import Rayo.Routing.Service

/-!
# The two parsers of a route path

A route path is read by a regular expression when it is registered and as a template by the
router. Every request trusts that both find the same names. They do unless a name is not a
word or repeats, or a catch-all or a word between doubled braces stands alone.
-/

namespace Rayo

open Template (Piece Token WellFormed names spell text)

/-- The names of single segments. -/
def segmentNames : List Piece → List (List Char)
  | [] => []
  | .param name :: pieces => spell name :: segmentNames pieces
  | _ :: pieces => segmentNames pieces

/-- The name of the catch-all, if there is one. -/
def catchAllNames : List Piece → List (List Char)
  | [] => []
  | .catchAll name :: pieces => spell name :: catchAllNames pieces
  | _ :: pieces => catchAllNames pieces

variable (isWord : Char → Bool)

/-- The words that stand between doubled braces. -/
def escapedWords : List Piece → List (List Char)
  | [] => []
  | .literal .escapedOpening :: pieces =>
    (wordBeforeBrace isWord (text pieces)).toList ++ escapedWords pieces
  | _ :: pieces => escapedWords pieces

/-- What the regular expression finds, when every name is a word. -/
def foundNames : List Piece → List (List Char)
  | [] => []
  | .literal .escapedOpening :: pieces =>
    (wordBeforeBrace isWord (text pieces)).toList ++ foundNames pieces
  | .param name :: pieces => spell name :: foundNames pieces
  | _ :: pieces => foundNames pieces

/-- Words between doubled braces stand behind the last segment that has a name. -/
def EscapedLast (pieces : List Piece) : Prop :=
  ∀ before after, pieces = before ++ .literal .escapedOpening :: after →
    wordBeforeBrace isWord (text after) ≠ none → segmentNames after = []

variable {isWord}

/-- A catch-all comes last. -/
theorem names_eq_append {pieces : List Piece} (hwell : WellFormed pieces) :
    names pieces = segmentNames pieces ++ catchAllNames pieces := by
  induction hwell with
  | nil => rfl
  | plain _ _ ih => exact ih
  | escapedOpening _ ih => exact ih
  | escapedClosing _ ih => exact ih
  | param _ _ ih => simp [names, segmentNames, catchAllNames, ih]
  | catchAll => rfl

/-- There is at most one catch-all. -/
theorem catchAllNames_length {pieces : List Piece} (hwell : WellFormed pieces) :
    (catchAllNames pieces).length ≤ 1 := by
  induction hwell with
  | nil => simp [catchAllNames]
  | plain _ _ ih => exact ih
  | escapedOpening _ ih => exact ih
  | escapedClosing _ ih => exact ih
  | param _ _ ih => exact ih
  | catchAll => simp [catchAllNames]

/-- Each name that is found is the name of a segment or a word between doubled braces. -/
theorem foundNames_length (pieces : List Piece) :
    (foundNames isWord pieces).length =
      (segmentNames pieces).length + (escapedWords isWord pieces).length := by
  fun_induction foundNames isWord pieces <;>
    simp_all [segmentNames, escapedWords] <;> omega

/-- One piece more in front. -/
theorem escapedLast_cons {piece : Piece} {pieces : List Piece} :
    EscapedLast isWord (piece :: pieces) ↔
      (piece = .literal .escapedOpening → wordBeforeBrace isWord (text pieces) ≠ none →
        segmentNames pieces = []) ∧ EscapedLast isWord pieces := by
  constructor
  · intro h
    exact ⟨fun hpiece => h [] pieces (by rw [hpiece, List.nil_append]),
      fun before after hsplit => h (piece :: before) after (by rw [hsplit, List.cons_append])⟩
  · rintro ⟨hfirst, hrest⟩ before after hsplit
    cases before with
    | nil =>
      obtain ⟨hpiece, rfl⟩ := List.cons.inj hsplit
      exact hfirst hpiece
    | cons first before => exact hrest before after (List.cons.inj hsplit).2

/-- Behind the segments, the words between doubled braces come last. -/
theorem foundNames_eq_append {pieces : List Piece} (hlast : EscapedLast isWord pieces) :
    foundNames isWord pieces = segmentNames pieces ++ escapedWords isWord pieces := by
  fun_induction foundNames isWord pieces with
  | case1 => rfl
  | case2 pieces ih =>
    obtain ⟨hfirst, hrest⟩ := escapedLast_cons.mp hlast
    rw [ih hrest, segmentNames.eq_3 _ _ (by simp), escapedWords]
    cases hmatch : wordBeforeBrace isWord (text pieces) with
    | none => rfl
    | some word => simp [hfirst rfl (by simp [hmatch])]
  | case3 name pieces ih =>
    obtain ⟨-, hrest⟩ := escapedLast_cons.mp hlast
    simp [ih hrest, segmentNames, escapedWords]
  | case4 piece pieces hescaped hparam ih =>
    obtain ⟨-, hrest⟩ := escapedLast_cons.mp hlast
    rw [ih hrest, segmentNames.eq_3 _ _ hparam, escapedWords.eq_3 _ _ _ hescaped]

/-- Without words between doubled braces there is none that comes early. -/
theorem escapedLast_of_nil {pieces : List Piece} (h : escapedWords isWord pieces = []) :
    EscapedLast isWord pieces := by
  fun_induction escapedWords isWord pieces with
  | case1 => exact fun before after hsplit => by simp at hsplit
  | case2 pieces ih =>
    obtain ⟨hmatch, hrest⟩ := List.append_eq_nil_iff.mp h
    exact escapedLast_cons.mpr
      ⟨fun _ hfound => absurd (Option.toList_eq_nil_iff.mp hmatch) hfound, ih hrest⟩
  | case3 piece pieces hescaped ih =>
    exact escapedLast_cons.mpr ⟨fun hpiece => absurd hpiece hescaped, ih h⟩

/-- A list without repetitions is no shift of itself. -/
theorem eq_nil_of_cons_eq_append {word last : List Char} {words : List (List Char)}
    (heq : word :: words = words ++ [last]) (hnodup : (words ++ [last]).Nodup) : words = [] := by
  cases words with
  | nil => rfl
  | cons first words =>
    have htail : first :: words = words ++ [last] := (List.cons.inj heq).2
    have hmem : first ∈ words ++ [last] := htail ▸ List.mem_cons_self
    exact absurd hmem (List.nodup_cons.mp hnodup).1

/-- With names that do not repeat, the regular expression finds the names of the template if
and only if the words between doubled braces make up for the catch-all. -/
theorem foundNames_eq_names_iff {pieces : List Piece} (hwell : WellFormed pieces)
    (hnodup : (names pieces).Nodup) :
    foundNames isWord pieces = names pieces ↔
      escapedWords isWord pieces = catchAllNames pieces ∧ EscapedLast isWord pieces := by
  constructor
  · intro heq
    induction hwell with
    | nil => exact ⟨rfl, escapedLast_of_nil rfl⟩
    | plain _ _ ih =>
      obtain ⟨hescaped, hlast⟩ := ih hnodup heq
      exact ⟨hescaped, escapedLast_cons.mpr ⟨by simp, hlast⟩⟩
    | escapedClosing _ ih =>
      obtain ⟨hescaped, hlast⟩ := ih hnodup heq
      exact ⟨hescaped, escapedLast_cons.mpr ⟨by simp, hlast⟩⟩
    | param _ _ ih =>
      obtain ⟨hescaped, hlast⟩ := ih (List.nodup_cons.mp hnodup).2 (List.cons.inj heq).2
      exact ⟨hescaped, escapedLast_cons.mpr ⟨by simp, hlast⟩⟩
    | catchAll => simp [foundNames, names] at heq
    | @escapedOpening pieces hwell ih =>
      cases hmatch : wordBeforeBrace isWord (text pieces) with
      | none =>
        simp only [foundNames, hmatch, Option.toList_none, List.nil_append] at heq
        obtain ⟨hescaped, hlast⟩ := ih hnodup heq
        exact ⟨by simpa [escapedWords, hmatch, catchAllNames] using hescaped,
          escapedLast_cons.mpr ⟨fun _ h => absurd hmatch h, hlast⟩⟩
      | some word =>
        -- one more name is found than there are segments, so the catch-all is the only other one
        simp only [foundNames, hmatch, Option.toList_some, List.cons_append, List.nil_append] at heq
        change word :: foundNames isWord pieces = names pieces at heq
        change (names pieces).Nodup at hnodup
        have hlength := congrArg List.length heq
        have hone := catchAllNames_length hwell
        rw [names_eq_append hwell, List.length_cons, List.length_append,
          foundNames_length] at hlength
        have hnone : escapedWords isWord pieces = [] := List.eq_nil_of_length_eq_zero (by omega)
        obtain ⟨last, hcatchAll⟩ : ∃ last, catchAllNames pieces = [last] :=
          List.length_eq_one_iff.mp (by omega)
        have hlast := escapedLast_of_nil hnone
        rw [foundNames_eq_append hlast, hnone, List.append_nil, names_eq_append hwell,
          hcatchAll] at heq
        rw [names_eq_append hwell, hcatchAll] at hnodup
        have hsegments := eq_nil_of_cons_eq_append heq hnodup
        rw [hsegments] at heq
        refine ⟨?_, escapedLast_cons.mpr ⟨fun _ _ => hsegments, hlast⟩⟩
        simpa [escapedWords, hmatch, hnone, catchAllNames, hcatchAll] using heq
  · rintro ⟨hescaped, hlast⟩
    rw [foundNames_eq_append hlast, hescaped, names_eq_append hwell]

/-- A word in braces is spelled without doubled braces. -/
theorem flatMap_text_eq_spell (hword : WordClass isWord) {name : List Token}
    (hchars : ∀ c ∈ spell name, isWord c = true) : name.flatMap Token.text = spell name := by
  induction name with
  | nil => rfl
  | cons token name ih =>
    have hrest := ih fun c hc => hchars c (.tail _ hc)
    have htoken := hchars token.char (.head _)
    cases token with
    | plain c => simp [hrest, Token.text, spell, Token.char]
    | _ => simp [Token.char, hword.opening, hword.closing] at htoken

/-- No name begins with a character that is not a word character. -/
theorem wordBeforeBrace_cons {c : Char} (hc : isWord c = false) (rest : List Char) :
    wordBeforeBrace isWord (c :: rest) = none := by
  simp [wordBeforeBrace, hc]

/-- The scan of the text of a template. -/
theorem findall_text (hword : WordClass isWord) {pieces : List Piece} (hwell : WellFormed pieces)
    (hnames : ∀ name ∈ names pieces, ∀ c ∈ name, isWord c = true) :
    findall isWord (text pieces) = foundNames isWord pieces := by
  induction hwell with
  | nil => rfl
  | @plain c pieces hc _ ih =>
    have hskip : findall isWord ([c] ++ text pieces) = findall isWord (text pieces) :=
      findall_append (by simpa using hc.1.symm) (text pieces)
    exact hskip.trans (ih hnames)
  | @escapedOpening pieces _ ih =>
    have htext : text (.literal .escapedOpening :: pieces) = '{' :: '{' :: text pieces := rfl
    rw [htext, findall_opening hword, findall_opening hword,
      wordBeforeBrace_cons hword.opening, foundNames, ih hnames]
    rfl
  | @escapedClosing pieces _ ih =>
    have hskip : findall isWord (['}', '}'] ++ text pieces) = findall isWord (text pieces) :=
      findall_append (by simp) (text pieces)
    exact hskip.trans (ih hnames)
  | @param name pieces hname _ ih =>
    obtain ⟨hchars, hrest⟩ := List.forall_mem_cons.mp hnames
    have htext : text (.param name :: pieces) = '{' :: (spell name ++ '}' :: text pieces) := by
      simp [text, Piece.tokens, flatMap_text_eq_spell hword hchars, Token.text]
    have hskipped : '{' ∉ spell name ++ ['}'] := fun hc => by
      rcases List.mem_append.mp hc with hc | hc
      · simpa [hword.opening] using hchars _ hc
      · simp at hc
    have hskip : findall isWord (spell name ++ '}' :: text pieces) =
        findall isWord (text pieces) := by
      simpa using findall_append hskipped (text pieces)
    rw [htext, findall_opening hword, hskip, ih hrest,
      wordBeforeBrace_append hword (by simpa [spell] using hname) hchars, foundNames]
    rfl
  | @catchAll name hname =>
    have hchars := hnames (spell name) (.head _)
    have htext : text [.catchAll name] = '{' :: '*' :: (spell name ++ ['}']) := by
      simp [text, Piece.tokens, flatMap_text_eq_spell hword hchars, Token.text]
    have hskipped : '{' ∉ '*' :: (spell name ++ ['}']) := fun hc => by
      rcases List.mem_append.mp (List.mem_of_ne_of_mem (by decide) hc) with hc | hc
      · simpa [hword.opening] using hchars _ hc
      · simp at hc
    have hskip : findall isWord ('*' :: (spell name ++ ['}'])) = findall isWord [] := by
      simpa using findall_append hskipped []
    rw [htext, findall_opening hword, hskip, wordBeforeBrace_cons hword.star]
    rfl

/-- When the two parsers of a path agree: every name is a word, none repeats, and there is
either no catch-all and no word between doubled braces, or one such word, which is the name of
the catch-all and stands behind the last segment that has a name. -/
structure Unambiguous (isWord : Char → Bool) (pieces : List Piece) : Prop where
  words : ∀ name ∈ names pieces, ∀ c ∈ name, isWord c = true
  nodup : (names pieces).Nodup
  escaped : escapedWords isWord pieces = catchAllNames pieces
  last : EscapedLast isWord pieces

/-- The regular expression finds the names of the template, without repetition, if and only if
the template is unambiguous. -/
theorem findall_eq_names_iff (hword : WordClass isWord) {path : List Char} {pieces : List Piece}
    (hread : Template.read path = some pieces) :
    findall isWord path = names pieces ∧ (findall isWord path).Nodup ↔
      Unambiguous isWord pieces := by
  obtain ⟨hwell, rfl⟩ := Template.read_spec hread
  constructor
  · rintro ⟨hfound, hnodup⟩
    have hwords : ∀ name ∈ names pieces, ∀ c ∈ name, isWord c = true := fun name hname =>
      isWord_of_mem_findall hword (hfound ▸ hname)
    rw [hfound] at hnodup
    rw [findall_text hword hwell hwords] at hfound
    obtain ⟨hescaped, hlast⟩ := (foundNames_eq_names_iff hwell hnodup).mp hfound
    exact ⟨hwords, hnodup, hescaped, hlast⟩
  · rintro ⟨hwords, hnodup, hescaped, hlast⟩
    have hfound := (foundNames_eq_names_iff hwell hnodup).mpr ⟨hescaped, hlast⟩
    rw [findall_text hword hwell hwords, hfound]
    exact ⟨rfl, hnodup⟩

variable {F : Type} {parseF64 : List Char → Option F} {m : Matchit}

/-- What the route of a request promises: the regular expression found the captured names,
without repetition; no parameter is lost; and every captured segment reaches the handler, of
either kind, converted and under its own name. -/
structure Delivered (isWord : Char → Bool) (parseF64 : List Char → Option F) (route : RouteEntry)
    (pathParams : List (List Char × List Char)) (dispatch : Dispatch F) : Prop where
  names_eq : findall isWord route.path = pathParams.map Prod.fst
  nodup : (findall isWord route.path).Nodup
  not_lost : dispatch ≠ .respond .internalError
  arrives : ∀ kwargs, dispatch = .schedule route.handler kwargs ∨
      dispatch = .executeSyncHandler route.handler kwargs →
    kwargs.map Prod.fst = pathParams.map Prod.fst ∧
      ∀ name rawValue, (name, rawValue) ∈ pathParams → ∃ kind value,
        (name, kind) ∈ route.params ∧ convert parseF64 kind rawValue = some value ∧
          (name, value) ∈ kwargs

/-- A request delivers what it captured when the regular expression found the same names. -/
theorem delivered_of_names_eq {service : AppService m} {method : String} {path : List Char}
    {routeMatch : RouteMatch} {route : RouteEntry}
    (hlookup : service.router.lookup method path = some routeMatch)
    (hroute : service.routes[routeMatch.handlerId]? = some route)
    (hparams : route.params.map Prod.fst = findall isWord route.path)
    (hnames : findall isWord route.path = routeMatch.pathParams.map Prod.fst)
    (hnodup : (findall isWord route.path).Nodup) :
    Delivered isWord parseF64 route routeMatch.pathParams
      (service.handle parseF64 method path) := by
  have hcaptured := hparams.trans hnames
  have hnotLost : buildKwargs parseF64 route.params routeMatch.pathParams ≠
      .error .internalError :=
    buildKwargsFrom_ne_internalError
      (fun param hparam => hcaptured ▸ List.mem_map_of_mem hparam) _
  have hhandle := service.handle_eq parseF64 hlookup hroute
  cases hbuilt : buildKwargs parseF64 route.params routeMatch.pathParams with
  | error errorResponse =>
    rw [hbuilt] at hhandle hnotLost
    refine ⟨hnames, hnodup, fun hlost => ?_, fun kwargs hdispatch => ?_⟩
    · rw [hhandle] at hlost
      exact hnotLost (congrArg Except.error (Dispatch.respond.inj hlost))
    · simp [hhandle] at hdispatch
  | ok built =>
    have harrives := arguments_of_buildKwargs hcaptured (hnames ▸ hnodup) hbuilt
    rw [hbuilt] at hhandle
    refine ⟨hnames, hnodup, fun hlost => ?_, fun kwargs hdispatch => ?_⟩
    · cases hasync : route.isAsync <;> simp [hhandle, hasync] at hlost
    · obtain rfl : built = kwargs := by
        cases hasync : route.isAsync <;> simpa [hhandle, hasync] using hdispatch
      exact harrives

/-- **Agreement of the two parsers.** Every matched request of a started service belongs to a
registered route. The regular expression found exactly the captured names, without repetition,
so that no parameter is lost and every captured segment reaches the handler, if and only if
the template of the route is unambiguous. -/
theorem delivered_iff_unambiguous (hword : WordClass isWord) (hm : m.FollowsTemplates)
    {specs : List RouteSpec} (hspecs : ∀ spec ∈ specs, Registered isWord spec)
    {service : AppService m} (hservice : buildService m specs = .ok service) {method : String}
    {path : List Char} {routeMatch : RouteMatch}
    (hlookup : service.router.lookup method path = some routeMatch) :
    ∃ route pieces, service.routes[routeMatch.handlerId]? = some route ∧
      Template.read route.path = some pieces ∧
      (Delivered isWord parseF64 route routeMatch.pathParams
          (service.handle parseF64 method path) ↔ Unambiguous isWord pieces) := by
  obtain ⟨route, pieces, hroute, hparams, hread, hmatches⟩ :=
    lookup_eq_some hm hspecs hservice hlookup
  have hcaptured := hmatches.map_fst
  refine ⟨route, pieces, hroute, hread, fun hdelivered => ?_, fun hunambiguous => ?_⟩
  · exact (findall_eq_names_iff hword hread).mp
      ⟨hdelivered.names_eq.trans hcaptured, hdelivered.nodup⟩
  · obtain ⟨hnames, hnodup⟩ := (findall_eq_names_iff hword hread).mpr hunambiguous
    exact delivered_of_names_eq hlookup hroute hparams (hnames.trans hcaptured.symm) hnodup

/-- A router that tries one template after the other. -/
def templateList : Matchit where
  Tree := List (List Char × ℕ)
  new := []
  insert tree path value :=
    if (Template.read path).isSome then .ok ((path, value) :: tree)
    else .error "invalid template"
  atPath tree path := tree.findSome? fun (template, value) =>
    ((Template.read template).bind (Template.walk · path)).map ((value, ·))

/-- The tree of the sample router are its routes. -/
theorem built_templateList {tree : templateList.Tree} {routes : List (List Char × ℕ)}
    (hbuilt : Built templateList tree routes) : tree = routes := by
  induction hbuilt with
  | new => rfl
  | @insert tree tree' routes template value _ hinsert ih =>
    subst ih
    simp only [templateList] at hinsert
    split at hinsert
    · exact (Except.ok.inj hinsert).symm
    · simp at hinsert

/-- The sample router follows the templates. -/
theorem templateList_followsTemplates : templateList.FollowsTemplates := by
  intro tree routes hbuilt path value params hat
  obtain rfl := built_templateList hbuilt
  obtain ⟨⟨template, value'⟩, hmem, hfound⟩ := List.exists_of_findSome?_eq_some hat
  simp only [Option.map_eq_some_iff, Option.bind_eq_some_iff, Prod.mk.injEq] at hfound
  obtain ⟨_, ⟨pieces, hread, hwalk⟩, rfl, rfl⟩ := hfound
  exact ⟨template, pieces, hmem, hread, Template.matches_of_walk hwalk⟩

/-- ASCII letters and digits and the underscore. -/
def asciiWord (c : Char) : Bool := c.isAlphanum || c = '_'

/-- The word characters of the sample are as assumed. -/
theorem asciiWord_wordClass : WordClass asciiWord := ⟨rfl, rfl, rfl⟩

/-- A coroutine function with the argument `id`. -/
def showItem : Handler where
  location := "show_item (app.py:1)"
  signature := .ok [⟨['i', 'd'], .positionalOrKeyword, false⟩]
  typeHints := .ok [(['i', 'd'], .int)]
  isCoroutineFunction := true

/-- Its route under a path with `id` in braces. -/
def itemRoute (path : List Char) : RouteSpec where
  method := "GET"
  path := path
  handler := showItem
  isAsync := true
  parameterSpecs := [(['i', 'd'], 1)]

/-- The service with this route. -/
def itemService (path : List Char) : AppService templateList where
  router := Function.update (fun _ => none) "GET" (some [(path, 0)])
  routes := [.ofSpec (itemRoute path) [(['i', 'd'], .int)]]

/-- The value of `/{id}` is delivered exactly if its template is unambiguous. -/
theorem delivered_iff_unambiguous_item :
    ∃ route pieces, (itemService ['/', '{', 'i', 'd', '}']).routes[0]? = some route ∧
      Template.read route.path = some pieces ∧
      (Delivered asciiWord (fun _ => (none : Option ℚ)) route [(['i', 'd'], ['4', '2'])]
        ((itemService ['/', '{', 'i', 'd', '}']).handle (fun _ => none) "GET" ['/', '4', '2']) ↔
          Unambiguous asciiWord pieces) := by
  have hregistered : ∀ spec ∈ [itemRoute ['/', '{', 'i', 'd', '}']],
      Registered asciiWord spec := by
    intro spec hspec
    obtain rfl := List.mem_singleton.mp hspec
    rfl
  have hservice : buildService templateList [itemRoute ['/', '{', 'i', 'd', '}']] =
      .ok (itemService ['/', '{', 'i', 'd', '}']) := rfl
  have hlookup : (itemService ['/', '{', 'i', 'd', '}']).router.lookup "GET" ['/', '4', '2'] =
      some { handlerId := 0, pathParams := [(['i', 'd'], ['4', '2'])] } := rfl
  exact delivered_iff_unambiguous asciiWord_wordClass templateList_followsTemplates hregistered
    hservice hlookup

/-- Under `/{{id}}` the regular expression finds a name that the router never captures. The
request `/{id}` matches and is answered with the opaque 500. -/
theorem doubled_braces_lose_parameter :
    let path := ['/', '{', '{', 'i', 'd', '}', '}']
    let dispatch := (itemService path).handle (fun _ => (none : Option ℚ)) "GET"
      ['/', '{', 'i', 'd', '}']
    Registered asciiWord (itemRoute path) ∧
      buildService templateList [itemRoute path] = .ok (itemService path) ∧
      (itemService path).router.lookup "GET" ['/', '{', 'i', 'd', '}'] =
        some { handlerId := 0, pathParams := [] } ∧
      findall asciiWord path = [['i', 'd']] ∧ dispatch = .respond .internalError ∧
      ¬ Delivered asciiWord (fun _ => none) (.ofSpec (itemRoute path) [(['i', 'd'], .int)]) []
        dispatch :=
  ⟨rfl, rfl, rfl, rfl, rfl, fun h => h.not_lost rfl⟩

end Rayo
