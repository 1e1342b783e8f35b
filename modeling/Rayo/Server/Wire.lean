import Rayo.Routing.KwargsOutcome
import Rayo.Server.ResponseMeaning

/-!
# What goes over the wire

The forms of the responses that clients receive, whatever the handlers do.
-/

namespace Rayo.Site

open Asyncio HandlerTask

variable {m : Matchit} {F Point : Type} {n : ℕ} {app : Application m F Point}
  {values : Fin n → FutureId → Value} {s : Site Point n} {r : TaskId}

/-- The forms of a response. -/
inductive OnWire : Response → Prop
  | notFound : OnWire (plainResponse 404 "Not Found")
  | internalServerError : OnWire internalServerError
  | noContent : OnWire ⟨204, some "text/plain; charset=utf-8", []⟩
  | text (bodyText : List Char) :
    OnWire ⟨200, some "text/plain; charset=utf-8", Utf8.encode bodyText⟩
  | json {body : List UInt8} {v : Json.Value} : Json.parse body = some v →
    OnWire ⟨200, some "application/json", body⟩
  | invalid {body : List UInt8} {message : List Char} :
    Json.parse body = some (.object [("detail".toList, .string message)]) →
    OnWire ⟨422, some "application/json", body⟩

/-- A status of three digits and the content types of the code are sent as they are. -/
theorem responseFromHandler_eq {sent : HandlerResponse}
    (hstatus : 100 ≤ sent.status ∧ sent.status < 1000)
    (hcontent : sent.contentType = "text/plain; charset=utf-8" ∨
      sent.contentType = "application/json") :
    responseFromHandler sent = ⟨sent.status, some sent.contentType, sent.body⟩ := by
  have hheader : headerValueFromStr sent.contentType = some sent.contentType := by
    rcases hcontent with h | h <;> rw [h] <;> decide
  simp [responseFromHandler, statusCodeFromU16, hstatus, hheader]

/-- The opaque 500 is on the wire. -/
theorem onWire_internalError : OnWire (responseFromHandler .internalError) := by
  rw [responseFromHandler_internalError]
  exact .internalServerError

/-- The errors of `build_kwargs`. -/
theorem error_of_buildKwargsFrom {matchedParams : List (List Char × List Char)}
    {params : List (List Char × ParamKind)} {parseF64 : List Char → Option F} {kwargs : Kwargs F}
    {errorResponse : HandlerResponse}
    (h : buildKwargsFrom parseF64 matchedParams kwargs params = .error errorResponse) :
    errorResponse = .internalError ∨ ∃ paramName expected rawValue,
      errorResponse = validationErrorResponse paramName expected rawValue := by
  induction params generalizing kwargs with
  | nil => simp [buildKwargsFrom] at h
  | cons param params ih =>
    obtain ⟨paramName, paramKind⟩ := param
    simp only [buildKwargsFrom] at h
    cases hfound : findParam paramName matchedParams with
    | none =>
      rw [hfound] at h
      exact .inl (Except.error.inj h).symm
    | some matched =>
      cases hvalue : convert parseF64 paramKind matched.2 with
      | none =>
        simp only [hfound, convertAndInsert, hvalue, bind, Except.bind, Except.error.injEq] at h
        exact .inr ⟨_, _, _, h.symm⟩
      | some value =>
        simp only [hfound, convertAndInsert, hvalue, bind, Except.bind] at h
        exact ih h

/-- A handler that returns a value is answered with it, or with the 500 where it cannot be
written. -/
theorem onWire_returnValue {ops : FloatOps F} {value : F → ℚ} (hdisplay : PrintsDecimals ops value)
    (v : PyValue F) : OnWire (responseFromHandler (responseFromReturnValue ops v)) := by
  have hjson
      (hwritten : ∀ body, writeJson ops v [] = (body, none) → responseFromReturnValue ops v =
        { status := 200, contentType := "application/json", body := body })
      (hfailed : ∀ body e, writeJson ops v [] = (body, some e) →
        responseFromReturnValue ops v = .internalError) :
      OnWire (responseFromHandler (responseFromReturnValue ops v)) := by
    have hrenders := renders_writeJson hdisplay v
    cases hdenote : denote ops value v with
    | none =>
      rw [hdenote] at hrenders
      obtain ⟨written, e, hfails⟩ := hrenders []
      rw [hfailed _ e hfails]
      exact onWire_internalError
    | some json =>
      rw [hdenote] at hrenders
      obtain ⟨text, hwrites, hreads⟩ := hrenders
      rw [hwritten _ (hwrites []), responseFromHandler_eq (by simp) (.inr rfl)]
      exact .json (v := json) (by simp [Json.parse, hreads.parseText_eq])
  cases v with
  | none =>
    simp only [responseFromReturnValue, HandlerResponse.noContent]
    rw [responseFromHandler_eq (by simp) (.inl rfl)]
    exact .noContent
  | str text =>
    cases htext : toStr text with
    | none =>
      simp only [responseFromReturnValue, htext, reportHandlerError]
      exact onWire_internalError
    | some bodyText =>
      simp only [responseFromReturnValue, htext]
      rw [responseFromHandler_eq (by simp) (.inl rfl)]
      exact .text bodyText
  | bool | int | float | dict | list | tuple | other =>
    exact hjson (fun body h => by simp only [responseFromReturnValue, h])
      fun body e h => by simp only [responseFromReturnValue, h, reportHandlerError]

/-- The 422 of a parameter. -/
theorem onWire_validationError (paramName : List Char) (expected : ParamKind)
    (rawValue : List Char) :
    OnWire (responseFromHandler (validationErrorResponse paramName expected rawValue)) := by
  have hstatus : (validationErrorResponse paramName expected rawValue).status = 422 := rfl
  have hcontent : (validationErrorResponse paramName expected rawValue).contentType =
      "application/json" := rfl
  rw [responseFromHandler_eq (by simp [hstatus]) (.inr hcontent), hstatus, hcontent]
  exact .invalid (parse_validationErrorResponse paramName expected rawValue)

/-- A task sends the response to what its handler returned, or the 500. -/
theorem onWire_completion {value : F → ℚ} (hdisplay : PrintsDecimals app.ops value)
    (c : CompletionKind) : OnWire (responseFromHandler (c.response (respondTo app))) := by
  cases c with
  | returned v => exact onWire_returnValue hdisplay _
  | raised | cancelled | aborted => exact onWire_internalError

/-- What `handle` answers with is an error of the arguments. -/
theorem onWire_respond {errorResponse : HandlerResponse}
    (hdispatch : dispatch app r = .respond errorResponse) :
    OnWire (responseFromHandler errorResponse) := by
  have hbuilt : ∃ params matchedParams,
      buildKwargs app.parseF64 params matchedParams = .error errorResponse := by
    unfold dispatch AppService.handle at hdispatch
    split at hdispatch
    · simp at hdispatch
    · next routeMatch _ =>
      split at hdispatch
      · simp at hdispatch
      · next route _ =>
        refine ⟨route.params, routeMatch.pathParams, ?_⟩
        rw [syncKwargs_eq] at hdispatch
        cases hkwargs : buildKwargs app.parseF64 route.params routeMatch.pathParams with
        | ok kwargs => cases hasync : route.isAsync <;> simp [hkwargs, hasync] at hdispatch
        | error e =>
          cases hasync : route.isAsync <;> simpa [hkwargs, hasync] using hdispatch
  obtain ⟨params, matchedParams, herror⟩ := hbuilt
  rcases error_of_buildKwargsFrom herror with rfl | ⟨paramName, expected, rawValue, rfl⟩
  · exact onWire_internalError
  · exact onWire_validationError paramName expected rawValue

/-- A response that does not come from a loop is on the wire. -/
theorem onWire_direct {value : F → ℚ} (hdisplay : PrintsDecimals app.ops value) {faulty : Prop}
    {outcome : Option (Except Asyncio.Exception Value)} {response : Response}
    (h : Direct app faulty outcome r response) : OnWire response := by
  cases h with
  | notFound => exact .notFound
  | failed => exact .internalServerError
  | invalid hdispatch => exact onWire_respond hdispatch
  | @sync o =>
    cases o with
    | ok returnValue => exact onWire_returnValue hdisplay _
    | error e => exact onWire_internalError

section

variable {isWord : Char → Bool}

/-- A request of a service that was built from registered routes does not panic. -/
theorem dispatch_ne_panicked (hm : m.FollowsTemplates) {specs : List RouteSpec}
    (hspecs : ∀ spec ∈ specs, Registered isWord spec)
    (hservice : buildService m specs = .ok app.service) : dispatch app r ≠ .panicked := by
  unfold dispatch AppService.handle
  split
  · simp
  · next routeMatch hlookup =>
    obtain ⟨route, -, hroute, -⟩ := lookup_eq_some hm hspecs hservice hlookup
    rw [hroute]
    dsimp only
    split <;> split <;> simp

/-- **What goes over the wire.** A server that was started with registered routes never panics on
a request, and whatever its handlers do and however they are interrupted, every response that a
client receives is the 404, the opaque 500, an empty 204, the text of a 200, one JSON text with a
200, or a 422 with a JSON object that holds its `detail`. -/
theorem responses_on_wire (hm : m.FollowsTemplates) {specs : List RouteSpec} {value : F → ℚ}
    (hspecs : ∀ spec ∈ specs, Registered isWord spec)
    (hservice : buildService m specs = .ok app.service) (hdisplay : PrintsDecimals app.ops value)
    (hreach : (system app values).Reaches s) :
    (∀ r, dispatch app r ≠ .panicked) ∧
      ∀ r response, s.exchanges r = .answered response → OnWire response := by
  refine ⟨fun r => dispatch_ne_panicked hm hspecs hservice, fun r response hanswered => ?_⟩
  have hsound : Sound app (fun _ => True) s := .of_reachesUnder hreach fun _ _ _ _ _ => trivial
  rcases hsound.answered r response hanswered with hdirect | ⟨i, sent, htask, hschedules, hmem, rfl⟩
  · exact onWire_direct hdisplay hdirect
  · have hmeans := means_of_sent hreach htask hschedules hmem
    generalize responseFromHandler sent = response at hmeans
    cases hmeans with
    | direct hdirect => exact onWire_direct hdisplay hdirect
    | async => exact onWire_completion hdisplay _
    | cancelled => exact .internalServerError

end

/-- Every response of the item's server is on the wire. -/
theorem responses_on_wire_itemServed : ∃ s : Site ℕ 1, (∃ response,
    s.exchanges 0 = .answered response) ∧
      ∀ r response, s.exchanges r = .answered response → OnWire response := by
  obtain ⟨s, hserved⟩ := exists_itemServed
  obtain ⟨hexec, hanswered⟩ := hserved.respond
  have hregistered : ∀ spec ∈ [itemRoute ['/', '{', 'i', 'd', '}']],
      Registered asciiWord spec := by
    intro spec hspec
    obtain rfl := List.mem_singleton.mp hspec
    rfl
  have hdisplay : PrintsDecimals wholeFloats fun x => ((x.getD 0 : ℤ) : ℚ) := fun x _ =>
    ⟨.ofInt (x.getD 0), (Json.Decimal.text_ofInt _).symm, Json.Decimal.value_ofInt _⟩
  have hreach := Transition.System.Reaches.exec (.init idleSite_fresh) hexec
  exact ⟨_, ⟨_, hanswered⟩,
    (responses_on_wire templateList_followsTemplates hregistered rfl hdisplay hreach).2⟩

end Rayo.Site
