import Rayo.Routing.Service
import Rayo.Routing.SyncRoute
import Rayo.Task.HandlerOutcome

/-!
# Serving requests over HTTP

From the request that Hyper hands to the service to the response that its future resolves to. The
router sends a request away, answers it, gives it to a thread or schedules a task for it on one of
the loops of the pool. All requests, threads and loops run at the same time, clients come and go,
and loops may be stopped under them.
-/

namespace Rayo

open Asyncio HandlerTask Coroutine

/-- `Response<ResponseBody>`, as far as the code sets it. -/
structure Response where
  status : ℕ
  /-- The content-type header. -/
  contentType : Option String
  body : List UInt8
  deriving DecidableEq

/-- `plain_response`. -/
def plainResponse (status : ℕ) (body : String) : Response where
  status := status
  contentType := some "text/plain; charset=utf-8"
  body := Utf8.encode body.toList

/-- `StatusCode::from_u16`. -/
def statusCodeFromU16 (status : ℕ) : Option ℕ :=
  if 100 ≤ status ∧ status < 1000 then some status else none

/-- `HeaderValue::from_str`, which takes visible ASCII, spaces and tabs. -/
def headerValueFromStr (text : String) : Option String :=
  if text.toList.all fun c => c = '\t' ∨ (0x20 ≤ c.toNat ∧ c.toNat < 0x7f) then some text else none

/-- `response_from_handler`. -/
def responseFromHandler (handlerResponse : HandlerResponse) : Response where
  status := (statusCodeFromU16 handlerResponse.status).getD 500
  contentType := headerValueFromStr handlerResponse.contentType
  body := handlerResponse.body

/-- The opaque 500. -/
def internalServerError : Response := plainResponse 500 "Internal Server Error"

/-- A handler's own error and a request without a response look alike. -/
theorem responseFromHandler_internalError :
    responseFromHandler .internalError = internalServerError := by
  decide

/-- A request, as far as it is read. -/
structure HttpRequest where
  method : String
  path : List Char

/-- A service, its handlers and the requests that it will receive. Each request is known by the
task that is made for it if it is scheduled. -/
structure Application (m : Matchit) (F Point : Type) where
  service : AppService m
  parseF64 : List Char → Option F
  ops : FloatOps F
  /-- The objects that Python code refers to. -/
  object : Value → PyValue F
  /-- The code of the async handlers, and where a call of one starts. -/
  code : HandlerCode Point
  call : Handler → Kwargs F → Except Asyncio.Exception Point
  request : TaskId → HttpRequest

/-- Where the response of a request is. -/
inductive Exchange (n : ℕ)
  /-- The service has not received the request. -/
  | unreceived
  /-- The response future has its response. -/
  | ready (response : Response)
  /-- It awaits the response of a task on this loop. -/
  | dispatched (i : Fin n)
  /-- It awaits the response of a thread. -/
  | blocking
  /-- The client has the response. -/
  | answered (response : Response)
  /-- The future was dropped. -/
  | dropped

/-- The loop whose response is awaited. -/
def Exchange.loop {n : ℕ} : Exchange n → Option (Fin n)
  | .dispatched i => some i
  | .unreceived | .ready _ | .blocking | .answered _ | .dropped => none

/-- An exchange with a loop has been dispatched there. -/
theorem Exchange.eq_dispatched {n : ℕ} {exchange : Exchange n} {i : Fin n}
    (h : exchange.loop = some i) : exchange = .dispatched i := by
  cases exchange <;> simp only [Exchange.loop, Option.some.injEq, reduceCtorEq] at h
  rw [h]

/-- A server with `n` event loops. -/
structure Site (Point : Type) (n : ℕ) where
  loops : Fin n → Serving Point
  /-- `EventLoop::stop` has joined the thread. -/
  stopped : Fin n → Bool
  exchanges : TaskId → Exchange n
  /-- What the calls of sync handlers have come to. -/
  outcomes : TaskId → Option (Except Asyncio.Exception Value)

/-- The ways in which `EventLoop::schedule` fails. -/
inductive ScheduleFault
  /-- The task is not allocated, and the sender is dropped. -/
  | allocation
  /-- `call_soon_threadsafe` raises. -/
  | callSoon
  deriving DecidableEq

namespace Site

/-- The events of a server. -/
inductive Event (n : ℕ)
  /-- Hyper calls `handle`. Any loop may have been the least loaded one while the pool scanned
  its gauges. -/
  | receive (r : TaskId) (i : Fin n) (fault : Option ScheduleFault)
  | onLoop (i : Fin n) (e : Serving.Event)
  /-- A sync handler is over. -/
  | syncEnds (r : TaskId) (outcome : Except Asyncio.Exception Value)
  /-- The thread of a sync handler panics and drops its sender. -/
  | syncPanics (r : TaskId)
  /-- The response future is polled when it has its response. -/
  | respond (r : TaskId)
  /-- The client is gone, and Hyper drops the future. -/
  | disconnect (r : TaskId)
  /-- A loop and its thread have ended. -/
  | stop (i : Fin n)
  /-- `stop` disposes of the task of a request, or the task goes down with the loop. -/
  | strand (r : TaskId)

/-- Nothing fails that the handlers have no part in. -/
def Event.Faultless {n : ℕ} : Event n → Prop
  | .receive _ _ fault => fault = none
  | .onLoop _ e => e.Faultless
  | .syncPanics _ | .strand _ => False
  | .syncEnds .. | .respond _ | .disconnect _ | .stop _ => True

/-- A failure of the request itself: its task cannot be scheduled, its thread panics, its loop goes
down under it, or a call that the driver makes for its task fails. -/
def Event.FailsFor {Point : Type} {n : ℕ} (r : TaskId) (s : Site Point n) : Event n → Prop
  | .receive r' _ fault => r' = r ∧ fault ≠ none
  | .onLoop i e => e.FailsFor r (s.loops i)
  | .syncPanics r' | .strand r' => r' = r
  | .syncEnds .. | .respond _ | .disconnect _ | .stop _ => False

section

variable {m : Matchit} {F Point : Type} {n : ℕ} (app : Application m F Point)
  (values : Fin n → FutureId → Value)

/-- `AppService::handle`, up to the handler. -/
def dispatch (r : TaskId) : Dispatch F :=
  app.service.handle app.parseF64 (app.request r).method (app.request r).path

/-- The call of the handler in the first step of a task. -/
def entry (r : TaskId) : Except Asyncio.Exception Point :=
  match dispatch app r with
  | .schedule handler kwargs => app.call handler kwargs
  -- no task is made for any other request
  | .notFound | .respond _ | .executeSyncHandler .. | .panicked => .error (.protocolError "")

/-- `response_from_return_value`. -/
def respondTo : Value → HandlerResponse := responseOf app.ops app.object

/-- The runs of a loop of the server. -/
def servingSystem (i : Fin n) : Transition.System (Serving Point) Serving.Event :=
  Serving.system (respondTo app) app.code (values i) (entry app)

/-- Change the exchange of a request. -/
def setExchange (s : Site Point n) (r : TaskId) (exchange : Exchange n) : Site Point n :=
  { s with exchanges := Function.update s.exchanges r exchange }

/-- An event of a loop. -/
def onLoop (s : Site Point n) (i : Fin n) (e : Serving.Event) : Site Point n :=
  { s with
    loops := Function.update s.loops i
      (Serving.effect (respondTo app) app.code (values i) (entry app) (s.loops i) e) }

/-- What a task has put on the channel of its request. -/
def received (s : Site Point n) (i : Fin n) (r : TaskId) : Option HandlerResponse :=
  ((s.loops i).loop.world.shared.responses.find? (·.1 = r)).map (·.2)

/-- The response that the future of a request resolves to when it is polled. -/
def resolved (s : Site Point n) (r : TaskId) : Option Response :=
  match s.exchanges r with
  | .ready response => some response
  | .dispatched i => (s.received i r).map responseFromHandler
  | .unreceived | .blocking | .answered _ | .dropped => none

/-- `EventLoop::schedule`. -/
def schedule (s : Site Point n) (r : TaskId) (i : Fin n) : Option ScheduleFault → Site Point n
  | none => (onLoop app values s i (.act (.schedule r))).setExchange r (.dispatched i)
  -- `response()` is `None`
  | some .allocation => s.setExchange r (.ready internalServerError)
  | some .callSoon => s.setExchange r (.ready (responseFromHandler .internalError))

/-- `AppService::handle`. -/
def receive (s : Site Point n) (r : TaskId) (i : Fin n) (fault : Option ScheduleFault) :
    Site Point n :=
  match dispatch app r with
  | .notFound => s.setExchange r (.ready (plainResponse 404 "Not Found"))
  | .respond errorResponse => s.setExchange r (.ready (responseFromHandler errorResponse))
  | .schedule _ _ => schedule app values s r i fault
  | .executeSyncHandler _ _ => s.setExchange r .blocking
  | .panicked => s.setExchange r .dropped

/-- The task of a request has not finished. -/
def unfinished (s : Site Point n) (i : Fin n) (r : TaskId) : Bool :=
  ((s.loops i).loop.tasks r).any (!·.state.finished)

/-- The future is dropped, with the `DispatchedRequest` in it. -/
def disconnect (s : Site Point n) (r : TaskId) : Site Point n :=
  match s.exchanges r with
  | .dispatched i =>
    if s.unfinished i r && !s.stopped i then
      (onLoop app values s i (.act (.postCancel r))).setExchange r .dropped
    else s.setExchange r .dropped
  | .unreceived | .ready _ | .blocking | .answered _ | .dropped => s.setExchange r .dropped

/-- The exchange is still open. -/
def pending : Exchange n → Bool
  | .ready _ | .dispatched _ | .blocking => true
  | .unreceived | .answered _ | .dropped => false

/-- When an event can happen. -/
def enabled (s : Site Point n) : Event n → Bool
  | .receive r i fault => match s.exchanges r with
    -- a stopped loop refuses callbacks
    | .unreceived => !s.stopped i || fault.isSome
    | _ => false
  -- requests are scheduled by `handle` only
  | .onLoop _ (.act (.schedule _)) => false
  | .onLoop i e => !s.stopped i && Loop.enabled (driver (respondTo app)) (s.loops i).loop e.probe
  | .syncEnds r _ | .syncPanics r => match s.exchanges r with
    | .blocking => true
    | _ => false
  | .respond r => (s.resolved r).isSome
  | .disconnect r => pending (s.exchanges r)
  | .stop i => !s.stopped i && (s.loops i).loop.running.isNone
  | .strand r => match s.exchanges r with
    | .dispatched i => s.stopped i && s.unfinished i r
    | _ => false

/-- What an event does. -/
def effect (s : Site Point n) : Event n → Site Point n
  | .receive r i fault => receive app values s r i fault
  | .onLoop i e => onLoop app values s i e
  | .syncEnds r outcome =>
    let response := responseFromHandler (executeSyncHandler app.ops app.object outcome)
    { s.setExchange r (.ready response) with
      outcomes := Function.update s.outcomes r (some outcome) }
  | .syncPanics r | .strand r => s.setExchange r (.ready internalServerError)
  | .respond r => match s.resolved r with
    | some response => s.setExchange r (.answered response)
    | none => s
  | .disconnect r => disconnect app values s r
  | .stop i => { s with stopped := Function.update s.stopped i true }

/-- Nothing has been received yet. -/
structure Fresh (s : Site Point n) : Prop where
  loops : ∀ i, (servingSystem app values i).init (s.loops i)
  stopped : ∀ i, s.stopped i = false
  exchanges : ∀ r, s.exchanges r = .unreceived
  outcomes : ∀ r, s.outcomes r = none

/-- All runs of a server. -/
def system : Transition.System (Site Point n) (Event n) where
  init := Fresh app values
  enabled := enabled app
  effect := effect app values

end

end Site

end Rayo
