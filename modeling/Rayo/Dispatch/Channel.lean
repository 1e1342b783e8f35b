import Mathlib.Data.Int.Notation
import Mathlib.Logic.Function.Basic
import Rayo.Utf8

/-!
# The response channel and the terminal bookkeeping of a request

`HandlerTask::finish` and the error path of `EventLoop::schedule` touch data that
several threads share: the registry of live tasks, the finished flag, the sender slot
of the response channel and the in-flight gauge. Each access is one atomic step, so
the code between two accesses is a `Work` value saying what is left to do, and
`Work.advance` performs the next access.
-/

namespace Rayo

/-- `HandlerResponse`: a handler's outcome reduced to wire data. -/
structure HandlerResponse where
  /-- The HTTP status code. -/
  status : ℕ
  /-- The value of the content-type header. -/
  contentType : String
  /-- The bytes of the response body. -/
  body : List UInt8
  deriving DecidableEq

/-- `HandlerResponse::internal_error`: the opaque 500. -/
def HandlerResponse.internalError : HandlerResponse where
  status := 500
  contentType := "text/plain; charset=utf-8"
  body := Utf8.encode "Internal Server Error".toList

/-- `HandlerResponse::no_content`. -/
def HandlerResponse.noContent : HandlerResponse where
  status := 204
  contentType := "text/plain; charset=utf-8"
  body := []

/-- A request, and the `HandlerTask` allocated for it. -/
abbrev RequestId := ℕ

/-- How the receiver of a request's oneshot channel is woken. -/
inductive Resolution
  | sent (response : HandlerResponse)
  | senderDropped
  deriving DecidableEq

/-- The life of a `ResponseChannel`. `send` takes the sender out of its slot, decrements
the gauge, and only then puts the response into the oneshot. -/
inductive ChannelState
  | absent
  | «open»
  | taken
  | counted
  | resolved (resolution : Resolution)
  deriving DecidableEq

/-- The data of one event loop that its threads share. The last three fields are
histories: which requests were counted in, which were counted out, and every
resolution in the order it happened. -/
structure Registry where
  /-- The response channel of every request. -/
  channel : RequestId → ChannelState
  /-- The keys of `LoopHandles::live_tasks`. -/
  live : List RequestId
  /-- `TaskState::finished` of every task. -/
  finished : RequestId → Bool
  /-- `EventLoop::in_flight`. -/
  gauge : ℤ
  increments : List RequestId
  decrements : List RequestId
  resolutions : List (RequestId × Resolution)

/-- The registry of a freshly started event loop. -/
def Registry.empty : Registry where
  channel _ := .absent
  live := []
  finished _ := false
  gauge := 0
  increments := []
  decrements := []
  resolutions := []

/-- `EventLoop::schedule`: create the channel and increment the gauge. -/
def Registry.openChannel (g : Registry) (r : RequestId) : Registry :=
  { g with
    channel := Function.update g.channel r .open
    gauge := g.gauge + 1
    increments := r :: g.increments }

/-- `live_tasks.insert`. -/
def Registry.insertLive (g : Registry) (r : RequestId) : Registry :=
  { g with live := g.live.insert r }

/-- `live_tasks.remove`. -/
def Registry.removeLive (g : Registry) (r : RequestId) : Registry :=
  { g with live := g.live.filter (· ≠ r) }

/-- `in_flight.fetch_sub`. -/
def Registry.decrement (g : Registry) (r : RequestId) : Registry :=
  { g with
    gauge := g.gauge - 1
    decrements := r :: g.decrements }

/-- The receiver's side of request `r` is resolved. -/
def Registry.resolve (g : Registry) (r : RequestId) (resolution : Resolution) : Registry :=
  { g with
    channel := Function.update g.channel r (.resolved resolution)
    resolutions := (r, resolution) :: g.resolutions }

/-- `Drop for ResponseChannel`, on a channel that nothing else refers to any more. -/
def Registry.dropChannel (g : Registry) (r : RequestId) : Registry :=
  if g.channel r = .open then (g.decrement r).resolve r .senderDropped else g

/-- What is left of a `finish` or of a `send` on the thread that runs it. -/
inductive Work
  | finish (r : RequestId) (response : HandlerResponse)
  | removeLive (r : RequestId) (response : HandlerResponse)
  | take (r : RequestId) (response : HandlerResponse)
  | decrement (r : RequestId) (response : HandlerResponse)
  | deliver (r : RequestId) (response : HandlerResponse)
  deriving DecidableEq

/-- The request that a piece of work is about. -/
def Work.request : Work → RequestId
  | .finish r _ | .removeLive r _ | .take r _ | .decrement r _ | .deliver r _ => r

/-- The response that a piece of work will send. -/
def Work.response : Work → HandlerResponse
  | .finish _ x | .removeLive _ x | .take _ x | .decrement _ x | .deliver _ x => x

/-- The next atomic access of `HandlerTask::finish` and `ResponseChannel::send`.
`finish` on a finished task skips the bookkeeping but still sends; unregistering from
asyncio and firing done callbacks do not touch the shared data and are left out. -/
def Work.advance (g : Registry) : Work → Registry × Option Work
  | .finish r response =>
    if g.finished r then (g, some (.take r response))
    else ({ g with finished := Function.update g.finished r true }, some (.removeLive r response))
  | .removeLive r response => (g.removeLive r, some (.take r response))
  | .take r response =>
    if g.channel r = .open then
      ({ g with channel := Function.update g.channel r .taken }, some (.decrement r response))
    else (g, none)
  | .decrement r response =>
    ({ g.decrement r with channel := Function.update g.channel r .counted },
      some (.deliver r response))
  | .deliver r response => (g.resolve r (.sent response), none)

/-- The work has not yet tried to take the sender out of its slot. -/
def Work.beforeTake : Work → Bool
  | .finish .. | .removeLive .. | .take .. => true
  | .decrement .. | .deliver .. => false

end Rayo
