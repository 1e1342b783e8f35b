import Rayo.Transition
import Rayo.Utf8
import Rayo.Graph
import Rayo.Guarded
import Rayo.Suspension
import Rayo.Balance
import Rayo.Coroutine
import Rayo.Fifo
import Rayo.CycleCollector
import Rayo.Dispatch.Channel
import Rayo.Dispatch.EventLoop
import Rayo.Dispatch.Accounting
import Rayo.Dispatch.Soundness
import Rayo.Dispatch.Settlement
import Rayo.Dispatch.StopOverlap
import Rayo.Dispatch.LoopPool
import Rayo.Dispatch.LeastLoaded
import Rayo.Dispatch.SharedPool
import Rayo.Dispatch.SharedScan
import Rayo.Asyncio.World
import Rayo.Asyncio.Loop
import Rayo.Asyncio.Agreement
import Rayo.Asyncio.Task
import Rayo.Task.HandlerTask
import Rayo.Task.Sourced
import Rayo.Task.WakeTurns
import Rayo.Task.WakeSource
import Rayo.Task.PendingCancel
import Rayo.Task.Cancellation
import Rayo.Task.PlainHandlers
import Rayo.Task.Correspondence
import Rayo.Task.TurnStart
import Rayo.Task.TurnEnd
import Rayo.Task.CallParity
import Rayo.Task.AsyncioParity
import Rayo.Task.Completion
import Rayo.Task.CallbackHistory
import Rayo.Task.DoneCallbacks
import Rayo.Task.Sections
import Rayo.Task.OwnLock
import Rayo.Task.Lifecycle
import Rayo.Task.Undecided
import Rayo.Task.TurnControl
import Rayo.Task.TaskView
import Rayo.Task.LoopSteps
import Rayo.Task.TaskSteps
import Rayo.Task.Placement
import Rayo.Task.Accessors
import Rayo.Task.Ledger
import Rayo.Task.CallbackRefinement
import Rayo.Task.CompletionCourse
import Rayo.Task.CompletionOrder
import Rayo.Task.CoroutineFate
import Rayo.Task.Answer
import Rayo.Task.ContextBracket
import Rayo.Task.SectionEnvironment
import Rayo.Task.SectionStart
import Rayo.Task.SectionTurns
import Rayo.Task.SectionDriver
import Rayo.Task.ContextStore
import Rayo.Task.RequestContexts
import Rayo.Task.RequestIsolation
import Rayo.Task.Enlistment
import Rayo.Task.Enrollment
import Rayo.Task.TaskHolders
import Rayo.Task.TaskAddress
import Rayo.Task.AddressMap
import Rayo.Task.LiveRegistry
import Rayo.Task.Collection
import Rayo.Task.Footprint
import Rayo.Task.Fairness
import Rayo.Server.Shutdown
import Rayo.Server.GracePeriod
import Rayo.Server.WakeUp
import Rayo.Server.Attachment
import Rayo.Server.GraceValue
import Rayo.Server.Winding
import Rayo.Server.RunDown
import Rayo.Json.Value
import Rayo.Json.Parser
import Rayo.Json.Reading
import Rayo.Json.Scanner
import Rayo.Json.Tokens
import Rayo.Schema.WriteJson
import Rayo.Schema.RoundTrip
import Rayo.Schema.StringToken
import Rayo.Schema.WrittenTokens
import Rayo.Schema.PythonLoads
import Rayo.Schema.ReadBack
import Rayo.Schema.TokenCount
import Rayo.Schema.ServedAgain
import Rayo.Schema.ObjectGraph
import Rayo.Schema.Recursion
import Rayo.Routing.Template
import Rayo.Routing.Registration
import Rayo.Routing.Binding
import Rayo.Routing.KwargsOutcome
import Rayo.Routing.Service
import Rayo.Routing.ParserAgreement
import Rayo.Routing.App
import Rayo.Routing.CallBinding
import Rayo.Routing.SyncRoute
import Rayo.Server.LoopThread
import Rayo.Server.Containment
import Rayo.Server.Startup
import Rayo.Server.Run
import Rayo.Task.Serving
import Rayo.Task.Extension
import Rayo.Task.HandlerMeaning
import Rayo.Task.HandlerInvariant
import Rayo.Task.Faithful
import Rayo.Task.FaithfulRuns
import Rayo.Task.HandlerOutcome
import Rayo.Server.Http
import Rayo.Server.Exchanges
import Rayo.Server.ResponseMeaning
import Rayo.Server.Wire
import Rayo.Server.Disconnect
