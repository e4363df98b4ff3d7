import Caelix.Lib.DepthFirst
import Caelix.Core.Exception
import Caelix.Core.Container
import Caelix.Core.Provider
import Caelix.Core.Discover
import Caelix.Core.DiscoverExact
import Caelix.Core.Subject
import Caelix.Core.Preflight
import Caelix.Core.Schedule
import Caelix.Core.PreflightSpec
import Caelix.Core.Events
import Caelix.Core.Lifecycle
import Caelix.Core.LifecycleSteps
import Caelix.Core.LifecycleTrace
import Caelix.Core.Registration
import Caelix.Core.Bootstrap
import Caelix.Core.OverrideStability
import Caelix.Core.BootstrapOrder
import Caelix.Core.Injection
import Caelix.Core.Handlers
import Caelix.Core.FailedRegistration
import Caelix.Core.SeveralRoots
import Caelix.Core.Clock
import Caelix.Core.Json
import Caelix.Lib.Gregorian
import Caelix.Core.Timestamps
import Caelix.Core.MemoryCache
import Caelix.Core.MemoryCacheReference
import Caelix.Core.Throttle
import Caelix.Core.ThrottleIndexes
import Caelix.Core.ThrottleReference
import Caelix.Core.ThrottleBounds
import Caelix.Core.Response
import Caelix.Core.ThrottleCheck
import Caelix.Lib.FixedWindow
import Caelix.Core.ThrottleQuota
import Caelix.Core.ThrottleConcurrent
import Caelix.Lib.Interaction
import Caelix.Microservices.Envelope
import Caelix.Microservices.Redis
import Caelix.Microservices.Nats
import Caelix.Microservices.Commands
import Caelix.Microservices.CommandParity
import Caelix.Microservices.BoundedReply
import Caelix.Microservices.EventParity
import Caelix.Lib.Workers
import Caelix.Microservices.EventDelivery
import Caelix.Lib.JoinSet
import Caelix.Microservices.ConsumerLoop
import Caelix.Lib.Environment
import Caelix.Microservices.Runtime
import Caelix.Microservices.RuntimeShutdown
import Caelix.Core.MemoryCacheOwnWrite
import Caelix.Core.IpAddress
import Caelix.Core.ThrottleTracker
import Caelix.Core.Upload
import Caelix.Core.UploadPersist
import Caelix.Core.UploadParse
import Caelix.Adapters.Responses
import Caelix.WebSocket.Actix
import Caelix.WebSocket.Messages
import Caelix.WebSocket.Delivery
import Caelix.WebSocket.Closing
import Caelix.Lib.Drive
import Caelix.WebSocket.Axum
import Caelix.WebSocket.CallbackParity
import Caelix.Lib.Framing
import Caelix.WebSocket.Stream
import Caelix.WebSocket.Chunking
import Caelix.Microservices.SubjectSets
import Caelix.Adapters.Streaming
import Caelix.Core.ValidationErrors
import Caelix.Microservices.SubjectValidators
import Caelix.Core.EventStreams
import Caelix.Core.RequestCookies
import Caelix.Core.LogLevels
import Caelix.Lib.Checked
import Caelix.WebSocket.RawClose
import Caelix.Adapters.OpenApiMount
import Caelix.Adapters.JsonErrors
import Caelix.Lib.WordCase
import Caelix.Lib.WordCut
import Caelix.Cli.Names
import Caelix.Core.RouteLog
import Caelix.Lib.Embedding
import Caelix.Lib.WorkerReplies
import Caelix.Microservices.RedisClient
import Caelix.Microservices.CommandBroker
import Caelix.Microservices.CommandDelivery
import Caelix.Microservices.EventEmission
import Caelix.Lib.Layers
import Caelix.Lib.Routines
import Caelix.Controller.Annotations
import Caelix.Controller.Route
import Caelix.Controller.Markers
import Caelix.Controller.Handler
import Caelix.Controller.Arguments
import Caelix.Controller.Admission
import Caelix.Controller.Responses
import Caelix.Controller.RouteState
import Caelix.Lib.BoundedChannel
import Caelix.Core.AccessLog
import Caelix.Cli.Generate
import Caelix.Cli.Outcomes
