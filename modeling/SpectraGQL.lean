import SpectraGQL.Interaction.Pool
import SpectraGQL.Core.Clock
import SpectraGQL.Data.LruCache
import SpectraGQL.Data.IpAddr
import SpectraGQL.Http
import SpectraGQL.Idempotency.Memory
import SpectraGQL.Interaction.Linearizability
import SpectraGQL.Idempotency.Redis
import SpectraGQL.Idempotency.Sequential
import SpectraGQL.Idempotency.Equivalence
import SpectraGQL.Idempotency.RecordJson
import SpectraGQL.Idempotency.Linearizable
import SpectraGQL.Interaction.Schedule
import SpectraGQL.Idempotency.Eviction
import SpectraGQL.Idempotency.Capacity
import SpectraGQL.Idempotency.Exclusion
import SpectraGQL.Protocol.Json
import SpectraGQL.Interceptors.Pipeline
import SpectraGQL.Telemetry.Event
import SpectraGQL.Gateway.Context
import SpectraGQL.Gateway.Filters
import SpectraGQL.Gateway.RequestFilter
import SpectraGQL.Gateway.Response
import SpectraGQL.Gateway.Lifecycle
import SpectraGQL.Gateway.World
import SpectraGQL.Gateway.Stages
import SpectraGQL.Gateway.Mediation
import SpectraGQL.Gateway.Release
import SpectraGQL.Core.Causality
import SpectraGQL.Interceptors.Rejection
import SpectraGQL.Interceptors.Jwt
import SpectraGQL.Interceptors.Manager
import SpectraGQL.Interceptors.Auth
import SpectraGQL.Interceptors.Renaming
import SpectraGQL.Interceptors.Sanitizer
import SpectraGQL.Gateway.Forwarding
import SpectraGQL.Admin.Config
import SpectraGQL.Admin.Reload
import SpectraGQL.Idempotency.Backend
import SpectraGQL.Gateway.KeyProtocol
import SpectraGQL.Gateway.Requests
import SpectraGQL.Gateway.Isolation
import SpectraGQL.Gateway.Ownership
import SpectraGQL.Gateway.CommandProtocol
import SpectraGQL.Gateway.ExactlyOnce
import SpectraGQL.Gateway.Delivery
import SpectraGQL.Gateway.Replay
import SpectraGQL.Admin.Boot
import SpectraGQL.Admin.Update
import SpectraGQL.Admin.Access
import SpectraGQL.Admin.Allowlist
import SpectraGQL.Admin.Router
import SpectraGQL.Subscriptions.Topic
import SpectraGQL.Subscriptions.TopicNames
import SpectraGQL.Subscriptions.Literals
import SpectraGQL.Subscriptions.Protocol
import SpectraGQL.Subscriptions.Hub
import SpectraGQL.Subscriptions.Connection
import SpectraGQL.Subscriptions.View
import SpectraGQL.Subscriptions.Mirror
import SpectraGQL.Subscriptions.Delivery
import SpectraGQL.Subscriptions.Replacement
import SpectraGQL.Subscriptions.Alone
import SpectraGQL.Subscriptions.Ledger
import SpectraGQL.Subscriptions.Registry
import SpectraGQL.Subscriptions.Phases
import SpectraGQL.Subscriptions.Outbox
import SpectraGQL.Subscriptions.Session
import SpectraGQL.Subscriptions.Disconnect
import SpectraGQL.Gateway.Versions
import SpectraGQL.Gateway.Publication
import SpectraGQL.Gateway.Notices
import SpectraGQL.Gateway.Course
import SpectraGQL.Gateway.Brokers
import SpectraGQL.Telemetry.Sinks
import SpectraGQL.Protocol.JsonText
import SpectraGQL.Interceptors.Secrets
import SpectraGQL.Gateway.Report
import SpectraGQL.Gateway.Noninterference
import SpectraGQL.Interceptors.Tokens
import SpectraGQL.Interceptors.AuthRuns
import SpectraGQL.Interceptors.Policies
import SpectraGQL.Interceptors.Expiry
import SpectraGQL.Interceptors.Redaction
import SpectraGQL.Data.Regex
import SpectraGQL.Data.Separated
import SpectraGQL.Data.Tokenizer
import SpectraGQL.Data.Grammar
import SpectraGQL.Protocol.Lexemes
import SpectraGQL.Protocol.Syntax
import SpectraGQL.Protocol.StringValue
import SpectraGQL.Interceptors.Composition
import SpectraGQL.Gateway.Audits
import SpectraGQL.Protocol.Selection
import SpectraGQL.Gateway.RouteOrder
import SpectraGQL.Interceptors.SyntaxCheck
import SpectraGQL.Interceptors.KeyStyles
import SpectraGQL.Gateway.Chunks
import SpectraGQL.Interceptors.QueryText
import SpectraGQL.Interceptors.BearerLexemes
import SpectraGQL.Interceptors.LiteralLexemes
import SpectraGQL.Interceptors.SanitizedDocument
import SpectraGQL.Interceptors.InlineRedaction
import SpectraGQL.Interceptors.BreakerRuns
import SpectraGQL.Interceptors.Probes
import SpectraGQL.Interceptors.Epochs
import SpectraGQL.Interceptors.WasmPlugin
import SpectraGQL.Interceptors.Cel
import SpectraGQL.Admin.Rescan
import SpectraGQL.Admin.Truncation
import SpectraGQL.Gateway.Ending
import SpectraGQL.Gateway.Traffic
import SpectraGQL.Gateway.Topics
import SpectraGQL.Interceptors.Instantiation
import SpectraGQL.Admin.Validation
import SpectraGQL.Admin.Aliases
import SpectraGQL.Data.JsonGrammar
import SpectraGQL.Gateway.Fingerprints
import SpectraGQL.Core.SortableTimestamps
import SpectraGQL.Interceptors.RsaKey
import SpectraGQL.Idempotency.Counter
import SpectraGQL.Core.ConfigStore
import SpectraGQL.Admin.Coverage
import SpectraGQL.Interaction.Phased
import SpectraGQL.Interaction.SingleFlight
import SpectraGQL.Telemetry.Nats
import SpectraGQL.Telemetry.NatsStream
import SpectraGQL.Data.KeyedStore
import SpectraGQL.Admin.Registry
import SpectraGQL.Interaction.RwLock
import SpectraGQL.Admin.TrafficRecorder
import SpectraGQL.Protocol.JsonReader
import SpectraGQL.Subscriptions.Wire
import SpectraGQL.Interceptors.MapOrder
import SpectraGQL.Admin.Listings
import SpectraGQL.Admin.Restart
import SpectraGQL.Admin.Console
import SpectraGQL.Admin.Provenance
import SpectraGQL.Interaction.OnceCell
import SpectraGQL.Telemetry.Drivers
import SpectraGQL.Telemetry.DriverTraffic
