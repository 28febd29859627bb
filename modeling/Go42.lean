import Go42.Lib.System
import Go42.Lib.Txn
import Go42.Lib.GoTime
import Go42.Outbox.Models
import Go42.Outbox.Delivery
import Go42.Outbox.Backoff
import Go42.Outbox.CleanerRuns
import Go42.Outbox.Lossless
import Go42.Events.Publisher
import Go42.Events.Deliveries
import Go42.Auth.Jwt
import Go42.Auth.Sessions
import Go42.Auth.Credentials
import Go42.Auth.Atomicity
import Go42.Auth.Limiter
import Go42.Auth.Accounts
import Go42.Auth.Cleanup
import Go42.Auth.EventHistory
import Go42.Auth.UserRoles
import Go42.Auth.Interceptors
import Go42.Auth.TokenLastUsed
import Go42.Auth.TokenCache
import Go42.Auth.TokenCodec
import Go42.Api.Http.CacheMiddleware
import Go42.Cache.Contention
import Go42.Cache.Agreement
import Go42.Cache.Interference
import Go42.Cache.Refill
import Go42.Cache.Lifetime
import Go42.Database.TimeColumns
import Go42.Events.NatsMarshaler
import Go42.Metrics.Metrics
import Go42.Pages.References
import Go42.Pages.Render
import Go42.Pages.Labels
import Go42.Api.Http.Server
import Go42.Api.Grpc.Health
import Go42.App.Shutdown
import Go42.App.Watch
import Go42.App.Liveness
import Go42.Tools.Pagination
import Go42.Auth.HttpAdapter
import Go42.Auth.Mediation
import Go42.Lib.FileTree
import Go42.Pages.Assemble
import Go42.Events.RouterLifecycle
import Go42.Lib.Ledger
import Go42.Events.Nats
import Go42.Events.NatsShutdown
