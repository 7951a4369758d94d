import AegisPlatform.System.Attempts
import AegisPlatform.System.Budgets
import AegisPlatform.System.Fencing
import AegisPlatform.System.Holder
import AegisPlatform.System.Publishing
import AegisPlatform.System.Supervision
import AegisPlatform.System.Containment
import AegisPlatform.EventStore.Alone
import AegisPlatform.System.Cursor
import AegisPlatform.System.Deadlocks
import AegisPlatform.System.Attribution
import AegisPlatform.Queueing.Json
import AegisPlatform.Queueing.RedisStreams
import AegisPlatform.System.Projecting
import AegisPlatform.System.Deliveries
import AegisPlatform.System.Quarantine
import AegisPlatform.Gateway.Recorded
import AegisPlatform.Gateway.Book
import AegisPlatform.System.Agreement
import AegisPlatform.Runtime.Fairness
import AegisPlatform.Gateway.Resilience
import AegisPlatform.System.Alarms
import AegisPlatform.Gateway.Permits
import AegisPlatform.Queueing.Batch
import AegisPlatform.Gateway.Catalog
import AegisPlatform.System.Requeues
import AegisPlatform.Projections.ModelUsage
import AegisPlatform.System.Rebuilds
import AegisPlatform.Gateway.BudgetLog
import AegisPlatform.System.BudgetReplay
import AegisPlatform.Gateway.RateLimit
import AegisPlatform.Policy.Evaluator
import AegisPlatform.Lib.Ranking
import AegisPlatform.Gateway.Router
import AegisPlatform.Lib.Substitution
import AegisPlatform.Lib.Runs
import AegisPlatform.Audit.Redaction
import AegisPlatform.Audit.Events
import AegisPlatform.Audit.Credentials
import AegisPlatform.EventStore.Rows
import AegisPlatform.Lib.Numbering
import AegisPlatform.System.Numbering
import AegisPlatform.Providers.Objects
import AegisPlatform.Providers.OpenAI
import AegisPlatform.Providers.Anthropic
import AegisPlatform.Queueing.JsonText
import AegisPlatform.Providers.Requests
import AegisPlatform.Gateway.Structured
import AegisPlatform.Gateway.Service
import AegisPlatform.Gateway.Intents
import AegisPlatform.Lib.Keyset
import AegisPlatform.Runtime.Status
import AegisPlatform.Identity.Jwks
import AegisPlatform.Identity.Freshness
import AegisPlatform.Gateway.Settlement
import AegisPlatform.Gateway.EventKeys
import AegisPlatform.Lib.Clients
import AegisPlatform.Lib.TwoRuns
import AegisPlatform.Gateway.Served
import AegisPlatform.Gateway.Finished
import AegisPlatform.Gateway.Duplicates
import AegisPlatform.Identity.Authorization
import AegisPlatform.Identity.Authentication
import AegisPlatform.ControlPlane.App
import AegisPlatform.ControlPlane.Access
import AegisPlatform.ControlPlane.Secrecy
import AegisPlatform.ControlPlane.Trail
import AegisPlatform.ControlPlane.Pages
import AegisPlatform.Queueing.Wire
import AegisPlatform.System.Transport
import AegisPlatform.Lib.Streams
import AegisPlatform.Queueing.StreamQueue
import AegisPlatform.Queueing.StreamServer
import AegisPlatform.Lib.Interference
import AegisPlatform.System.Streams
import AegisPlatform.System.Reclaims
