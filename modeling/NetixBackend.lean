import NetixBackend.ChangeHistory.Reads
import NetixBackend.ChangeHistory.Saves
import NetixBackend.ChangeHistory.SingleWriter
import NetixBackend.ChangeHistory.Refresh
import NetixBackend.ChangeHistory.Writers
import NetixBackend.Cloning
import NetixBackend.Discovery.Registry
import NetixBackend.Discovery.Cache
import NetixBackend.ChangeHistory.Deferred
import NetixBackend.ChangeHistory.FailedSave
import NetixBackend.ChangeHistory.TrailCap
import NetixBackend.Python.ContextVar
import NetixBackend.ChangeHistory.Actor
import NetixBackend.ChangeHistory.ActorBrackets
import NetixBackend.ChangeHistory.StatedReasons
import NetixBackend.Asgi.Messages
import NetixBackend.Asgi.Timeout
import NetixBackend.Asgi.WireSafety
import NetixBackend.Asgi.WireHistory
import NetixBackend.Asgi.AbandonedPool
import NetixBackend.Asgi.Accounting
import NetixBackend.Effects.Transaction
import NetixBackend.Python.Integers
import NetixBackend.Views.Identity
import NetixBackend.Views.Store
import NetixBackend.Views.Handlers
import NetixBackend.Views.TenantConfinement
import NetixBackend.Views.Atomicity
import NetixBackend.Views.PinAndReject
import NetixBackend.Views.ListUpdate
import NetixBackend.Views.AsyncActions
import NetixBackend.Views.IncludeDeleted
import NetixBackend.Python.Floats
import NetixBackend.Effects.Memo
import NetixBackend.Env
import NetixBackend.Http.Retry
import NetixBackend.Http.RetryLoops
import NetixBackend.Http.Clients
import NetixBackend.Http.ClientCache
import NetixBackend.Http.DeadlineAgreement
import NetixBackend.Http.DeadlineCap
import NetixBackend.Http.RetryAfter
import NetixBackend.Http.DeadlineRetryAfter
import NetixBackend.Http.Static
import NetixBackend.Http.StaticFailures
import NetixBackend.Errors.Messages
import NetixBackend.Errors.Construction
import NetixBackend.Errors.Consistent
import NetixBackend.Errors.RowPaths
import NetixBackend.Transition.Trail
import NetixBackend.Observability.ExceptionChain
import NetixBackend.Python.Text
import NetixBackend.Observability.SentryFilters
import NetixBackend.Python.StrictJson
import NetixBackend.ChangeHistory.Storable
import NetixBackend.Discovery.Overtaking
import NetixBackend.Asgi.Registration
import NetixBackend.ChangeHistory.Spelling
import NetixBackend.Views.LegacyGate
import NetixBackend.Database.Factory
import NetixBackend.Database.Alias
import NetixBackend.Database.Literals
import NetixBackend.Database.Replica
import NetixBackend.Views.SoftDelete
import NetixBackend.Views.Retirement
import NetixBackend.Views.OrgScope
import NetixBackend.Views.CrossOrganization
import NetixBackend.Http.NestedRetry
import NetixBackend.Http.DeadlineOverrun
import NetixBackend.Transition.Ranking
import NetixBackend.Asgi.Quiescence
import NetixBackend.Asgi.EarlyReplies
import NetixBackend.Observability.RequestSpans
import NetixBackend.Observability.Tracing
import NetixBackend.Effects.Rotation
import NetixBackend.Http.ClientRotation
import NetixBackend.ChangeHistory.Attribution
import NetixBackend.Errors.Handler
import NetixBackend.Errors.ListErrors
import NetixBackend.Transition.Refinement
import NetixBackend.Asgi.Announcements
import NetixBackend.Effects.Signals
import NetixBackend.Database.StatementTimeout
import NetixBackend.ChangeHistory.BulkAgreement
import NetixBackend.ChangeHistory.BulkErasure
import NetixBackend.ChangeHistory.BulkWriters
import NetixBackend.Effects.Verdict
import NetixBackend.Observability.Grouping
