import SpendGuard.Ledger.Conservation
import SpendGuard.Ledger.SessionHolds
import SpendGuard.Ledger.Tombstone
import SpendGuard.Ledger.Duplicates
import SpendGuard.Ledger.Decisions
import SpendGuard.Proxy.Applied
import SpendGuard.Proxy.Retry
import SpendGuard.Audit.Producers
import SpendGuard.Sidecar.Companion
import SpendGuard.Outbox.Forwarder
import SpendGuard.Dashboard.Export
import SpendGuard.Coordination.PostgresLease
import SpendGuard.Coordination.K8sLease
import SpendGuard.Approval.Requests
import SpendGuard.Approval.Decisions
import SpendGuard.Approval.Documents
import SpendGuard.Approval.Roles
import SpendGuard.Approval.Resume
import SpendGuard.Sidecar.Sequence
import SpendGuard.Coordination.Grant
import SpendGuard.Canonical.Columns
import SpendGuard.Audit.Retention
import SpendGuard.Base.Pointer
import SpendGuard.Registry.Patch
import SpendGuard.Registry.Documents
import SpendGuard.Registry.Approvals
import SpendGuard.Registry.Publish
import SpendGuard.Base.Sorted
import SpendGuard.Catalog.Manifest
import SpendGuard.Usage.Poller
import SpendGuard.Projector.Layering
import SpendGuard.Projector.Project
import SpendGuard.Projector.Concurrent
import SpendGuard.Predictor.Breaker
import SpendGuard.Sidecar.Join
import SpendGuard.Base.Fifo
import SpendGuard.Sidecar.Slots
import SpendGuard.Ledger.LockOrder
import SpendGuard.Base.Pattern
import SpendGuard.Proxy.Chunks
import SpendGuard.Registry.Allowlist
import SpendGuard.Base.Codes
import SpendGuard.Ledger.RequestHash
import SpendGuard.Ledger.Lookups
import SpendGuard.Sidecar.CommitRetry
import SpendGuard.Base.Facts
import SpendGuard.Ledger.Unique
import SpendGuard.Webhook.Delivery
import SpendGuard.Webhook.Receiver
import SpendGuard.Webhook.Identity
import SpendGuard.Base.Endian
import SpendGuard.Cursor.Framing
import SpendGuard.Cursor.Fixture
import SpendGuard.Base.TokenBucket
import SpendGuard.Predictor.RateLimit
import SpendGuard.Auth.Jwks
import SpendGuard.Projector.Recovery
import SpendGuard.Stats.DriftAlerts
import SpendGuard.Ledger.BudgetState
