import Cerbix.Agent.Backfill
import Cerbix.Agent.Claim
import Cerbix.Agent.Lease
import Cerbix.Alerting.Agreement
import Cerbix.Alerting.Heard
import Cerbix.Auth.RateLimit
import Cerbix.Dispatch.Delivery
import Cerbix.Domain.ExecSemantics
import Cerbix.Gate.Decision
import Cerbix.Ingest.Reconciler
import Cerbix.Ledger.NoLoss
import Cerbix.Prober.Credentialed
import Cerbix.Prober.Redirect
import Cerbix.Prober.Run
import Cerbix.Results.Push
import Cerbix.Results.Scheduled
import Cerbix.Scheduler.Absence
import Cerbix.Scheduler.CanaryRuns
import Cerbix.Service.Era
import Cerbix.Service.Handshake
import Cerbix.Service.Health
import Cerbix.Service.Watermark
import Cerbix.Store.Agreement
import Cerbix.Store.Change
import Cerbix.Store.Correlation
import Cerbix.Store.CredentialUpdate
import Cerbix.Store.Escalation
import Cerbix.Store.MonitorGraph
import Cerbix.Store.MonitorSlug
import Cerbix.Store.Rollup
import Cerbix.Store.Timeline
