import EnjiGuard.Application.ExistingJobs
import EnjiGuard.Application.Repeating
import EnjiGuard.Application.Subscriptions
import EnjiGuard.Audit.Describing
import EnjiGuard.Audit.Exclusive
import EnjiGuard.Audit.LedgerCodec
import EnjiGuard.Audit.LedgerFile
import EnjiGuard.Audit.Locking
import EnjiGuard.Audit.Reading
import EnjiGuard.Audit.Reducing
import EnjiGuard.Audit.Starting
import EnjiGuard.Audit.Status
import EnjiGuard.Audit.Waiting
import EnjiGuard.AuthSession.Budget
import EnjiGuard.AuthSession.Converging
import EnjiGuard.AuthSession.Losing
import EnjiGuard.AuthSession.Merging
import EnjiGuard.AuthSession.Projection
import EnjiGuard.AuthSession.Readable
import EnjiGuard.AuthSession.Reporting
import EnjiGuard.AuthSession.Retention
import EnjiGuard.AuthSession.Retrying
import EnjiGuard.AuthSession.Store.Untrusted
import EnjiGuard.AuthSession.Telemetry
import EnjiGuard.Gateway.Provisioning
import EnjiGuard.Gateway.Routes
import EnjiGuard.Gitlab.Projects
import EnjiGuard.Portfolio.Labels
import EnjiGuard.Portfolio.Targets
import EnjiGuard.Runtime.Readiness
import EnjiGuard.Transport.Requests
