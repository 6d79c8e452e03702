import BillingEngine.Properties.Answers
import BillingEngine.Properties.Api
import BillingEngine.Properties.AppendOnly
import BillingEngine.Properties.Atomicity
import BillingEngine.Properties.Billing
import BillingEngine.Properties.Blocking
import BillingEngine.Properties.Caps
import BillingEngine.Properties.Checkout
import BillingEngine.Properties.Concurrency
import BillingEngine.Properties.Consistency
import BillingEngine.Properties.Constraints
import BillingEngine.Properties.Counting
import BillingEngine.Properties.Deadlock
import BillingEngine.Properties.Duplicates
import BillingEngine.Properties.Edits
import BillingEngine.Properties.ExactlyOnce
import BillingEngine.Properties.Failures
import BillingEngine.Properties.Isolation
import BillingEngine.Properties.Lifecycle
import BillingEngine.Properties.Linearizability
import BillingEngine.Properties.Orderly
import BillingEngine.Properties.Overflow
import BillingEngine.Properties.Overlaps
import BillingEngine.Properties.Periods
import BillingEngine.Properties.PlanSync
import BillingEngine.Properties.Pricing
import BillingEngine.Properties.Quota
import BillingEngine.Properties.QuotaStatus
import BillingEngine.Properties.Reads
import BillingEngine.Properties.Rejections
import BillingEngine.Properties.Reordering
import BillingEngine.Properties.RetryAfter
import BillingEngine.Properties.Schema
import BillingEngine.Properties.Selection
import BillingEngine.Properties.Serialization
import BillingEngine.Properties.Snapshots
import BillingEngine.Properties.Termination
import BillingEngine.Properties.Terms
import BillingEngine.Properties.Unlinked
import BillingEngine.Properties.Webhooks
