import Chronos.Claims.Release
import Chronos.Client.RouteRefresh
import Chronos.Clock
import Chronos.ClusterFormat.Agreement
import Chronos.Dedicated.Exclusive
import Chronos.Dedicated.Leaks
import Chronos.Dedicated.Shutdown
import Chronos.ErrorDetails.CppParser
import Chronos.Flights.SingleFlight
import Chronos.Idempotency.Agreement
import Chronos.Identity.Deadline
import Chronos.Loading.LoadOnce
import Chronos.Memory.Timelines
import Chronos.Metadata.Namespaces
import Chronos.Ownership.Duplicates
import Chronos.Ownership.PlanningScript
import Chronos.Properties.CachedRecord
import Chronos.Properties.CatchupBudget
import Chronos.Properties.LeaseExclusion
import Chronos.Properties.LeaseRefresh
import Chronos.Properties.Monotonicity
import Chronos.Properties.NotReady
import Chronos.Properties.ReadinessFlag
import Chronos.Properties.RuntimeLease
import Chronos.Properties.TimelineStore
import Chronos.Properties.TransferOwnership
import Chronos.Properties.TransferredFloor
import Chronos.Proxy.Idle
import Chronos.RouteWatch.Delivery
import Chronos.Runtime.CursorCalls
import Chronos.RuntimeCache.Saturation
import Chronos.Status.AutoFailover
import Chronos.Status.Drift
import Chronos.Status.Lookup
import Chronos.KeyValue.Table
import Chronos.Pruning.Programs
import Chronos.Pruning.Rules
import Chronos.Pruning.Safety
