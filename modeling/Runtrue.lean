import Runtrue.Scheduling.Cancel
import Runtrue.Scheduling.Quotas
import Runtrue.Scheduling.Capacity
import Runtrue.Scheduling.Jobs
import Runtrue.Scheduling.Ordering
import Runtrue.Execution.Containment
import Runtrue.Execution.Grants
import Runtrue.Execution.Replay
import Runtrue.Expression.Noninterference
import Runtrue.Expression.Depth
import Runtrue.Compiler.Paths
import Runtrue.Engine.Conditions
import Runtrue.Compiler.References
import Runtrue.Compiler.Flagging
import Runtrue.ControlPlane.Groups
import Runtrue.ControlPlane.Approvals
import Runtrue.ControlPlane.Priority
import Runtrue.ControlPlane.Endings
import Runtrue.Cache.Flow
import Runtrue.Policy.Integrity
import Runtrue.Policy.Emergency
import Runtrue.Policy.Generation
import Runtrue.Secrets.Leases
import Runtrue.Update.Reload
import Runtrue.Guest.Channel
