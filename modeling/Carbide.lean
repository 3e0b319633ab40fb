import Carbide.Lib.Block
import Carbide.Lib.OrdSet
import Carbide.Lib.SubBlock
import Carbide.Network.Prefix
import Carbide.Network.IpSet
import Carbide.Console.Escape
import Carbide.Rotation.Bmc
import Carbide.Rotation.Runs
import Carbide.Db.IpAllocator
import Carbide.Lib.Lts
import Carbide.StateController.Queue
import Carbide.StateController.Persist
import Carbide.Flow.Conflict
import Carbide.Flow.RackTasks
import Carbide.Flow.TaskSchedule
import Carbide.Flow.OperationRun
import Carbide.Agent.Route
import Carbide.Lib.Decimal
import Carbide.Machine.UpgradePolicy
import Carbide.Config.Version
import Carbide.Health.Report
import Carbide.Lib.SortedMap
import Carbide.Lib.Fold
import Carbide.Lib.Hex
import Carbide.Mlx.Value
import Carbide.Lib.Intervals
import Carbide.Segment.Linknet
import Carbide.Dhcp.Cache
import Carbide.Lib.Lex
import Carbide.Logfmt.Order
import Carbide.Mlx.Proto
import Carbide.Db.ResourcePool
import Carbide.Logfmt.Quote
import Carbide.Uuid.HardwareId
import Carbide.Dhcp.Reply
import Carbide.Logfmt.Line
import Carbide.Lib.Select
import Carbide.Lib.Chunks
import Carbide.Flow.Components
import Carbide.Flow.ExecutionTargets
import Carbide.Flow.Planner
