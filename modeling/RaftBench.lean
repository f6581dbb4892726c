import RaftBench.Lib.Machine
import RaftBench.Lib.Decimal
import RaftBench.Braft.Atomic
import RaftBench.Braft.Replication
import RaftBench.Braft.Snapshot
import RaftBench.Braft.Sender
import RaftBench.Braft.OpenLoop
import RaftBench.Braft.Accounting
import RaftBench.Braft.Routing
import RaftBench.OpenRaft.RunOpen
import RaftBench.Aeron.Loadgen
import RaftBench.Schedules
import RaftBench.Lib.Json
import RaftBench.Lib.Prog
import RaftBench.OpenRaft.Client
import RaftBench.OpenRaft.Acknowledged
import RaftBench.OpenRaft.LeaderTracking
import RaftBench.OpenRaft.StateMachine
import RaftBench.OpenRaft.Increment
import RaftBench.Sweep.MergeHdr
import RaftBench.Sweep.SweepMulti
import RaftBench.Braft.Registers
import RaftBench.Lib.Rank
import RaftBench.Sweep.Percentiles
import RaftBench.Lib.HdrHistogram
import RaftBench.Braft.Summary
import RaftBench.Sweep.RawHistogram
import RaftBench.OpenRaft.Accounting
import RaftBench.Aeron.ClosedLoop
import RaftBench.Aeron.Replies
import RaftBench.OpenRaft.Collector
import RaftBench.Aeron.Measurement
import RaftBench.Aeron.Window
import RaftBench.Aeron.ClockOrigin
import RaftBench.Braft.Window
import RaftBench.ScheduleLag
import RaftBench.Braft.InflightCap
import RaftBench.Braft.SnapshotLoad
import RaftBench.OpenRaft.FindLeader
import RaftBench.OpenRaft.LogStore
import RaftBench.OpenRaft.StateMachineStore
import RaftBench.OpenRaft.Replicas
import RaftBench.OpenRaft.Node
import RaftBench.OpenRaft.Versions
import RaftBench.OpenRaft.ReadModes
import RaftBench.OpenRaft.Service
import RaftBench.OpenRaft.ClusterIncrements
import RaftBench.OpenRaft.RunClosed
import RaftBench.OpenRaft.AppHttp
import RaftBench.Braft.Service
import RaftBench.Sweep.SweepGen
import RaftBench.Sweep.Pipeline
import RaftBench.Sweep.RateSplit
import RaftBench.Braft.CasTool
import RaftBench.Lib.Quantile
import RaftBench.Sweep.MergeBounds
import RaftBench.Braft.PrintSummary
import RaftBench.Sweep.ReadBack
import RaftBench.Lib.Grouping
import RaftBench.Lib.HalfEven
import RaftBench.Sweep.MkCharts
import RaftBench.Sweep.KneeCharts
import RaftBench.Sweep.Loaders
import RaftBench.Lib.GreedyRows
import RaftBench.Sweep.WrapSub
import RaftBench.Sweep.RoundTrips
import RaftBench.Deploy.AssertSafePlan
import RaftBench.Lib.JsonDecoder
import RaftBench.Lib.JsonWriter
import RaftBench.Lib.OrderedMap
import RaftBench.Lib.Consecutive
import RaftBench.Lib.Linearizability
import RaftBench.Lib.LogOrder
import RaftBench.Lib.Occupancy
