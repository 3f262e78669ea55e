import RsRun.Lib.Lts
import RsRun.PendingFuture.ModeTime
import RsRun.PendingFuture.ModeRatelimiter
import RsRun.PendingFuture.ModeCount
import RsRun.PendingFuture.Samples
import RsRun.Lib.Throttle
import RsRun.Proof.Throttled
import RsRun.Proof.Wakeup
import RsRun.Lib.TokenBucket
import RsRun.PendingFuture.LimiterSystem
import RsRun.Proof.RateBound
import RsRun.Error
import RsRun.Lib.Sync
import RsRun.RepeatedTask
import RsRun.TaskSystem
import RsRun.Proof.Lifecycle
import RsRun.Proof.Barrier
import RsRun.Proof.Cancel
import RsRun.Global
import RsRun.GlobalSystem
import RsRun.Proof.Closures
import RsRun.Proof.Configure
import RsRun.Proof.FailedInit
import RsRun.Proof.WholeCalls
import RsRun.Proof.Ignored
import RsRun.ExecutorSystem
import RsRun.Lib.RefCount
import RsRun.Proof.KeepsExecutor
import RsRun.Lib.Cadence
import RsRun.Lib.Polls
import RsRun.Proof.CountMoves
import RsRun.Proof.CountCadence
import RsRun.Proof.CountOrder
import RsRun.Lib.Intervals
import RsRun.Proof.CpuRate
import RsRun.Lib.Meter
import RsRun.Proof.TimeMoves
import RsRun.Proof.Conservation
import RsRun.Proof.TimeOrder
import RsRun.Lib.Pacing
import RsRun.Proof.Schedule
import RsRun.Proof.NoOrphan
import RsRun.BlockerSystem
import RsRun.Proof.DeadRuntime
import RsRun.Lib.Window
import RsRun.PendingFuture.RecordTable
import RsRun.Proof.Records
import RsRun.Proof.NoneLost
import RsRun.Proof.LimiterMoves
import RsRun.PendingFuture.HandleSystem
import RsRun.Proof.HandleMoves
import RsRun.Proof.StopFlag
import RsRun.Proof.BackoffCounter
import RsRun.Proof.PendingCount
import RsRun.Proof.CountRange
import RsRun.Proof.LimiterRange
import RsRun.Proof.CounterRange
import RsRun.Proof.Unthrottled
import RsRun.Proof.Transparency
import RsRun.Lib.Held
import RsRun.Lib.Pool
import RsRun.Lib.Simulation
import RsRun.Proof.Held
import RsRun.Lib.HeldPool
import RsRun.Lib.PoolRefines
import RsRun.Lib.PoolReplays
import RsRun.PendingFuture.SpawnSystem
import RsRun.Proof.Spawned
import RsRun.Lib.History
import RsRun.Lib.Owed
import RsRun.Lib.Slept
import RsRun.Proof.SpawnedWakes
import RsRun.Proof.CountPace
import RsRun.Proof.TimePace
import RsRun.Lib.Heap
import RsRun.OwnerSystem
import RsRun.Proof.Owners
import RsRun.Proof.GlobalOwners
import RsRun.Proof.HeldBack
import RsRun.Lib.Scheduled
import RsRun.PollSystem
import RsRun.Proof.PolledLoops
import RsRun.Proof.LoopWakes
import RsRun.Proof.LoopReplays
import RsRun.Lib.Gauges
import RsRun.Metrics
import RsRun.ThreadSystem
import RsRun.Proof.ThreadGauges
import RsRun.Proof.ThreadsShut
