import TpuSender.Library.Machine
import TpuSender.Library.Population
import TpuSender.Library.SlidingWindow
import TpuSender.Library.SortedRank
import TpuSender.Library.Chunks
import TpuSender.Library.BlockScan
import TpuSender.Library.LastWins
import TpuSender.Library.FirstOccurrence
import TpuSender.Library.AskUntil
import TpuSender.Engine.Checked
import TpuSender.Engine.RecentLeaderSlots
import TpuSender.Engine.SlotEstimate
import TpuSender.Engine.LeaderTpuCache
import TpuSender.Engine.ClusterSockets
import TpuSender.Engine.LeaderTpuService
import TpuSender.Engine.Alignment
import TpuSender.Engine.SlotTracker
import TpuSender.Engine.RefreshCycle
import TpuSender.Engine.FanoutCoverage
import TpuSender.Engine.SlotWatcher
import TpuSender.Engine.FetchHistory
import TpuSender.Engine.RefreshTiming
import TpuSender.Engine.ServiceTask
import TpuSender.Engine.ServiceLifecycle
import TpuSender.Engine.ScheduleCoverage
import TpuSender.Engine.ServiceStartup
import TpuSender.Quik.TaskSemaphore
import TpuSender.Quik.QuicClient
import TpuSender.Quik.SendBatch
import TpuSender.Quik.BatchPrefix
import TpuSender.Quik.SharedConnection
import TpuSender.Quik.ReconnectHistory
import TpuSender.Quik.WarmingCalls
import TpuSender.Quik.CallBudget
import TpuSender.Quik.SpawnedSends
import TpuSender.Quik.SendsServed
import TpuSender.Engine.BackendTpuClient
import TpuSender.Engine.LeaderFanOut
import TpuSender.Server.Handlers
import TpuSender.Server.BatchOrder
import TpuSender.Server.Delivery
import TpuSender.Server.EndpointAgreement
import TpuSender.Server.RequestTermination
import TpuSender.Server.ServerRefinement
import TpuSender.Server.ServerWrites
import TpuSender.Server.ScheduledWrites
import TpuSender.Server.TimedServer
