import ApexPipeline.AdapterBase
import ApexPipeline.AgentWaiting
import ApexPipeline.ArenaAllocator
import ApexPipeline.BacklogExport
import ApexPipeline.BacklogOrder
import ApexPipeline.BroadcastFanout
import ApexPipeline.CircuitPeriods
import ApexPipeline.CleanupMerged
import ApexPipeline.ConnectionHandler
import ApexPipeline.ConsumerPayloadPool
import ApexPipeline.CoreEngineBackpressure
import ApexPipeline.CoreEngineWakeup
import ApexPipeline.FrameExchange
import ApexPipeline.GatewayAuthStates
import ApexPipeline.GatewayRuns
import ApexPipeline.KafkaDispatch
import ApexPipeline.ListenerCounts
import ApexPipeline.MergeGate
import ApexPipeline.MpscBackpressure
import ApexPipeline.PerIpRecency
import ApexPipeline.PgTransaction
import ApexPipeline.PubSubListener
import ApexPipeline.RedisMultiplexer
import ApexPipeline.RefreshRotation
import ApexPipeline.ReplyTopics
import ApexPipeline.RouteTable
import ApexPipeline.SessionSends
import ApexPipeline.SessionTimers
import ApexPipeline.SharedPayload
import ApexPipeline.SlabAccounts
import ApexPipeline.SlidingWindowRate
import ApexPipeline.SlidingWindowScript
import ApexPipeline.SpscInterleaving
import ApexPipeline.SpscMeshFairness
import ApexPipeline.StartPipeline
import ApexPipeline.SuspendedDispatch
import ApexPipeline.TimingWheelIds
import ApexPipeline.WhisperPrivacy
