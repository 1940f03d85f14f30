import RabbitJobQueue.Machine.Run
import RabbitJobQueue.Machine.Heap
import RabbitJobQueue.Machine.ThreadPool
import RabbitJobQueue.Machine.Broker
import RabbitJobQueue.Machine.Effect
import RabbitJobQueue.Model.FailureEnforcer
import RabbitJobQueue.Model.Executor
import RabbitJobQueue.Model.ExecutorPool
import RabbitJobQueue.Model.PoolLife
import RabbitJobQueue.Proofs.PoolPrimitives
import RabbitJobQueue.Machine.Chain
import RabbitJobQueue.Proofs.StopExecutors
import RabbitJobQueue.Proofs.Replacement
import RabbitJobQueue.Soundness.PoolSize
import RabbitJobQueue.Proofs.ExecutorList
import RabbitJobQueue.Soundness.StopReach
import RabbitJobQueue.Model.PoolThreads
import RabbitJobQueue.Proofs.PoolThreads
import RabbitJobQueue.Proofs.ThreadRefinement
import RabbitJobQueue.Soundness.ClosingFinal
import RabbitJobQueue.Model.HandlerPool
import RabbitJobQueue.Model.Delivery
import RabbitJobQueue.Model.JobQueue
import RabbitJobQueue.Proofs.JobQueueSteps
import RabbitJobQueue.Proofs.DeliveryHistory
import RabbitJobQueue.Proofs.Custody
import RabbitJobQueue.Proofs.RegisteredHandlers
import RabbitJobQueue.Soundness.AtLeastOnce
import RabbitJobQueue.Soundness.UnstartedJobs
import RabbitJobQueue.Soundness.GracefulStop
import RabbitJobQueue.Soundness.FailureCount
import RabbitJobQueue.Model.JobQueueDispatcher
import RabbitJobQueue.Proofs.DispatcherSteps
import RabbitJobQueue.Proofs.NotificationHistory
import RabbitJobQueue.Soundness.SilentJobs
import RabbitJobQueue.Soundness.SilentNotifications
import RabbitJobQueue.Soundness.SilentConsumption
import RabbitJobQueue.Machine.BinaryRounding
import RabbitJobQueue.Model.Duration
import RabbitJobQueue.Model.QueueWrapper
import RabbitJobQueue.Soundness.PublishChannels
import RabbitJobQueue.Machine.SerialServer
import RabbitJobQueue.Model.TimedExecutor
import RabbitJobQueue.Proofs.DurationProduct
import RabbitJobQueue.Soundness.AckDeadline
import RabbitJobQueue.Machine.SlidingWindow
import RabbitJobQueue.Model.FailurePolicy
import RabbitJobQueue.Proofs.PolicyEnforcers
import RabbitJobQueue.Soundness.FailurePolicies
import RabbitJobQueue.Soundness.HaltDecision
import RabbitJobQueue.Soundness.ReplacementLinks
import RabbitJobQueue.Model.TimedDelivery
import RabbitJobQueue.Proofs.CallbackOrder
import RabbitJobQueue.Soundness.JobTimeLimit
import RabbitJobQueue.Proofs.AckedStages
import RabbitJobQueue.Soundness.HandlerIsolation
import RabbitJobQueue.Model.JsonNode
import RabbitJobQueue.Model.Json
import RabbitJobQueue.Model.JobDispatch
import RabbitJobQueue.Model.Notifications
import RabbitJobQueue.Proofs.JsonFields
import RabbitJobQueue.Soundness.ErrorDecoding
import RabbitJobQueue.Proofs.JsonText
import RabbitJobQueue.Soundness.MessageRoundTrip
import RabbitJobQueue.Soundness.DispatchDecoding
import RabbitJobQueue.Soundness.FailureLimits
import RabbitJobQueue.Model.Config
import RabbitJobQueue.Soundness.ValidatedSettings
import RabbitJobQueue.Proofs.ListOperations
import RabbitJobQueue.Soundness.ExecutorListOrder
import RabbitJobQueue.Proofs.AdditionOrder
import RabbitJobQueue.Soundness.StopOnce
import RabbitJobQueue.Soundness.WindowCount
import RabbitJobQueue.Machine.Quiescence
import RabbitJobQueue.Machine.Schedule
import RabbitJobQueue.Proofs.JobQueueSchedule
import RabbitJobQueue.Proofs.JobQueueWork
import RabbitJobQueue.Soundness.QueueDrains
import RabbitJobQueue.Soundness.MessageAccounts
import RabbitJobQueue.Machine.Refinement
import RabbitJobQueue.Model.JobQueueExecutor
import RabbitJobQueue.Proofs.ExecutorChannels
import RabbitJobQueue.Soundness.ChannelBudget
import RabbitJobQueue.Machine.Registry
import RabbitJobQueue.Model.Deployment
import RabbitJobQueue.Proofs.WrapperCalls
import RabbitJobQueue.Soundness.QueueAgreement
import RabbitJobQueue.Soundness.RefusedQueues
import RabbitJobQueue.Proofs.NotificationCustody
import RabbitJobQueue.Proofs.DispatcherWork
import RabbitJobQueue.Soundness.NotificationsDrain
import RabbitJobQueue.Soundness.StopFinal
import RabbitJobQueue.Model.Exchange
import RabbitJobQueue.Proofs.CarriedMessages
import RabbitJobQueue.Soundness.IntactMessages
import RabbitJobQueue.Proofs.PoolWork
import RabbitJobQueue.Proofs.WaitingThreads
import RabbitJobQueue.Soundness.StopReturns
import RabbitJobQueue.Soundness.PoolPositions
import RabbitJobQueue.Soundness.ThreadDemand
import RabbitJobQueue.Soundness.NestedPolicies
