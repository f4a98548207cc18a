import MessagingBench.Affinity.Validation
import MessagingBench.Delivery.Modes
import MessagingBench.Delivery.Ordering
import MessagingBench.Heap.Measure
import MessagingBench.Heap.Reports
import MessagingBench.Heap.Sequential
import MessagingBench.Relay.Ledger
import MessagingBench.Runner.AddDensity
import MessagingBench.Runner.Payload
import MessagingBench.Runner.Planning
import MessagingBench.Runner.PlateauSequence
import MessagingBench.Runner.RejoinCoverage
import MessagingBench.Runner.Removal
import MessagingBench.Runner.Retry
import MessagingBench.Runner.Sampling
import MessagingBench.Signal.Attribution
import MessagingBench.Signal.Density
import MessagingBench.Signal.Outcome
import MessagingBench.Signal.PlateauSequence
import MessagingBench.Signal.PrekeyHistory
import MessagingBench.Signal.SingleUse
import MessagingBench.Signal.Spans
import MessagingBench.Signal.Truthful
import MessagingBench.Worker.Acking
import MessagingBench.Worker.CacheRuns
import MessagingBench.Worker.Effects
import MessagingBench.Worker.Fetches
import MessagingBench.Worker.Idempotence
import MessagingBench.Worker.Membership
import MessagingBench.Worker.ProfileContext
import MessagingBench.Worker.Queueing
import MessagingBench.Worker.ReceiveSequence
import MessagingBench.Worker.Rollback
import MessagingBench.Worker.Sends
