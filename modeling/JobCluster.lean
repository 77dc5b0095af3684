import JobCluster.Table
import JobCluster.Text.Natural
import JobCluster.Json.Printer
import JobCluster.Json.Parser
import JobCluster.Settings
import JobCluster.Job.Record
import JobCluster.Instance.Basic
import JobCluster.Exchange.Route
import JobCluster.Codec.Job
import JobCluster.Codec.Instance
import JobCluster.Codec.Exchange
import JobCluster.Job.Store
import JobCluster.Job.Todo
import JobCluster.Coordination.Heartbeats
import JobCluster.Coordination.Lease
import JobCluster.Exchange.Registry
import JobCluster.Instance.Store
import JobCluster.Instance.Command
import JobCluster.Transaction.Resource
import JobCluster.Transaction.Manager
import JobCluster.Transaction.Basic
import JobCluster.Cluster.Lifecycle
import JobCluster.Session.Answer
import JobCluster.Session.Coordination
import JobCluster.Session.Store
import JobCluster.Session.Exchange
import JobCluster.Session.Instance
import JobCluster.Session.Scheduling
import JobCluster.Session.Todo
import JobCluster.Session.Transaction
import JobCluster.Session.Basic
import JobCluster.Proofs.Counting
import JobCluster.Proofs.Transaction.Completion
import JobCluster.Proofs.Transaction.Course
import JobCluster.Proofs.Cluster.Frame
import JobCluster.Proofs.Job.Interleaving
import JobCluster.Proofs.Job.SingleCommit
import JobCluster.Proofs.Job.ClaimFence
import JobCluster.Proofs.Job.WholeRun
import JobCluster.Proofs.Job.Attempt
import JobCluster.Proofs.Cluster.Apart
import JobCluster.Proofs.Cluster.Work
import JobCluster.Proofs.Cluster.Underway
import JobCluster.Proofs.Cluster.Undoing
import JobCluster.Proofs.Cluster.Timeouts
import JobCluster.Proofs.Exchange.Standing
import JobCluster.Proofs.Cluster.Effect
import JobCluster.Proofs.Cluster.Interplay
import JobCluster.Proofs.Cluster.Enactment
import JobCluster.Proofs.Cluster.Bookkeeping
import JobCluster.Proofs.Job.Staged
import JobCluster.Proofs.Instance.Draft
import JobCluster.Proofs.Instance.Finished
import JobCluster.Proofs.Exchange.Compensation
import JobCluster.Proofs.Job.FailedRun
import JobCluster.Proofs.Exchange.Books
import JobCluster.Proofs.Coordination.Election
import JobCluster.Proofs.Coordination.Pulse
import JobCluster.Proofs.Instance.Committed
import JobCluster.Proofs.Job.Visibility
import JobCluster.Proofs.Job.Copies
import JobCluster.Proofs.Job.Dispatch
import JobCluster.Proofs.Job.OnePlace
import JobCluster.Proofs.Exchange.Dealings
import JobCluster.Proofs.Exchange.Outcome
import JobCluster.Proofs.Exchange.Timeliness
import JobCluster.Proofs.Exchange.Eviction
import JobCluster.Proofs.Exchange.Pipeline
import JobCluster.Proofs.Instance.Isolation
import JobCluster.Proofs.Exchange.CleanUp
import JobCluster.Proofs.Instance.Ending
import JobCluster.Proofs.Cluster.Ownership
import JobCluster.Proofs.Exchange.Routing
import JobCluster.Proofs.Job.Passage
import JobCluster.Proofs.Job.Tally
import JobCluster.Proofs.Instance.Command
import JobCluster.Proofs.Instance.AllOrNothing
import JobCluster.Proofs.Instance.KeyUpdate
import JobCluster.Proofs.Json.RoundTrip
import JobCluster.Proofs.Codec.RoundTrip
import JobCluster.Proofs.Job.Upkeep
import JobCluster.Proofs.Job.OneCopy
import JobCluster.Proofs.Job.Agenda
import JobCluster.Proofs.Job.Punctual
import JobCluster.Proofs.Job.Stray
import JobCluster.Proofs.Job.Fleet
import JobCluster.Proofs.Job.Cancellation
import JobCluster.Proofs.Job.WaitingLine
import JobCluster.Proofs.Coordination.Recovery
import JobCluster.Proofs.Cluster.Lasting
import JobCluster.Proofs.Job.Settlement
import JobCluster.Proofs.Job.DueJobs
import JobCluster.Proofs.Job.StoreHistory
import JobCluster.Proofs.Coordination.Dealing
import JobCluster.Proofs.Job.LoadPass
import JobCluster.Proofs.Job.Idling
import JobCluster.Proofs.Job.Outstanding
