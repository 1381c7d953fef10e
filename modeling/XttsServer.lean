import XttsServer.Foundations.Transition
import XttsServer.Foundations.Refinement
import XttsServer.Foundations.Liveness
import XttsServer.Foundations.Base64
import XttsServer.Foundations.Sums
import XttsServer.Foundations.Station
import XttsServer.Foundations.Words
import XttsServer.Foundations.Dict
import XttsServer.Foundations.LeastLoaded
import XttsServer.Foundations.Balance
import XttsServer.Foundations.Ledger
import XttsServer.Foundations.Executor
import XttsServer.Foundations.Route
import XttsServer.Foundations.FileTree
import XttsServer.Foundations.Effects
import XttsServer.Model.Requests
import XttsServer.Model.JobStore
import XttsServer.Model.Dispatcher
import XttsServer.Model.State
import XttsServer.Model.Settings
import XttsServer.Model.Submission
import XttsServer.Model.Tasks
import XttsServer.Model.Step
import XttsServer.Model.Shutdown
import XttsServer.Model.Responses
import XttsServer.Model.SystemInfo
import XttsServer.Model.Worker
import XttsServer.Model.Pool
import XttsServer.Model.Deployment
import XttsServer.Model.Paths
import XttsServer.Model.Speakers
import XttsServer.Model.SpeakerServer
import XttsServer.Model.Seeding
import XttsServer.Model.SeedScript
import XttsServer.Model.Clones
import XttsServer.Model.Changes
import XttsServer.Model.Splitting
import XttsServer.Runs.Traces
import XttsServer.Runs.Flow
import XttsServer.Runs.Placement
import XttsServer.Runs.Slots
import XttsServer.Runs.Calls
import XttsServer.Runs.Accounting
import XttsServer.Runs.Delivery
import XttsServer.Runs.Shutdown
import XttsServer.Guarantees.Shutdown
import XttsServer.Runs.Worker
import XttsServer.Runs.Lifecycle
import XttsServer.Runs.Records
import XttsServer.Runs.Progress
import XttsServer.Runs.Advance
import XttsServer.Runs.Chores
import XttsServer.Runs.Responses
import XttsServer.Runs.Work
import XttsServer.Runs.Deployment
import XttsServer.Runs.Streams
import XttsServer.Runs.Threads
import XttsServer.Runs.Downloads
import XttsServer.Runs.Files
import XttsServer.Runs.SpeakerFiles
import XttsServer.Runs.SpeakerViews
import XttsServer.Runs.SpeakerWrites
import XttsServer.Runs.Speakers
import XttsServer.Runs.Clones
import XttsServer.Runs.Seeding
import XttsServer.Guarantees.Slots
import XttsServer.Guarantees.Endpoints
import XttsServer.Guarantees.Dispatch
import XttsServer.Guarantees.Balance
import XttsServer.Guarantees.Batches
import XttsServer.Guarantees.Statuses
import XttsServer.Guarantees.Topology
import XttsServer.Guarantees.Worker
import XttsServer.Guarantees.Streams
import XttsServer.Guarantees.Completion
import XttsServer.Guarantees.Failures
import XttsServer.Guarantees.Backlog
import XttsServer.Guarantees.Lifecycle
import XttsServer.Guarantees.Records
import XttsServer.Guarantees.Recovery
import XttsServer.Guarantees.Backpressure
import XttsServer.Guarantees.Downloads
import XttsServer.Guarantees.Eviction
import XttsServer.Guarantees.Files
import XttsServer.Guarantees.Progress
import XttsServer.Guarantees.SpeakerPaths
import XttsServer.Guarantees.SpeakerNames
import XttsServer.Guarantees.DryRun
import XttsServer.Guarantees.Slugs
import XttsServer.Guarantees.SpeakerDeletion
import XttsServer.Guarantees.SpeakerCache
import XttsServer.Guarantees.SpeakerCrash
import XttsServer.Guarantees.Clones
import XttsServer.Guarantees.Seeding
import XttsServer.Guarantees.Singles
import XttsServer.Guarantees.SpeakerFailures
import XttsServer.Guarantees.Responses
import XttsServer.Guarantees.Liveness
import XttsServer.Guarantees.Deployment
import XttsServer.Runs.Station
import XttsServer.Runs.SystemInfo
import XttsServer.Guarantees.SystemInfo
import XttsServer.Model.Cleanup
import XttsServer.Runs.Cleanup
import XttsServer.Guarantees.Retention
