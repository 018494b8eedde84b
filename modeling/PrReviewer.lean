import PrReviewer.Lib.Table
import PrReviewer.Lib.Run
import PrReviewer.Lib.Program
import PrReviewer.Lib.Sessions
import PrReviewer.Lib.Python
import PrReviewer.Lib.Scan
import PrReviewer.Lib.Text
import PrReviewer.Lib.JsonText
import PrReviewer.Lib.JsonRoundTrip
import PrReviewer.Lib.JsonCharacters
import PrReviewer.Contracts
import PrReviewer.Hosted.Schema
import PrReviewer.Hosted.RepositoryPolicy
import PrReviewer.Hosted.ReviewJobs
import PrReviewer.Hosted.RunnerJobs
import PrReviewer.Hosted.ReviewProjection
import PrReviewer.Hosted.Statements
import PrReviewer.Hosted.Machine
import PrReviewer.Hosted.StatusFinality
import PrReviewer.Hosted.Acknowledgements
import PrReviewer.Hosted.LeaseExclusivity
import PrReviewer.Hosted.ActiveJobs
import PrReviewer.Hosted.PushIsolation
import PrReviewer.Hosted.Attempts
import PrReviewer.Hosted.TokenAgreement
import PrReviewer.Workflow.Engine
import PrReviewer.Hosted.ErrorClasses
import PrReviewer.Hosted.WebhookPayload
import PrReviewer.Hosted.Webhook
import PrReviewer.Hosted.Redelivery
import PrReviewer.Hosted.DraftDeliveries
import PrReviewer.Runner.Wire
import PrReviewer.Runner.Client
import PrReviewer.Runner.LocalStore
import PrReviewer.Runner.Daemon
import PrReviewer.Runner.Rules
import PrReviewer.Runner.Runs
import PrReviewer.Runner.StoredResults
import PrReviewer.Runner.CompleteJob
import PrReviewer.Runner.PollLoop
import PrReviewer.Runner.Recover
import PrReviewer.Runner.Watch
import PrReviewer.Runner.Revocation
import PrReviewer.Runner.RefusedTokens
import PrReviewer.System.Network
import PrReviewer.System.Landing
import PrReviewer.System.SpentTokens
import PrReviewer.System.LiveLease
import PrReviewer.System.Recovery
import PrReviewer.System.LeaseWord
import PrReviewer.Worker.Main
import PrReviewer.Worker.Shutdown
import PrReviewer.Worker.Ownership
import PrReviewer.Worker.Fleet
import PrReviewer.Hosted.Pairing
import PrReviewer.Hosted.PairingSafety
import PrReviewer.Hosted.PairingExchange
import PrReviewer.Hosted.PairingLifetime
import PrReviewer.Hosted.RunnerCredentials
import PrReviewer.Hosted.Budget
import PrReviewer.Hosted.BudgetSessions
import PrReviewer.Hosted.BudgetSafety
import PrReviewer.Hosted.BudgetReservations
import PrReviewer.Hosted.ReviewRecords
import PrReviewer.Hosted.Retention
import PrReviewer.Hosted.RecordChanges
import PrReviewer.Hosted.PushThenRead
import PrReviewer.Hosted.VerifiedLabels
import PrReviewer.Runner.LocalDatabase
import PrReviewer.Runner.LocalRetention
import PrReviewer.Runner.LocalFile
import PrReviewer.Runner.LocalFileRecovery
import PrReviewer.Security.PromptBoundaries
import PrReviewer.Github.PullRequest
import PrReviewer.Github.PostReview
import PrReviewer.Github.PostHistories
import PrReviewer.Github.Submissions
import PrReviewer.Notifications.Gate
import PrReviewer.Retrieval.ChunkCode
import PrReviewer.Retrieval.Identities
import PrReviewer.Retrieval.IndexRepository
import PrReviewer.Retrieval.Generations
import PrReviewer.LocalStore.Columns
import PrReviewer.LocalStore.RoundTrip
import PrReviewer.Retrieval.IndexAnyTree
import PrReviewer.Reviewer.ReviewContext
import PrReviewer.Reviewer.RenderedLines
import PrReviewer.Reviewer.NewSideLines
import PrReviewer.Reviewer.ChangeSize
import PrReviewer.Reviewer.GreedyPartition
import PrReviewer.Reviewer.PackReturns
import PrReviewer.Reviewer.ReviewPullRequest
import PrReviewer.Reviewer.HunkFormat
import PrReviewer.Reviewer.DiffBudget
import PrReviewer.Reviewer.PatchText
import PrReviewer.Runner.RepositoryFallback
import PrReviewer.Reviewer.Coverage
import PrReviewer.Workflow.Store
import PrReviewer.Workflow.SimpleEngine
import PrReviewer.Workflow.LangGraphEngine
import PrReviewer.Workflow.Histories
import PrReviewer.Workflow.Progress
import PrReviewer.Workflow.CrashResume
import PrReviewer.Workflow.Reclaim
import PrReviewer.Verification.StaticChecks
import PrReviewer.Lib.Selection
import PrReviewer.Reviewer.Candidates
import PrReviewer.Reviewer.Packing
import PrReviewer.Lib.Clusters
import PrReviewer.Reviewer.AggregateFindings
import PrReviewer.Reviewer.MergedFindings
import PrReviewer.Reviewer.ArrivalOrder
import PrReviewer.Observability.Redaction
import PrReviewer.Observability.Trace
import PrReviewer.Observability.CausalOrder
import PrReviewer.Reviewer.RealNumbers
import PrReviewer.Lib.JsonPaths
import PrReviewer.Observability.MaskedValues
import PrReviewer.Observability.KeyWords
import PrReviewer.Web.DashboardEvents
import PrReviewer.Lib.Regex
import PrReviewer.Connectors.AuditRedaction
import PrReviewer.Lib.BoundedSearch
import PrReviewer.Retrieval.CodeGraph
import PrReviewer.Retrieval.ChunkLines
import PrReviewer.Lib.FirstFit
import PrReviewer.Evals.MatchFindings
import PrReviewer.LocalStore.JobBudget
import PrReviewer.Lib.RetryLoop
import PrReviewer.Reliability.Retry
import PrReviewer.Notifications.Dispatch
import PrReviewer.Lib.Windows
import PrReviewer.Retrieval.WindowCover
import PrReviewer.Lib.Dict
import PrReviewer.Retrieval.RankFusion
import PrReviewer.Lib.Cells
import PrReviewer.Evals.Calibration
import PrReviewer.Runner.Update
import PrReviewer.Containers.Docker
import PrReviewer.Verification.DockerSandbox
import PrReviewer.Lib.Answers
import PrReviewer.Lib.TextMode
import PrReviewer.Runner.Secrets
import PrReviewer.Lib.DecimalText
import PrReviewer.Models.Provider
import PrReviewer.LocalStore.RepoConfig
import PrReviewer.LocalStore.ConfigFrames
import PrReviewer.Lib.Records
import PrReviewer.Tui.AutoReview
import PrReviewer.Lib.Bytes
import PrReviewer.Lib.IntDict
import PrReviewer.Hosted.LiveSignIn
import PrReviewer.Hosted.InstallationAccess
import PrReviewer.Db.MigrationOrder
import PrReviewer.Lib.Tickets
import PrReviewer.Hosted.SignIn
import PrReviewer.Hosted.SignInSafety
import PrReviewer.Lib.JsonLines
import PrReviewer.Evals.HoldoutSheet
import PrReviewer.Evals.SheetRoundTrip
import PrReviewer.Lib.Prompts
import PrReviewer.Evals.ReviewSheet
import PrReviewer.Evals.ReviewSessions
import PrReviewer.Evals.ReviewedSheets
