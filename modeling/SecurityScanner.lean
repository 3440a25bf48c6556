import SecurityScanner.Analysis.AnomalyGate
import SecurityScanner.Analysis.ArrivalOrder
import SecurityScanner.Analysis.CurlCommand
import SecurityScanner.Analysis.DiffEngine
import SecurityScanner.Analysis.FieldDiff
import SecurityScanner.Analysis.FlatKeys
import SecurityScanner.Analysis.FlushReport
import SecurityScanner.Analysis.FlushRuns
import SecurityScanner.Analysis.HtmlReport
import SecurityScanner.Analysis.IssueCauses
import SecurityScanner.Analysis.IssueClassifier
import SecurityScanner.Analysis.JsonLeaves
import SecurityScanner.Analysis.Models
import SecurityScanner.Analysis.ReportMarkup
import SecurityScanner.Analysis.ReportService
import SecurityScanner.Analysis.ReportTotality
import SecurityScanner.Analysis.ResultCollector
import SecurityScanner.Analysis.RoleSwaps
import SecurityScanner.Analysis.StringClaims
import SecurityScanner.Api.AccessControl
import SecurityScanner.Api.Accounts
import SecurityScanner.Api.AttemptCounts
import SecurityScanner.Api.Auth
import SecurityScanner.Api.Bootstrap
import SecurityScanner.Api.EarnedCalls
import SecurityScanner.Api.RefreshRace
import SecurityScanner.Api.RequestBudget
import SecurityScanner.Api.RequestLimit
import SecurityScanner.Api.ScanCharts
import SecurityScanner.Api.ScanDeletion
import SecurityScanner.Api.ScanEvents
import SecurityScanner.Api.Submission
import SecurityScanner.Api.TokenHistory
import SecurityScanner.Api.TokenProtocol
import SecurityScanner.Api.WirePayload
import SecurityScanner.Discovery.Bridges
import SecurityScanner.Discovery.OpenApiParser
import SecurityScanner.Discovery.ParserEntries
import SecurityScanner.Discovery.ParserTotality
import SecurityScanner.Discovery.PathNormalization
import SecurityScanner.Discovery.ReferenceFree
import SecurityScanner.Discovery.References
import SecurityScanner.Discovery.Targets
import SecurityScanner.Executor.AdaptiveRate
import SecurityScanner.Executor.BucketRefinement
import SecurityScanner.Executor.Capacity
import SecurityScanner.Executor.Classification
import SecurityScanner.Executor.DeadLetters
import SecurityScanner.Executor.DelayedQueue
import SecurityScanner.Executor.Delivery
import SecurityScanner.Executor.FinalVerdict
import SecurityScanner.Executor.Lifecycle
import SecurityScanner.Executor.Movers
import SecurityScanner.Executor.Persistence
import SecurityScanner.Executor.PositiveLimits
import SecurityScanner.Executor.RateCharges
import SecurityScanner.Executor.RateLimiter
import SecurityScanner.Executor.Recording
import SecurityScanner.Executor.ReportRace
import SecurityScanner.Executor.RetryInvariant
import SecurityScanner.Executor.RetryLoop
import SecurityScanner.Executor.RetryProgress
import SecurityScanner.Executor.RetryProtocol
import SecurityScanner.Executor.RetryRuns
import SecurityScanner.Executor.Runtime
import SecurityScanner.Executor.ScanSafety
import SecurityScanner.Executor.Shutdown
import SecurityScanner.Executor.StoredTasks
import SecurityScanner.Executor.TaskQueue
import SecurityScanner.Executor.TokenBucket
import SecurityScanner.Executor.TransientFaults
import SecurityScanner.Executor.WorkerInvariant
import SecurityScanner.Executor.WorkerPool
import SecurityScanner.Executor.WorkerProtocol
import SecurityScanner.Lib.Binary64
import SecurityScanner.Lib.Credits
import SecurityScanner.Lib.DateTime
import SecurityScanner.Lib.Difflib
import SecurityScanner.Lib.Fallible
import SecurityScanner.Lib.FirstWins
import SecurityScanner.Lib.Grouping
import SecurityScanner.Lib.Html
import SecurityScanner.Lib.HtmlTemplate
import SecurityScanner.Lib.JavaScript
import SecurityScanner.Lib.Joining
import SecurityScanner.Lib.JsonPointer
import SecurityScanner.Lib.JsonRoundTrip
import SecurityScanner.Lib.JsonText
import SecurityScanner.Lib.Metering
import SecurityScanner.Lib.NumberTexts
import SecurityScanner.Lib.ObjectLookup
import SecurityScanner.Lib.Program
import SecurityScanner.Lib.Python
import SecurityScanner.Lib.Refinement
import SecurityScanner.Lib.Rounding
import SecurityScanner.Lib.RunLogic
import SecurityScanner.Lib.Segments
import SecurityScanner.Lib.SortedSet
import SecurityScanner.Lib.Table
import SecurityScanner.Lib.TextSearch
import SecurityScanner.Lib.ThreadPool
import SecurityScanner.Mutation.BodyTexts
import SecurityScanner.Mutation.Changes
import SecurityScanner.Mutation.Duplicates
import SecurityScanner.Mutation.EditedObjects
import SecurityScanner.Mutation.Engine
import SecurityScanner.Mutation.FieldMutators
import SecurityScanner.Mutation.Fingerprints
import SecurityScanner.Mutation.FuzzTasks
import SecurityScanner.Mutation.Kept
import SecurityScanner.Mutation.LocalChanges
import SecurityScanner.Mutation.MutationTotality
import SecurityScanner.Mutation.ObjectEdits
import SecurityScanner.Mutation.PathMutator
import SecurityScanner.Mutation.PathParts
import SecurityScanner.Mutation.PathRewrites
import SecurityScanner.Mutation.PathScope
import SecurityScanner.Mutation.PathTexts
import SecurityScanner.Mutation.RepeatedTexts
import SecurityScanner.Mutation.Repetitions
import SecurityScanner.Mutation.Severity
import SecurityScanner.Mutation.StoredTasks
