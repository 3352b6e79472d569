import OpenCollabEval.Evaluation.Pairing
import OpenCollabEval.Python.Path
import OpenCollabEval.Python.Shlex
import OpenCollabEval.Python.JsonText
import OpenCollabEval.Evaluation.RuntimeDependencies
import OpenCollabEval.Evaluation.ReaderAgreement
import OpenCollabEval.Evaluation.DependencyAgreement
import OpenCollabEval.Python.JsonLoads
import OpenCollabEval.Queue.LaunchBudget
import OpenCollabEval.Checkpoint.Failure
import OpenCollabEval.Generation.WorkspaceConfinement
import OpenCollabEval.Injection.AllOrNothing
import OpenCollabEval.Python.JsonRoundTrip
import OpenCollabEval.Queue.Verdicts
import OpenCollabEval.Evaluation.ProjectionRuns
import OpenCollabEval.Evaluation.Discovery
import OpenCollabEval.Provider.SlotBounds
import OpenCollabEval.Provider.SlotReuse
import OpenCollabEval.SafeFiles.AtomicPublication
import OpenCollabEval.Sampling.Apportionment
import OpenCollabEval.Sampling.CappedShares
import OpenCollabEval.Sampling.Draw
import OpenCollabEval.Sampling.HeadCap
import OpenCollabEval.Evaluation.AttemptBudget
import OpenCollabEval.Evaluation.ReconciledReports
import OpenCollabEval.Generation.StartBudget
import OpenCollabEval.Python.Conversion
import OpenCollabEval.Python.JsonUnescaped
import OpenCollabEval.Controller.RunnerConfig
import OpenCollabEval.Controller.RunnerSummary
import OpenCollabEval.Controller.SummaryRecovery
import OpenCollabEval.Python.Utf8
import OpenCollabEval.Python.JsonUnescapedRead
import OpenCollabEval.Python.ByteLines
import OpenCollabEval.Records.LogReading
import OpenCollabEval.Records.TornAppend
import OpenCollabEval.Batches.CellClosure
import OpenCollabEval.Recovery.RecoveryBinding
import OpenCollabEval.Contract.PytestBatches
import OpenCollabEval.Progress.Piecewise
import OpenCollabEval.Evidence.PytestExclusion
import OpenCollabEval.Evidence.GoAttribution
import OpenCollabEval.ChatStream.Escapes
import OpenCollabEval.Evidence.JavaScriptExclusion
import OpenCollabEval.Sampling.CappedProportions
import OpenCollabEval.Sampling.SeatConservation
import OpenCollabEval.Evaluation.BudgetAccounts
import OpenCollabEval.Injection.NumstatListing
import OpenCollabEval.Evaluation.MetricOrder
import OpenCollabEval.Order.Matching
import OpenCollabEval.Order.Pairing
import OpenCollabEval.Order.AugmentingSearch
import OpenCollabEval.Messaging.SentTargets
import OpenCollabEval.Messaging.SendFloor
import OpenCollabEval.Python.JsonCut
import OpenCollabEval.Generation.TrajectoryIdentity
import OpenCollabEval.Generation.TrajectoryVerdict
import OpenCollabEval.Python.PatternMatch
import OpenCollabEval.Evaluation.ReporterRows
import OpenCollabEval.Evaluation.ReporterForest
import OpenCollabEval.Evaluation.ReporterLines
import OpenCollabEval.Evaluation.ReporterBodies
import OpenCollabEval.Evaluation.JestLog
import OpenCollabEval.Evaluation.MochaLog
import OpenCollabEval.Evaluation.ReporterReadback
import OpenCollabEval.Python.FloatArithmetic
import OpenCollabEval.Order.Sightings
import OpenCollabEval.Evaluation.SpendRecords
import OpenCollabEval.Evaluation.SpendAssignment
import OpenCollabEval.Python.Runs
import OpenCollabEval.Evaluation.SpendCharges
import OpenCollabEval.Evaluation.SpendOnce
import OpenCollabEval.Python.JsonRespaced
import OpenCollabEval.ChatStream.Framing
import OpenCollabEval.ChatStream.SameDeltas
import OpenCollabEval.ChatStream.Rechunking
import OpenCollabEval.Python.JsonEquality
import OpenCollabEval.ChatStream.ChunkAgreement
import OpenCollabEval.Posix.HardLinks
import OpenCollabEval.Python.Glob
import OpenCollabEval.Python.JsonRest
import OpenCollabEval.Quarantine.Marker
import OpenCollabEval.Quarantine.Machine
import OpenCollabEval.Quarantine.Exclusion
import OpenCollabEval.Quarantine.Retirement
import OpenCollabEval.Python.JsonExtend
import OpenCollabEval.Records.DurableOnce
import OpenCollabEval.Records.Publication
import OpenCollabEval.Records.PublishedOnce
import OpenCollabEval.Concurrency.Program
import OpenCollabEval.Concurrency.RelyGuarantee
import OpenCollabEval.Ownership.Containers
import OpenCollabEval.Ownership.Interference
import OpenCollabEval.Ownership.Operations
