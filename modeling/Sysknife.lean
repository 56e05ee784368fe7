import Sysknife.Types
import Sysknife.Json
import Sysknife.RequestHash
import Sysknife.Lib.HashChain
import Sysknife.AuditChain
import Sysknife.Lib.Calendar
import Sysknife.Lib.Interaction
import Sysknife.Clock
import Sysknife.Transactions
import Sysknife.StoreInvariant
import Sysknife.ChainInvariant
import Sysknife.Tamper
import Sysknife.PreviewTtl
import Sysknife.StatusRace
import Sysknife.Actions.Spec
import Sysknife.Actions.Validate
import Sysknife.Actions.IpAddr
import Sysknife.Actions.Packages
import Sysknife.Actions.Workloads
import Sysknife.Actions.Host
import Sysknife.Executor
import Sysknife.Lib.Fallible
import Sysknife.ActionTraits
import Sysknife.Preview
import Sysknife.ProfileAgreement
import Sysknife.Lib.Glob
import Sysknife.Sudoers
import Sysknife.Daemon
import Sysknife.HandlerSafety
import Sysknife.ClaimLedger
import Sysknife.Replay
import Sysknife.Completion
import Sysknife.Authorization
import Sysknife.Policy
import Sysknife.Lib.Framing
import Sysknife.Transport
import Sysknife.Approval
import Sysknife.Client
import Sysknife.Wire
import Sysknife.McpExecute
import Sysknife.Runner
import Sysknife.PlanGates
import Sysknife.Redaction
import Sysknife.TerminalReply
import Sysknife.Lib.CallTable
import Sysknife.Lib.TipAppend
import Sysknife.PostgresStore
import Sysknife.Lib.RowLocks
import Sysknife.PostgresStatus
import Sysknife.AuditVerifyRuns
import Sysknife.Lib.PosixShell
import Sysknife.ShellScripts
import Sysknife.ShellState
import Sysknife.ShellBackend
import Sysknife.ShellApp
import Sysknife.Lib.ShellCommand
import Sysknife.PathConfinement
import Sysknife.QueryTools
import Sysknife.Sanitize
import Sysknife.Prompt
import Sysknife.Provider
import Sysknife.ProposePlan
import Sysknife.Planner
import Sysknife.PlannerCalls
import Sysknife.PlannerRun
import Sysknife.PlannerHistory
import Sysknife.PlannerSafety
import Sysknife.AuthorizedKeys
import Sysknife.FreeText
import Sysknife.Lib.Utf8
import Sysknife.AnsiBytes
import Sysknife.FreeTextCut
import Sysknife.Lib.Words
import Sysknife.KernelArguments
import Sysknife.PackageRepoFiles
import Sysknife.GrubKargs
import Sysknife.SetupNames
import Sysknife.Lib.Columns
import Sysknife.Lib.TextTrim
import Sysknife.HistoryText
import Sysknife.StreamedExecution
import Sysknife.ArgvWords
import Sysknife.Lib.ShellAssignment
import Sysknife.GrubEdit
import Sysknife.GrubLines
import Sysknife.ExecutionReview
import Sysknife.Lib.SlidingWindow
import Sysknife.RateLimit
import Sysknife.PrefsFile
import Sysknife.ProposedParams
import Sysknife.ApprovalOrder
import Sysknife.Lib.IntegerText
import Sysknife.Lib.DayCount
import Sysknife.TextSplit
import Sysknife.UnixTime
import Sysknife.AuditTime
import Sysknife.HistorySince
import Sysknife.Lib.Selection
import Sysknife.HistoryQuery
import Sysknife.Lib.FieldRecords
import Sysknife.Journal
import Sysknife.OsRelease
import Sysknife.DistroGuard
import Sysknife.Lib.LastWrite
import Sysknife.CallerRoles
import Sysknife.RollbackRestores
import Sysknife.Connections
import Sysknife.ServerRuns
import Sysknife.ServerRefinement
import Sysknife.ClientReport
import Sysknife.AuditKeyFile
import Sysknife.ProtoBridge
import Sysknife.Lib.Rfc5424
import Sysknife.AuditForward
import Sysknife.Lib.Channel
import Sysknife.ForwardPipeline
import Sysknife.ForwardedRows
import Sysknife.Lib.Dialogue
import Sysknife.ProviderRequests
