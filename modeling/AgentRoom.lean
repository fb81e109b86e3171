import AgentRoom.Properties.GoalDelivery
import AgentRoom.Properties.RecursionLimit
import AgentRoom.Properties.Spending
import AgentRoom.Properties.Resuming
import AgentRoom.Properties.Status
import AgentRoom.Properties.Directives
import AgentRoom.Properties.Modes
import AgentRoom.Properties.ToolDecisions
import AgentRoom.Properties.Compression
import AgentRoom.Properties.Idempotence
import AgentRoom.Properties.Replay
import AgentRoom.Properties.RunEnd
import AgentRoom.Properties.Chunking
import AgentRoom.Properties.Truncation
import AgentRoom.Properties.Reconnect
import AgentRoom.Properties.Confinement
import AgentRoom.Properties.Tenants
import AgentRoom.Properties.Mediation
import AgentRoom.Properties.Tripwire
import AgentRoom.Properties.ConcurrentResumes
import AgentRoom.Properties.InFlight
import AgentRoom.Properties.Transcript
import AgentRoom.Properties.Feedback
import AgentRoom.Properties.ApprovedOnce
import AgentRoom.Properties.Ownership
import AgentRoom.Properties.CompatEndpoint
import AgentRoom.Properties.BudgetScope
import AgentRoom.Properties.Reconcile
import AgentRoom.Properties.EventRoundTrip
import AgentRoom.Properties.CompressionShape
import AgentRoom.Properties.Progress
import AgentRoom.Properties.TurnSafety
import AgentRoom.Properties.StructuredCalls
import AgentRoom.Properties.BudgetTrip
import AgentRoom.Properties.Reseeding
import AgentRoom.Properties.TenantOpens
import AgentRoom.Properties.Eviction
import AgentRoom.Properties.Spilled
import AgentRoom.Properties.SpillBound
import AgentRoom.Properties.SlidingWindow
import AgentRoom.Properties.Grouping
import AgentRoom.Properties.SpillFrame
import AgentRoom.Properties.TextFiles
import AgentRoom.Properties.ToolTruncation
import AgentRoom.Properties.GetStream
import AgentRoom.Properties.Escalation
import AgentRoom.Properties.Office
import AgentRoom.Properties.RecoveredView
import AgentRoom.Properties.WarnMode
import AgentRoom.Properties.ToolPolicy
import AgentRoom.Properties.ShellEnvelope
import AgentRoom.Properties.ClientTrace
import AgentRoom.Properties.FileCalls
import AgentRoom.Properties.Isolation
import AgentRoom.Properties.TaskHistories
import AgentRoom.Properties.SpecProgress
import AgentRoom.Properties.Listing
import AgentRoom.Properties.Header
import AgentRoom.Properties.AtomicSessions
import AgentRoom.Properties.TaskPage
