import Agenthicc.Background.OwnerTheorems
import Agenthicc.Kernel.ProcessorTheorems
import Agenthicc.Memory.JournaledTheorems
import Agenthicc.Memory.ResumeStateTheorems
import Agenthicc.Subagents.QuestionRuns
import Agenthicc.Memory.CompactionTheorems
import Agenthicc.Memory.PoolLifecycleTheorems
import Agenthicc.Schedules.OverlapTheorems
import Agenthicc.Schedules.TickTheorems
import Agenthicc.Schedules.BackgroundDispatchTheorems
import Agenthicc.Runners.WorkflowClaimTheorems
import Agenthicc.Runners.WorkflowHandleTheorems
import Agenthicc.Runners.SessionLeaseTheorems
import Agenthicc.Background.InboxPublicationTheorems
import Agenthicc.SessionService.RestartTheorems
import Agenthicc.SessionService.LogCompaction
import Agenthicc.SessionService.SubscriptionTheorems
import Agenthicc.Schedules.BackgroundDispatch
import Agenthicc.Tui.SessionLogTheorems
import Agenthicc.Subagents.NarrowingTheorems
import Agenthicc.Background.NotificationTheorems
import Agenthicc.Worktrees.ManifestTheorems
import Agenthicc.Worktrees.OrderTheorems
import Agenthicc.Worktrees.PreservationTheorems
import Agenthicc.Subagents.BackgroundNoticeTheorems
import Agenthicc.Memory.SummarizerTheorems
import Agenthicc.Memory.ToolHistory
import Agenthicc.Memory.ToolHistoryTheorems
import Agenthicc.GoalRuns.ServiceTheorems
import Agenthicc.Background.QueueTheorems
import Agenthicc.Tools.SandboxTheorems
import Agenthicc.Memory.ToolOutputTheorems
import Agenthicc.Tools.HunkTheorems
import Agenthicc.Tools.BatchTheorems
import Agenthicc.Runners.TransportRetryTheorems
import Agenthicc.Runners.LoopSchedulerTheorems
import Agenthicc.Tools.PatchFileTheorems
import Agenthicc.Workflows.PhaseLifecycleTheorems
import Agenthicc.Tui.DiffRendererTheorems
import Agenthicc.Tui.KeymapTheorems
import Agenthicc.Tui.KeyEventTheorems
import Agenthicc.Tui.TranscriptTheorems
import Agenthicc.Tui.TranscriptCoverTheorems
import Agenthicc.Tui.SessionInspectTheorems
import Agenthicc.Subagents.TranscriptWriterTheorems
