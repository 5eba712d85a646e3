import HarnessControl.State.DispatchEvidence
import HarnessControl.State.Rollback
import HarnessControl.Harnesses.Publication
import HarnessControl.Harnesses.Recording
import HarnessControl.Harnesses.ExecutionRuns
import HarnessControl.Connection.Delivery
import HarnessControl.Connection.SnapshotConsumer
import HarnessControl.Sdk.ConversationInventory
import HarnessControl.Connection.LocalActionAnswers
import HarnessControl.Harnesses.NativeOutcomes
import HarnessControl.LocalActions.CapabilityLeaseRuns
import HarnessControl.Sdk.CommandOutcomes
import HarnessControl.Harnesses.RetirementRuns
import HarnessControl.Codex.GoalFollowing
import HarnessControl.Sdk.NativeSessionOwnership
import HarnessControl.Codex.RootAdmission
import HarnessControl.LocalActions.CapturedOutput
import HarnessControl.LocalActions.PatchCompleteness
import HarnessControl.LocalActions.PatchFrame
import HarnessControl.OpenCode.PermissionDecisions
import HarnessControl.Harnesses.RuntimePoolRuns
import HarnessControl.Connection.DuplicateCommands
import HarnessControl.Codex.RpcRuns
import HarnessControl.Codex.RootUsageRuns
import HarnessControl.LocalActions.WorkspaceListing
import HarnessControl.OpenCode.TextStreaming
import HarnessControl.OpenCode.EventStreamChunks
import HarnessControl.Harnesses.ContentRuns
import HarnessControl.Sdk.HydrationBounds
import HarnessControl.Protocol.AccountProjection
import HarnessControl.Protocol.ReducerLimit
import HarnessControl.Harnesses.InputFileRecovery
import HarnessControl.Mcp.RedactionSecrecy
import HarnessControl.OpenCode.ControlledReferences
import HarnessControl.Mcp.RequestProofs
import HarnessControl.Accounts.UsageReaderRuns
import HarnessControl.Workspaces.BrowsePages
import HarnessControl.Codex.McpContinuationRuns
import HarnessControl.Mcp.AttachmentCalls
import HarnessControl.Harnesses.NativeFormAgreement
import HarnessControl.Harnesses.PortableHistoryTotality
import HarnessControl.Harnesses.McpDispatch
import HarnessControl.Harnesses.Injections
