import WmAutopilot.AccessGrants.ImportGate
import WmAutopilot.AgentChat.AgentConnectImport
import WmAutopilot.AgentChat.AgentInboxAuth
import WmAutopilot.AgentChat.AgentInboxOrigins
import WmAutopilot.AgentChat.DirectChatGuarantees
import WmAutopilot.AgentChat.DirectChatTerminal
import WmAutopilot.Auth.Nip98Guarantees
import WmAutopilot.AccessGrants.Denial
import WmAutopilot.Sessions.CompletedTurnEnqueue
import WmAutopilot.Sessions.CompletedTurnGuarantees
import WmAutopilot.Sessions.CompletedTurnInvariants
import WmAutopilot.Secrets.SecretGuarantees
import WmAutopilot.Server.PromptGuarantees
import WmAutopilot.Signing.Nip98Soundness
import WmAutopilot.Storage.PromptQueueHistory
import WmAutopilot.Merge.Versioned
import WmAutopilot.Heartbeat.RecordSyncConvergence
import WmAutopilot.Heartbeat.RecordSyncDiscipline
import WmAutopilot.Heartbeat.LargeRecordRollback
import WmAutopilot.Heartbeat.FamilyRecovery
import WmAutopilot.Pipelines.ResultWebhook
import WmAutopilot.SessionDispatch.WakeRuns
import WmAutopilot.Security.FilesystemGuarantees
import WmAutopilot.Wallets.TransferGuarantees
import WmAutopilot.Cloudflare.IngressUpdate
import WmAutopilot.Agents.NativeTurnGuarantees
import WmAutopilot.Agents.CodexTranscript
import WmAutopilot.Agents.CodexTranscriptGuarantees
import WmAutopilot.Async.Turns
import WmAutopilot.Consolidation.TaskScan
import WmAutopilot.Consolidation.ScanPages
import WmAutopilot.Consolidation.ScanGuarantees
import WmAutopilot.Consolidation.Reconcile
import WmAutopilot.Consolidation.WriteGuarantees
import WmAutopilot.Wapps.WappRecord
import WmAutopilot.Wapps.RemoteStorageContract
import WmAutopilot.Wapps.RemoteStorageBroker
import WmAutopilot.Wapps.RemoteStorageGuarantees
import WmAutopilot.Js.Fields
import WmAutopilot.Isolation.ProviderPolicy
import WmAutopilot.Isolation.ProviderGuarantees
import WmAutopilot.Pipelines.JevReranker
import WmAutopilot.Pipelines.JevRerankerGuarantees
import WmAutopilot.Pipelines.BirdRetrieval
import WmAutopilot.Pipelines.BirdGuarantees
import WmAutopilot.Pipelines.BlockSnapshots
import WmAutopilot.Pipelines.BlockSnapshotGuarantees
import WmAutopilot.Pipelines.AudioTranscript
import WmAutopilot.Pipelines.AudioTranscriptGuarantees
import WmAutopilot.Pipelines.ActivityGuarantees
import WmAutopilot.Pipelines.PathLens
import WmAutopilot.Pipelines.JumpLoops
import WmAutopilot.Pipelines.JumpLoopGuarantees
import WmAutopilot.Sessions.IsolatedTurns
import WmAutopilot.Sessions.IsolatedTurnGuarantees
import WmAutopilot.Signing.ApplicationSigner
import WmAutopilot.Signing.ApplicationGuarantees
import WmAutopilot.Signing.CapabilityTokenGuarantees
import WmAutopilot.Signing.HostedSiteGuarantees
import WmAutopilot.AgentChat.SessionTurnBridge
import WmAutopilot.AgentChat.SessionTurnGuarantees
import WmAutopilot.AgentChat.SseEvents
import WmAutopilot.AgentChat.DuplicateCallbacks
import WmAutopilot.AgentChat.MessageIntake
import WmAutopilot.AgentChat.MessageIntakeGuarantees
import WmAutopilot.Apps.AppDomainGuarantees
import WmAutopilot.CodeIntelligence.CorpusGuarantees
import WmAutopilot.Rate.SlidingWindow
import WmAutopilot.Signing.CapabilityRate
import WmAutopilot.Signing.CapabilityHandoff
import WmAutopilot.Storage.SessionWorkCutoff
import WmAutopilot.SessionDispatch.WakeAttempts
import WmAutopilot.SessionDispatch.DispatchRecords
import WmAutopilot.Pipelines.RedactionGuarantees
import WmAutopilot.Pipelines.EvidenceGuarantees
import WmAutopilot.Pipelines.CliGuarantees
import WmAutopilot.Signing.PolicyRegistryGuarantees
import WmAutopilot.Signing.KindRuleEvents
import WmAutopilot.Text.Runs
import WmAutopilot.Sessions.SessionMetadataGuarantees
import WmAutopilot.Js.Stable
import WmAutopilot.Skills.SkillDigest
import WmAutopilot.Signing.CapabilityAuthority
