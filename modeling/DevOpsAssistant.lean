import DevOpsAssistant.Accounts.Passwords
import DevOpsAssistant.Artifacts.Views
import DevOpsAssistant.Chat.Protocol
import DevOpsAssistant.Chat.Scopes
import DevOpsAssistant.Commands.Sequencing
import DevOpsAssistant.Dashboard.Activity
import DevOpsAssistant.Dashboard.Findings
import DevOpsAssistant.Frontend.BackendUrl
import DevOpsAssistant.Frontend.DownloadName
import DevOpsAssistant.Frontend.ListQuery
import DevOpsAssistant.Frontend.Parallel
import DevOpsAssistant.Frontend.ReturnUrl
import DevOpsAssistant.Frontend.Slugs
import DevOpsAssistant.Frontend.StreamReader
import DevOpsAssistant.Generators.TestCommands
import DevOpsAssistant.Jobs.Effects
import DevOpsAssistant.Jobs.Replays
import DevOpsAssistant.Limits.Identity
import DevOpsAssistant.Limits.Windows
import DevOpsAssistant.Organizations.ActiveInvitations
import DevOpsAssistant.Organizations.Conflicts
import DevOpsAssistant.Organizations.Frozen
import DevOpsAssistant.Organizations.Provenance
import DevOpsAssistant.Policies.PinnedActions
import DevOpsAssistant.Policies.Registries
import DevOpsAssistant.Providers.Attempts
import DevOpsAssistant.Providers.Failures
import DevOpsAssistant.Providers.Fallback
import DevOpsAssistant.Providers.PrivateTargets
import DevOpsAssistant.Providers.ScopedKeys
import DevOpsAssistant.Providers.WrittenSettings
import DevOpsAssistant.Reviews.Supplement
import DevOpsAssistant.Reviews.Totality
import DevOpsAssistant.Services.BestEffort
import DevOpsAssistant.Services.LlmBase
import DevOpsAssistant.Services.LogSignals
import DevOpsAssistant.Sessions.LostEvents
import DevOpsAssistant.Sessions.Revoked
import DevOpsAssistant.Tokens.SingleUse
import DevOpsAssistant.Utils.AuditRedaction
import DevOpsAssistant.Utils.FileValidation
import DevOpsAssistant.Utils.SafeFilenames
