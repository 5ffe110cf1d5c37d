import Kvy.Auth.Honest
import Kvy.Cli.Acp.AcpBracketRuns
import Kvy.Cli.Acp.AcpConnectionRuns
import Kvy.Cli.Acp.AcpRemoteRuns
import Kvy.Cli.Acp.PermissionRuns
import Kvy.Cli.Claims.ClaimRuns
import Kvy.Cli.Claude.Orphans
import Kvy.Cli.Claude.OutputWatchers
import Kvy.Cli.Claude.ScannerFlush
import Kvy.Cli.Claude.StopHookRuns
import Kvy.Cli.Claude.SubagentRendering
import Kvy.Cli.Commands.LocalDialogs
import Kvy.Cli.Commands.PromptGate
import Kvy.Cli.Commands.TurnOrigins
import Kvy.Cli.Daemon.AdoptTake
import Kvy.Cli.Daemon.DaemonLock
import Kvy.Cli.Daemon.IdempotencyCache
import Kvy.Cli.Daemon.MachineBootRuns
import Kvy.Cli.Daemon.PreviewTunnel
import Kvy.Cli.Daemon.ResumeRecordRuns
import Kvy.Cli.Daemon.ResumeRuns
import Kvy.Cli.Daemon.RunProcess
import Kvy.Cli.Daemon.SetupScript
import Kvy.Cli.Daemon.SpawnDirectoryRuns
import Kvy.Cli.Daemon.SpawnReports
import Kvy.Cli.Daemon.WorkspacePath
import Kvy.Cli.Daemon.WorktreeRemove
import Kvy.Cli.Remote.OutgoingQueue
import Kvy.Crypto.Base64
import Kvy.Crypto.Encryption
import Kvy.Server.App.Api.PairRuns
import Kvy.Server.App.Events.LatestWins
import Kvy.Server.App.Push.DispatchRuns
import Kvy.Server.App.Routes.CompareAndSetRuns
import Kvy.Server.App.Routes.KeyBindRuns
import Kvy.Server.App.Routes.KeyRequestRuns
import Kvy.Server.App.Routes.SessionList
import Kvy.Server.App.Routes.SessionStatus
import Kvy.Server.App.Routes.Sync
import Kvy.Server.App.Socket.RpcHandler
import Kvy.Web.Crypto.WorkerFailures
import Kvy.Web.Crypto.WorkerLogout
import Kvy.Web.Lib.Diff
import Kvy.Web.RepoFiles.FileContentPaging
import Kvy.Web.SessionControl.ComposerRuns
import Kvy.Web.Sync.ApiSocketRuns
import Kvy.Web.Sync.CacheMutationRuns
import Kvy.Web.Sync.Delivery
import Kvy.Web.Sync.Reducer.ArgsKey
import Kvy.Web.Sync.Reducer.NothingDropped
import Kvy.Web.Sync.Reducer.StandaloneOrder
import Kvy.Web.Sync.Relay
import Kvy.Web.UnmanagedSessions.Mirror
