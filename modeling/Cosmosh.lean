import Cosmosh.Sftp.TaskLifecycle
import Cosmosh.Sftp.ClaimCoverage
import Cosmosh.Security.DatabaseKeyStability
import Cosmosh.Database.MigrationSafety
import Cosmosh.Database.LedgerSoundness
import Cosmosh.Terminal.RemoteHelperTrust
import Cosmosh.PortForward.StopWins
import Cosmosh.PortForward.RuntimeIsolation
import Cosmosh.PortForward.ConnectionAccounting
import Cosmosh.Terminal.StreamQueue
import Cosmosh.Terminal.SocketAttachment
import Cosmosh.Terminal.OutputDecoding
import Cosmosh.MainProcess.DownloadCapability
import Cosmosh.Ssh.ProxyRules
import Cosmosh.Sftp.PublicTaskRetention
import Cosmosh.Sftp.ArchiveFinality
import Cosmosh.Sftp.StagedLinks
import Cosmosh.Ssh.CredentialIsolation
import Cosmosh.Terminal.HistoryDeletion
import Cosmosh.SftpPage.PassiveReconnect
import Cosmosh.SftpPage.CacheCoherence
import Cosmosh.SftpPage.NavigationOutcome
import Cosmosh.SftpPage.EditAnswers
import Cosmosh.SftpPage.PreviewEditing
import Cosmosh.SftpPage.SessionOwnership
import Cosmosh.Terminal.ConnectionAttempts
import Cosmosh.Audit.MetadataConfidentiality
import Cosmosh.Settings.SettingsRoundTrip
import Cosmosh.MainProcess.SystemProxyHosts
import Cosmosh.RemoteBootstrap.ProfileQuoting
import Cosmosh.RemoteBootstrap.InstallConvergence
import Cosmosh.SshPage.PaneInvariants
import Cosmosh.SshPage.MarkerHistory
import Cosmosh.SftpPage.SerialLane
import Cosmosh.SftpPage.PromptSettlement
import Cosmosh.MainProcess.CloseDecisions
import Cosmosh.SftpPage.TreeClosure
import Cosmosh.Terminal.HistoryFile
import Cosmosh.Sftp.CopyTermination
import Cosmosh.Sftp.EntryCreation
import Cosmosh.Sftp.EntryDeletion
import Cosmosh.Settings.SettingsStore
import Cosmosh.SshPage.PromptBoundary
import Cosmosh.MainProcess.TemporaryFileGate
import Cosmosh.Ssh.ConnectHandOff
import Cosmosh.Terminal.OscTerminators
import Cosmosh.Terminal.RemoteDeletionCommand
import Cosmosh.Sftp.GuardSettlement
import Cosmosh.Terminal.ReplacedToken
import Cosmosh.Sftp.UnusualAttributes
import Cosmosh.Sftp.ArchiveCommandOptions
import Cosmosh.Sftp.OverwriteMerge
import Cosmosh.Sftp.KeepBothCommit
import Cosmosh.Terminal.HistoryOrder
import Cosmosh.Sftp.ClaimMinimization
import Cosmosh.SshPage.AutocompletePrefix
import Cosmosh.MainProcess.TraceTruncation
import Cosmosh.Terminal.InputChunks
import Cosmosh.Terminal.RemoteCwd
import Cosmosh.PortForward.ForwardedRequests
