import NoriShell.Collections.BTreeMap
import NoriShell.Collections.Base64
import NoriShell.Collections.Check
import NoriShell.Collections.Codes
import NoriShell.Collections.Expansion
import NoriShell.Collections.Firsts
import NoriShell.Collections.JsonText
import NoriShell.Collections.Slices
import NoriShell.Collections.SortByKey
import NoriShell.Collections.SwapRemove
import NoriShell.Collections.Text
import NoriShell.Collections.Utf8
import NoriShell.Collections.Widths
import NoriShell.Collections.Worklist
import NoriShell.Desktop.CopyLaws
import NoriShell.Desktop.Frame
import NoriShell.Desktop.FrameLaws
import NoriShell.Desktop.Input
import NoriShell.Desktop.Region
import NoriShell.Desktop.RegionLaws
import NoriShell.Exchange.Compose
import NoriShell.Exchange.ComposeLaws
import NoriShell.Exchange.ComposeSpec
import NoriShell.Exchange.OfflineBackup
import NoriShell.Exchange.OwnerId
import NoriShell.Exchange.PluginExchange
import NoriShell.Exchange.PluginExchangeLaws
import NoriShell.Exchange.Projection
import NoriShell.Exchange.ProjectionLaws
import NoriShell.Exchange.ProjectionSpec
import NoriShell.Forward.Relay
import NoriShell.Forward.RelayLaws
import NoriShell.Justified
import NoriShell.Lifecycle.Gate
import NoriShell.Net.IpAddr
import NoriShell.Net.IpAddrLaws
import NoriShell.Operations.Paths
import NoriShell.Operations.Plan
import NoriShell.Operations.SizeLaws
import NoriShell.Operations.Templates
import NoriShell.Operations.Words
import NoriShell.Plugin.Package
import NoriShell.Plugin.Settings
import NoriShell.Plugin.SettingsLaws
import NoriShell.Plugin.UiDocument
import NoriShell.Plugin.UiDocumentLaws
import NoriShell.Programs
import NoriShell.Rdp.Database
import NoriShell.Rdp.Input
import NoriShell.Rdp.InputLaws
import NoriShell.Rdp.Limits
import NoriShell.Rdp.LimitsLaws
import NoriShell.Rdp.Presentation
import NoriShell.Rdp.PresentationLaws
import NoriShell.Rdp.Wire
import NoriShell.Rdp.WireLaws
import NoriShell.Restore.Adapter
import NoriShell.Restore.ApplyDelta
import NoriShell.Restore.Database
import NoriShell.Restore.Delta
import NoriShell.Restore.DeltaLaws
import NoriShell.Restore.Histories
import NoriShell.Restore.Import
import NoriShell.Restore.Metadata
import NoriShell.Restore.Plan
import NoriShell.Restore.Publication
import NoriShell.Restore.Recovery
import NoriShell.Restore.Rollback
import NoriShell.Restore.Safety
import NoriShell.Restore.Undo
import NoriShell.Sftp.RemotePath
import NoriShell.Sftp.RemotePathLaws
import NoriShell.Sftp.Transfers
import NoriShell.Sftp.TransfersLaws
import NoriShell.Shell.Lexer
import NoriShell.Ssh.ConnectionProfile
import NoriShell.Ssh.ConnectionProfileLaws
import NoriShell.Ssh.Endpoint
import NoriShell.Ssh.EndpointLaws
import NoriShell.Ssh.LoginAutomation
import NoriShell.Ssh.LoginAutomationLaws
import NoriShell.Ssh.OpenSshConfig
import NoriShell.Ssh.OpenSshEvaluation
import NoriShell.Ssh.OpenSshHeaders
import NoriShell.Ssh.OpenSshLines
import NoriShell.Ssh.OpenSshSafety
import NoriShell.Ssh.OpenSshSpec
import NoriShell.Stateful
import NoriShell.Sync.BrokerOperations
import NoriShell.Sync.Canonical
import NoriShell.Sync.Graph
import NoriShell.Sync.GraphLaws
import NoriShell.Sync.Merge
import NoriShell.Sync.MergeCarries
import NoriShell.Sync.MergeLaws
import NoriShell.Sync.MergePanics
import NoriShell.Sync.MergeSpec
import NoriShell.Sync.MergeStability
import NoriShell.Sync.MergeSymmetry
import NoriShell.Sync.MergeTimes
import NoriShell.Sync.NodeLaws
import NoriShell.Sync.ObjectChecks
import NoriShell.Sync.PartLaws
import NoriShell.Sync.PreferenceLaws
import NoriShell.Sync.Schema
import NoriShell.Sync.Validate
import NoriShell.Sync.ValidateLaws
import NoriShell.Telnet.Codec
import NoriShell.Telnet.CodecLaws
import NoriShell.Telnet.Connection
import NoriShell.Telnet.Delivery
import NoriShell.Telnet.Negotiation
import NoriShell.Telnet.WindowSize
import NoriShell.Terminal.InputCoalescer
import NoriShell.Terminal.InputCoalescerLaws
import NoriShell.Terminal.PluginText
import NoriShell.Terminal.PluginTextLaws
import NoriShell.Terminal.TouchSelection
import NoriShell.ThreeWay
import NoriShell.Transducer
import NoriShell.Vault.Envelope
import NoriShell.Vault.Histories
import NoriShell.Vault.MergeLaws
import NoriShell.Vault.Reopen
import NoriShell.Vault.Secrets
import NoriShell.Vault.Transactions
import NoriShell.Vault.Unlocked
import NoriShell.Vnc.Input
import NoriShell.Vnc.InputLaws
import NoriShell.Vnc.Publisher
import NoriShell.Vnc.PublisherLaws
import NoriShell.Vnc.WheelLaws
