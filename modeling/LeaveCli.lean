import LeaveCli.Acp.Proof.Actionable
import LeaveCli.Protocol.Json
import LeaveCli.Acp.Proof.AllOrNothing
import LeaveCli.Acp.Proof.Attached
import LeaveCli.Acp.Proof.OneTurn
import LeaveCli.Host.Proof.ReleaseGate
import LeaveCli.Crypto.SmallFrames
import LeaveCli.Host.Proof.AnswerReaders
import LeaveCli.Host.Proof.AnswerSize
import LeaveCli.Host.Customization
import LeaveCli.Host.Proof.TunnelMonitor
import LeaveCli.Host.Proof.RouterAgrees
import LeaveCli.Host.Proof.CustomizationScope
import LeaveCli.Host.Proof.Access
import LeaveCli.Host.Proof.Revocation
import LeaveCli.Host.Proof.Pairing
import LeaveCli.Host.Proof.GroupAgreement
import LeaveCli.Lib.Reader
import LeaveCli.Crypto.SavedState
import LeaveCli.Crypto.Proof.RoundTrip
import LeaveCli.Core.Proof.Database
import LeaveCli.Core.Proof.Isolation
import LeaveCli.Host.Proof.Paging
import LeaveCli.Host.LiveStream
import LeaveCli.Relay.Server
import LeaveCli.Relay.Proof.Steps
import LeaveCli.Lib.Protobuf
import LeaveCli.Transport.Wire
import LeaveCli.Relay.Proof.Disconnect
import LeaveCli.Relay.Proof.Delivery
import LeaveCli.Lib.FileTree
import LeaveCli.Lib.UnixPath
import LeaveCli.Lib.Lossy
import LeaveCli.Core.GuardedFs
import LeaveCli.Lib.Results
import LeaveCli.Core.Proof.Containment
import LeaveCli.Host.ProjectSkills
import LeaveCli.Host.Proof.ProjectSkills
import LeaveCli.Core.Proof.Turns
import LeaveCli.Host.Proof.LiveStream
import LeaveCli.Core.Proof.ConcurrentWrites
import LeaveCli.Web.Proof.SessionView
import LeaveCli.Lib.Utf8
import LeaveCli.Lib.Expand
import LeaveCli.Lib.Systemd
import LeaveCli.Lib.WindowsArgs
import LeaveCli.Host.Proof.ServiceFiles
import LeaveCli.Lib.Bits
import LeaveCli.Lib.Grid
import LeaveCli.Lib.Interleave
import LeaveCli.Lib.QrCode
import LeaveCli.Web.Qr
import LeaveCli.Web.Proof.Qr
import LeaveCli.Web.Proof.Timeline
import LeaveCli.Lib.Fields
import LeaveCli.Host.Git
import LeaveCli.Host.Proof.GitStatus
import LeaveCli.Lib.Lookup
import LeaveCli.Core.Proof.LineEndings
import LeaveCli.Host.Files
import LeaveCli.Core.Proof.SavedFile
import LeaveCli.Host.Proof.SavedFile
import LeaveCli.Core.Proof.Resave
import LeaveCli.Core.Proof.Listing
import LeaveCli.Crypto.Vault
import LeaveCli.Crypto.Proof.Vault
import LeaveCli.Crypto.Proof.PairingFrames
import LeaveCli.Crypto.Browser
import LeaveCli.Crypto.Proof.Browser
import LeaveCli.Protocol.Decode
import LeaveCli.Protocol.Proof.Base64
import LeaveCli.Protocol.Proof.TunnelRoundTrip
import LeaveCli.Lib.Merge
import LeaveCli.Web.Proof.LivePage
import LeaveCli.Lib.Replace
import LeaveCli.Lib.UrlParts
import LeaveCli.Transport.Attach
import LeaveCli.Host.OpenRoute
import LeaveCli.Host.Proof.RelayAddress
import LeaveCli.Host.Proof.PluginSource
import LeaveCli.Lib.FixedWindow
import LeaveCli.Relay.Proof.FrameBudget
import LeaveCli.Host.DevinLogin
import LeaveCli.Host.Proof.DevinLogin
import LeaveCli.Host.SetupServer
import LeaveCli.Host.Proof.SetupServer
import LeaveCli.Lib.JsonTree
import LeaveCli.Host.TailnetLogin
import LeaveCli.Lib.Options
import LeaveCli.Host.ServeCommand
import LeaveCli.Host.Proof.BackgroundService
import LeaveCli.Web.Proof.ReedSolomon
import LeaveCli.Host.Proof.Preview
import LeaveCli.Host.Proof.Terminal
import LeaveCli.Web.Proof.QrDamage
import LeaveCli.Web.Proof.QrDrawing
import LeaveCli.Host.Proof.LaunchAgent
import LeaveCli.Host.Proof.Conversation
import LeaveCli.Crypto.Proof.Vectors
import LeaveCli.Relay.Proof.RouteAccess
import LeaveCli.Host.Proof.GitCommands
import LeaveCli.Host.Proof.GitBranches
import LeaveCli.Web.Proof.EventsConnection
import LeaveCli.Web.Proof.ShownPage
import LeaveCli.Host.Proof.InvalidRequest
