import Controlis.Foundation.Strided
import Controlis.Foundation.Checked
import Controlis.Protocol.Message
import Controlis.Protocol.Framing
import Controlis.Protocol.Chunking
import Controlis.Codec.Frame
import Controlis.Codec.Encoder
import Controlis.Codec.Decoder
import Controlis.Codec.Replay
import Controlis.Codec.Hostile
import Controlis.Codec.Stream
import Controlis.Foundation.Binary32
import Controlis.Input.Coords
import Controlis.Session.ControlLoop
import Controlis.Foundation.Interaction
import Controlis.Host.Effect
import Controlis.Host.Program
import Controlis.Host.Phase
import Controlis.Host.Machine
import Controlis.Host.Approval
import Controlis.Host.Admission
import Controlis.Host.Shutdown
import Controlis.Host.SessionEnd
import Controlis.Host.Registration
import Controlis.Host.Isolation
import Controlis.Host.AuditLog
import Controlis.Host.Reporting
import Controlis.Host.EventTrace
import Controlis.Host.AuditCoverage
import Controlis.Host.Streaming
import Controlis.Foundation.Runs
import Controlis.Session.CaptureLoop
import Controlis.Transport.Fingerprint
import Controlis.Viewer.Pinning
import Controlis.Viewer.Keyboard
import Controlis.Server.Api
import Controlis.Foundation.Windows
import Controlis.Server.Limiter
import Controlis.Portal.EisInput
import Controlis.Portal.Emulation
import Controlis.Viewer.Handshake
import Controlis.Viewer.Agreement
import Controlis.Viewer.Slot
import Controlis.Foundation.Shuffle
import Controlis.Foundation.Strokes
import Controlis.Input.Enigo
import Controlis.Portal.Queue
import Controlis.Portal.Injector
import Controlis.Portal.Release
import Controlis.Foundation.Wire
import Controlis.Transport.Media
import Controlis.Codec.Rejection
import Controlis.Verify
import Controlis.Codec.Delta
import Controlis.Portal.CaptureThread
import Controlis.Foundation.FirstCome
import Controlis.Portal.Typing
import Controlis.Portal.Lifetime
import Controlis.Portal.Drop
import Controlis.Portal.Delivery
import Controlis.Transport.Identity
import Controlis.Session.EndToEnd
import Controlis.Codec.H264
import Controlis.Codec.Video
import Controlis.Foundation.Mailbox
import Controlis.Viewer.Display
import Controlis.Host.Refresh
import Controlis.Viewer.Canvas
import Controlis.Host.Panel
import Controlis.Host.Lifecycle
import Controlis.Foundation.Atomic
import Controlis.Server.Client
import Controlis.Transport.SecretKey
