import Sremfb.Lib.Words
import Sremfb.Lib.Rect
import Sremfb.Lib.Run
import Sremfb.Lib.Outbox
import Sremfb.Lib.Scan
import Sremfb.Lib.Block
import Sremfb.Lib.Raster
import Sremfb.Lib.Patch
import Sremfb.Lib.Trace
import Sremfb.Lib.Window
import Sremfb.Lib.SaveUnder
import Sremfb.Lib.Handles
import Sremfb.Lib.Text
import Sremfb.Protocol
import Sremfb.Server.Convert
import Sremfb.Server.Lz4
import Sremfb.Image
import Sremfb.Server.Client
import Sremfb.Server.Session
import Sremfb.Server.Queue
import Sremfb.Server.Control
import Sremfb.Server.Xmit
import Sremfb.Server.Events
import Sremfb.Server.Steps
import Sremfb.Server.Framing
import Sremfb.Server.Coverage
import Sremfb.Server.Converge
import Sremfb.Server.Buffers
import Sremfb.Server.ModeChange
import Sremfb.Server.Wakeup
import Sremfb.Server.Coherence
import Sremfb.Server.Damping
import Sremfb.Server.Pings
import Sremfb.Server.Episode
import Sremfb.Client.Output
import Sremfb.Client.Sbc
import Sremfb.View.Stream
import Sremfb.View.Mailbox
import Sremfb.Agreement
import Sremfb.Client.Frames
import Sremfb.Client.PageFlip
import Sremfb.Client.Clipping
import Sremfb.Client.Blanking
import Sremfb.Client.CaptureBuffers
import Sremfb.Client.UsbExport
import Sremfb.Server.Audio
import Sremfb.Server.PlugGate
import Sremfb.Server.Evdi
import Sremfb.Server.PlugCaps
import Sremfb.Server.Cards
import Sremfb.Server.UsbPeers
import Sremfb.Server.FirstPaint
import Sremfb.Server.Input
import Sremfb.View.Input
import Sremfb.Desk
import Sremfb.Server.Cursor
import Sremfb.Server.Callbacks
import Sremfb.Server.Lifetimes
import Sremfb.Kvm.Convert
import Sremfb.Kvm.Diff
import Sremfb.Kvm.DiffExact
import Sremfb.Kvm.Capture
import Sremfb.Kvm.Pipeline
import Sremfb.Kvm.Fanout
import Sremfb.Kvm.Watch
import Sremfb.Kvm.Hid
import Sremfb.Lib.Inet
import Sremfb.Server.Allow
import Sremfb.Server.AudioUdp
import Sremfb.Server.GateExact
import Sremfb.Server.Edid
import Sremfb.Lib.Doubles
import Sremfb.Server.Pointer
import Sremfb.Server.InputBalance
import Sremfb.Server.LastConnectors
import Sremfb.Lib.Matching
import Sremfb.Server.LayoutMatch
import Sremfb.Lib.Nearest
import Sremfb.Kvm.Letterbox
import Sremfb.Kvm.Pointing
import Sremfb.Lib.Slots
import Sremfb.Kvm.HidKeys
import Sremfb.Lib.Signal
import Sremfb.Kvm.HidReports
import Sremfb.Kvm.HidTransitions
import Sremfb.Kvm.HidMotion
import Sremfb.Lib.Hysteresis
import Sremfb.View.Audio
import Sremfb.View.Batches
import Sremfb.Server.I420
import Sremfb.Lib.Doorbell
import Sremfb.View.Wake
import Sremfb.Lib.AnnexB
import Sremfb.Kvm.Encoder
import Sremfb.Kvm.AccessUnit
import Sremfb.Kvm.EncoderInput
import Sremfb.Upstream
import Sremfb.Lib.Serial
import Sremfb.AudioFlow
import Sremfb.Lib.Coalesce
import Sremfb.Server.Displays
import Sremfb.Server.Remembered
import Sremfb.Colour
import Sremfb.Desktop
