import Lidi.Core.LTS
import Lidi.Core.Turnstile
import Lidi.Core.TurnstileOrder
import Lidi.Core.LittleEndian
import Lidi.Core.Reader
import Lidi.Core.Outcome
import Lidi.Protocol.RaptorQ
import Lidi.Protocol.Block
import Lidi.Protocol.Codec
import Lidi.Send.Client
import Lidi.Send.Chunks
import Lidi.Send.Server
import Lidi.Send.Pipeline
import Lidi.Send.Order
import Lidi.Send.Sender
import Lidi.Send.Oneshot
import Lidi.Send.Stop
import Lidi.Send.Halt
import Lidi.Receive.Decode
import Lidi.Receive.DecodeOrder
import Lidi.Receive.Reblock
import Lidi.Receive.Reset
import Lidi.File.Path
import Lidi.File.Protocol
import Lidi.File.Send
import Lidi.File.Receive
import Lidi.File.RoundTrip
import Lidi.Send.Transfers
import Lidi.Receive.Client
import Lidi.Receive.Serving
import Lidi.Receive.Dispatch
import Lidi.Receive.Delivery
import Lidi.Receive.Lossless
import Lidi.Send.Idle
import Lidi.Link.Multiplex
import Lidi.Link.Delivery
import Lidi.File.FileSystem
import Lidi.File.Concurrent
import Lidi.Udp.Relay
import Lidi.Receive.ReblockRun
import Lidi.Receive.SilentLoss
import Lidi.Core.Window
import Lidi.Receive.ReblockWindow
import Lidi.Receive.Reordering
import Lidi.Receive.WrapAround
import Lidi.Receive.Duplicates
import Lidi.Core.InOrder
import Lidi.Receive.Batches
import Lidi.Receive.DemuxRun
import Lidi.Receive.Demultiplex
import Lidi.Receive.Abandoned
import Lidi.Receive.Callback
import Lidi.Core.Marked
import Lidi.Receive.Tracking
import Lidi.Receive.Informed
import Lidi.Receive.Resume
import Lidi.Link.Lossy
import Lidi.Link.Integrity
import Lidi.Receive.Malformed
import Lidi.Receive.ShortDatagrams
import Lidi.Core.Profile
import Lidi.Protocol.Geometry
import Lidi.Link.Sizes
import Lidi.File.Accept
import Lidi.Udp.Frames
import Lidi.File.Confined
import Lidi.Receive.Representation
import Lidi.Receive.EmissionLoop
import Lidi.Link.Tolerant
import Lidi.Link.Tolerance
import Lidi.Link.Programs
import Lidi.Link.Socket
import Lidi.Link.Tunnel
import Lidi.Link.Wire
import Lidi.File.Changed
import Lidi.Link.Oneshot
import Lidi.Link.Recovery
