import Pqsnet.Transport.InitializeMessage
import Pqsnet.Transport.ReplyMessage
import Pqsnet.Transport.ConfirmMessage
import Pqsnet.Transport.Completeness
import Pqsnet.Transport.Authentication
import Pqsnet.Transport.Soundness
import Pqsnet.Transport.Totality
import Pqsnet.Checked.HashChain
import Pqsnet.Transport.Transcript
import Pqsnet.Transport.Agreement
import Pqsnet.Transport.Network
import Pqsnet.Session.Varint
import Pqsnet.Session.AckRuns
import Pqsnet.Session.AckFrames
import Pqsnet.Session.AckCodec
import Pqsnet.Checked.BitRuns
import Pqsnet.Session.Desegmenter
import Pqsnet.Session.Bitmap
import Pqsnet.Session.CleanScan
import Pqsnet.Session.Received
import Pqsnet.Session.Reassembly
import Pqsnet.Session.Context
import Pqsnet.Session.Fragments
import Pqsnet.Checked.Ends
import Pqsnet.Session.PacketBuilder
import Pqsnet.Session.Append
import Pqsnet.Session.State
import Pqsnet.Session.Segments
import Pqsnet.Session.Send
import Pqsnet.Session.Retransmission
import Pqsnet.Session.AckPhase
import Pqsnet.Session.Accounting
import Pqsnet.Session.LostFrames
import Pqsnet.Session.Sealing
import Pqsnet.Session.AckBinding
import Pqsnet.Session.SegmentCodec
import Pqsnet.Session.SegmentPackets
import Pqsnet.Session.Documents
import Pqsnet.Session.Recv
import Pqsnet.Session.Channel
import Pqsnet.Checked.Tables
import Pqsnet.Session.Moves
import Pqsnet.Session.Slots
import Pqsnet.Session.Books
import Pqsnet.Session.Ownership
import Pqsnet.Session.Dropping
import Pqsnet.Session.Receiving
import Pqsnet.Session.Handles
import Pqsnet.Session.PassMoves
import Pqsnet.Session.World
import Pqsnet.Session.Conservation
import Pqsnet.Session.Hostile
import Pqsnet.Session.Parents
import Pqsnet.Session.SlotReuse
import Pqsnet.Checked.MarkedWords
import Pqsnet.Session.Arrival
import Pqsnet.Session.ArrivalOrder
import Pqsnet.Checked.Highest
import Pqsnet.Session.Antireplay
import Pqsnet.Session.Framing
import Pqsnet.Session.Handshakes
import Pqsnet.Session.KeySpace
import Pqsnet.Checked.Reservations
import Pqsnet.Session.SocketIds
import Pqsnet.Session.Threads
import Pqsnet.Session.Changes
import Pqsnet.Session.Numbers
import Pqsnet.Session.Buffers
import Pqsnet.Session.Holders
import Pqsnet.Session.Sections
import Pqsnet.Session.Operations
import Pqsnet.Session.DocumentPass
import Pqsnet.Session.ByteAccounting
import Pqsnet.Session.ReplyMemory
import Pqsnet.Session.Segmentation
import Pqsnet.Session.Splitting
import Pqsnet.Session.PassSteps
import Pqsnet.Session.Emissions
import Pqsnet.Session.FreshPackets
import Pqsnet.Session.Scheduling
import Pqsnet.Session.Runs
import Pqsnet.Session.References
import Pqsnet.Session.Unreachable
import Pqsnet.Session.Borrows
import Pqsnet.Session.ControlFrames
import Pqsnet.Session.Allocation
import Pqsnet.Session.UnsetRanges
import Pqsnet.Session.DocNo
import Pqsnet.Session.AckBounds
import Pqsnet.Session.HeaderBounds
import Pqsnet.Transport.BundleRoundTrip
import Pqsnet.Transport.MutualAuthentication
import Pqsnet.Session.FailedSends
import Pqsnet.Checked.Worklist
import Pqsnet.Session.CascadingDrop
import Pqsnet.Session.ReservedSlots
import Pqsnet.Checked.Simulation
import Pqsnet.Checked.WaitQueue
import Pqsnet.Session.Contexts
import Pqsnet.Session.ContextHandshakes
import Pqsnet.Session.Integrity
import Pqsnet.Session.SendSlots
import Pqsnet.Session.Delivery
import Pqsnet.Session.Wakers
