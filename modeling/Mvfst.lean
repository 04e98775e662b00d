import Mvfst.Lib.BigEndian
import Mvfst.Lib.LowerBound
import Mvfst.Exception
import Mvfst.Common.ContiguousCursor
import Mvfst.Codec.QuicInteger
import Mvfst.Codec.Types
import Mvfst.State.StreamData
import Mvfst.State.StateData
import Mvfst.FlowControl.QuicFlowController
import Mvfst.State.QuicStreamFunctions
import Mvfst.State.ReadBufferMerge
import Mvfst.State.ReadBufferShape
import Mvfst.State.ReceivePath
import Mvfst.State.Reassembly
import Mvfst.State.Stream.StreamReceiveHandlers
import Mvfst.Common.IntervalSet
import Mvfst.Lib.TransitionSystem
import Mvfst.State.Stream.StreamSendHandlers
import Mvfst.Api.QuicTransportFunctions
import Mvfst.Loss.QuicLossFunctions
import Mvfst.State.Sender
import Mvfst.State.OutstandingPacket
import Mvfst.State.ConnectionState
import Mvfst.State.AckHandlers
import Mvfst.Client.ClientStateMachine
import Mvfst.State.SentPackets
import Mvfst.Lib.ListSearch
import Mvfst.State.AckedPacketWalk
import Mvfst.Lib.WordBits
import Mvfst.Codec.PacketNumber
import Mvfst.Common.IntervalSetLaws
import Mvfst.State.QuicStreamManager
import Mvfst.State.StreamLimits
import Mvfst.Common.CircularDeque
import Mvfst.Common.CircularDequeRefinement
import Mvfst.Common.CircularDequeInsertErase
import Mvfst.Common.CircularDequeRuns
import Mvfst.State.ReliableReset
import Mvfst.State.SendAccounting
import Mvfst.Codec.QuicPacketBuilder
import Mvfst.State.QuicStateFunctions
import Mvfst.Codec.DefaultConnectionIdAlgo
import Mvfst.Lib.RotatingQueue
import Mvfst.Priority.RoundRobin
import Mvfst.Lib.ExceptBind
import Mvfst.Codec.Decode
import Mvfst.Codec.QuicWriteCodec
import Mvfst.Common.ChainedByteRange
import Mvfst.Common.ChainedByteRangeRuns
import Mvfst.Xsk.XskSender
import Mvfst.Lib.BinaryHeap
import Mvfst.Priority.HTTPPriorityQueue
import Mvfst.Priority.HTTPPriorityQueueHeap
import Mvfst.Priority.HTTPPriorityQueueInvariant
import Mvfst.Priority.HTTPPriorityQueueRefinement
import Mvfst.Priority.HTTPPriorityQueueSystem
import Mvfst.Codec.FrameDecode
import Mvfst.Codec.FrameWrite
import Mvfst.Codec.FrameRoundTrip
