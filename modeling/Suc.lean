import Suc.Transition.System
import Suc.Transition.Simulation
import Suc.Transition.Channel
import Suc.Transition.Handles
import Suc.Layout.Block
import Suc.Layout.Integer
import Suc.Layout.Record
import Suc.Cmn.Error
import Suc.Cmn.Fd
import Suc.Cmn.Owners
import Suc.Cmn.Endian
import Suc.Cmn.ByteBuffer
import Suc.Epl.Callbacks
import Suc.Epl.EventQueue
import Suc.Epl.Setters
import Suc.Epl.Fd
import Suc.Epl.Dispatch
import Suc.Epl.Loop
import Suc.Epl.EventFd
import Suc.Epl.ThreadSafeQueue
import Suc.Epl.BatchReader
import Suc.Epl.TimerFd
import Suc.Epl.Sources
import Suc.Epl.Services
import Suc.Epl.Construct
import Suc.Epl.Mixed
import Suc.Net.Sock
import Suc.Net.Fallback
import Suc.Net.Iface
import Suc.Gpio.Chip
import Suc.Gpio.Board
import Suc.Proof.InterestList
import Suc.Proof.Registration
import Suc.Proof.Dispatch
import Suc.Proof.LoopMoves
import Suc.Proof.LoopInvariant
import Suc.Proof.Lifecycle
import Suc.Proof.ExecState
import Suc.Proof.ExitCode
import Suc.Proof.BoundedWork
import Suc.Proof.WakeUp
import Suc.Proof.PendingEvents
import Suc.Proof.LoopDispatch
import Suc.Proof.Progress
import Suc.Proof.Delivery
import Suc.Proof.Enqueue
import Suc.Proof.BatchReader
import Suc.Proof.TimerFd
import Suc.Proof.Sources
import Suc.Proof.SourceLifetime
import Suc.Proof.Solo
import Suc.Proof.Rounds
import Suc.Proof.QueueSource
import Suc.Proof.CountSource
import Suc.Proof.CounterSource
import Suc.Proof.TimerSource
import Suc.Proof.ReaderSource
import Suc.Proof.SignalSource
import Suc.Proof.LastRecord
import Suc.Proof.Ownership
import Suc.Proof.FailedRegistration
import Suc.Proof.Construct
import Suc.Proof.FdOwnership
import Suc.Proof.ByteBuffer
import Suc.Proof.ByteBufferFields
import Suc.Proof.BoundSocket
import Suc.Proof.Fallback
import Suc.Proof.UdpReceive
import Suc.Proof.UdpDelivery
import Suc.Proof.Iface
import Suc.Proof.LineRequest
import Suc.Proof.Board
import Suc.Proof.Mixed
