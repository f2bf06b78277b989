import Rcopy.Lib.Runs
import Rcopy.Lib.CommutingFold
import Rcopy.Lib.OnesComplement
import Rcopy.FilenamePdu
import Rcopy.ReceiveOrder
import Rcopy.FileIntegrity
import Rcopy.SendWindowBound
import Rcopy.Transfer
import Rcopy.ReceiveProgress
import Rcopy.ReceiverRing
import Rcopy.SendControl
import Rcopy.SendEof
import Rcopy.MainServer
import Rcopy.ClientHandshake
import Rcopy.Handshake
import Rcopy.HandshakeLoss
import Rcopy.HandshakeOutcome
import Rcopy.HandshakeMisled
import Rcopy.ReceiverFlush
import Rcopy.ReorderPayload
import Rcopy.ReorderLoss
import Rcopy.DataChecksum
import Rcopy.Lib.Outcome
import Rcopy.SendDivision
import Rcopy.Retransmission
import Rcopy.DatagramLengths
import Rcopy.HandshakeTermination
import Rcopy.LastControl
import Rcopy.ProcessTree
import Rcopy.AckStatus
import Rcopy.ReceiveEnd
import Rcopy.SilentClient
import Rcopy.FlushExit
import Rcopy.GapRecovery
import Rcopy.Lib.Tokens
import Rcopy.Lib.Decimal
import Rcopy.SentPdus
import Rcopy.ReceiveOutput
import Rcopy.Wire
import Rcopy.CopiedChunks
import Rcopy.WireSends
import Rcopy.SessionSizes
import Rcopy.PacketManager
import Rcopy.SettingsManager
import Rcopy.ErrorInjection
import Rcopy.InjectedTransfer
import Rcopy.PollSet
import Rcopy.Descriptors
import Rcopy.ServerTree
import Rcopy.RcopyMain
import Rcopy.System
import Rcopy.SystemCopy
import Rcopy.SystemTransfer
