import QStack.Lib.Run
import QStack.RecvIntegrity
import QStack.SendConservation
import QStack.Establish
import QStack.AckOrder
import QStack.Retransmission
import QStack.N21Queue
import QStack.TimerLists
import QStack.ChunkPool
import QStack.PendingEvent
import QStack.EventDelivery
import QStack.FinConsumption
import QStack.WindowEdge
import QStack.TcpOptions
import QStack.PacketIn
import QStack.Clock
import QStack.SendLifecycle
import QStack.Reclamation
import QStack.Wakeup
import QStack.SocketTable
import QStack.RecvThreads
import QStack.TimerCoverage
import QStack.FlowTable
import QStack.Destruction
import QStack.AckTrim
import QStack.OutOfOrder
import QStack.PutAtomic
import QStack.Discard
import QStack.UserSend
import QStack.Tuning
import QStack.WindowUpdate
import QStack.PeerLimits
import QStack.DupAck
import QStack.MssLimit
import QStack.Rejection
import QStack.Congestion
import QStack.SendAccounts
import QStack.OrderlyClose
import QStack.TxBurst
import QStack.BufferAlloc
import QStack.SendVec
import QStack.ListenConnect
import QStack.CloseCall
import QStack.AckQueue
import QStack.TimerOrder
import QStack.RtoOrder
import QStack.Walks
import QStack.CloseReasons
import QStack.RtoBackoff
import QStack.Activity
import QStack.IdleOrder
import QStack.Checksum
import QStack.OptionRoundTrip
import QStack.PollOrder
import QStack.EventPriority
import QStack.Channels
import QStack.FailedInsert
import QStack.WaitPri
import QStack.EventInstances
import QStack.Lists
import QStack.FastPool
import QStack.StaticArp
import QStack.QingHash
import QStack.HashRuns
import QStack.RuntimeMgt
import QStack.Arp
import QStack.ArpNetwork
import QStack.RxRing
import QStack.StateGraph
import QStack.Lib.Layout
import QStack.WireFormat
import QStack.Transfer
import QStack.WrittenOrder
import QStack.Emission
import QStack.TwoHosts
import QStack.Accept
