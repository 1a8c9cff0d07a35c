import RustDds.Concurrency.Announcing
import RustDds.Concurrency.Channel
import RustDds.Concurrency.Closing
import RustDds.Concurrency.Discovery
import RustDds.Concurrency.EndOfStream
import RustDds.Concurrency.Identity
import RustDds.Concurrency.Joining
import RustDds.Concurrency.Matching
import RustDds.Concurrency.Metrics
import RustDds.Concurrency.Moves
import RustDds.Concurrency.Ordering
import RustDds.Concurrency.Overtaking
import RustDds.Concurrency.Polling
import RustDds.Concurrency.Publishing
import RustDds.Concurrency.Retention
import RustDds.Concurrency.Roster
import RustDds.Concurrency.Wakeup
import RustDds.Core.QueueLaw
import RustDds.Core.SubInner
import RustDds.Discovery.Authentication
import RustDds.Discovery.Endpoints
import RustDds.Discovery.Eviction
import RustDds.Discovery.Ownership
import RustDds.Discovery.RoundTrip
import RustDds.Discovery.TopicIsolation
import RustDds.Discovery.Totality
import RustDds.Lib.Bitmap
import RustDds.Lib.Bytes
import RustDds.Lib.Checked
import RustDds.Lib.Cmd
import RustDds.Lib.Glob
import RustDds.Lib.Panic
import RustDds.Lib.Path
import RustDds.Lib.Pool
import RustDds.Lib.Run
import RustDds.Lib.Table
import RustDds.Lib.Tally
import RustDds.Lib.Tiling
import RustDds.Lib.Utf8
import RustDds.Lib.Visit
import RustDds.Lib.Window
import RustDds.Mock.Broker
import RustDds.Mock.History
import RustDds.Mock.Recording
import RustDds.Network.Announcing
import RustDds.Network.Delivery
import RustDds.Network.Discovery
import RustDds.Network.Honesty
import RustDds.Network.Hosts
import RustDds.Network.Integrity
import RustDds.Network.Isolation
import RustDds.Network.Machines
import RustDds.Network.Matching
import RustDds.Network.Meeting
import RustDds.Network.Numbers
import RustDds.Network.Outgoing
import RustDds.Network.PortFormula
import RustDds.Network.Ports
import RustDds.Network.Written
import RustDds.Reassembly.Isolation
import RustDds.Reassembly.NoPanic
import RustDds.Reassembly.Partition
import RustDds.Reassembly.RoundTrip
import RustDds.Reassembly.Soundness
import RustDds.Reassembly.Splitting
import RustDds.Relay.Forwarding
import RustDds.Relay.Node
import RustDds.Relay.Policies
import RustDds.Reliability.Answer
import RustDds.Reliability.Calls
import RustDds.Reliability.Copies
import RustDds.Reliability.Delivery
import RustDds.Reliability.EntityIds
import RustDds.Reliability.Overflow
import RustDds.Reliability.OwnHistory
import RustDds.Reliability.Recovery
import RustDds.Reliability.Round
import RustDds.Reliability.Sending
import RustDds.Reliability.Stall
import RustDds.Reliability.Tracker
import RustDds.Reliability.Transfer
import RustDds.Rtps.Arrival
import RustDds.Rtps.Cdr
import RustDds.Rtps.CheckedDecode
import RustDds.Rtps.DdsParticipant
import RustDds.Rtps.Exchange
import RustDds.Rtps.Fragment
import RustDds.Rtps.Framing
import RustDds.Rtps.Guid
import RustDds.Rtps.InlineQos
import RustDds.Rtps.Locator
import RustDds.Rtps.Message
import RustDds.Rtps.ParamLists
import RustDds.Rtps.Participant
import RustDds.Rtps.Pcap
import RustDds.Rtps.Persist
import RustDds.Rtps.Receive
import RustDds.Rtps.Registration
import RustDds.Rtps.Reliable
import RustDds.Rtps.Sedp
import RustDds.Rtps.Spdp
import RustDds.Rtps.Transport
import RustDds.Rtps.Wildcard
import RustDds.Rtps.Xcdr
import RustDds.Rtps.XcdrCalls
import RustDds.Rtps.XcdrStream
import RustDds.Security.Access
import RustDds.Security.Glob
import RustDds.Security.GlobMatch
import RustDds.Security.GlobSyntax
import RustDds.Security.Grammar
import RustDds.Security.Replay
import RustDds.Security.Sealing
import RustDds.Shmem.Crossing
import RustDds.Shmem.Ipc
import RustDds.Shmem.LateJoiner
import RustDds.Shmem.Loan
import RustDds.Shmem.Paths
import RustDds.Shmem.Publisher
import RustDds.Shmem.Rendezvous
import RustDds.Shmem.Watermark
