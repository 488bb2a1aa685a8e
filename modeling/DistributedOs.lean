import DistributedOs.Adaptive.HillClimb
import DistributedOs.Adaptive.Reverts
import DistributedOs.Android.Cancels
import DistributedOs.Android.DownloadSignal
import DistributedOs.Android.Locks
import DistributedOs.Android.Prompts
import DistributedOs.Android.Resume
import DistributedOs.Cli.FileDownload
import DistributedOs.Cli.StreamUploads
import DistributedOs.Cli.TransferHistory
import DistributedOs.Cli.VideoStream
import DistributedOs.Control.Debounce
import DistributedOs.Control.SafeBounds
import DistributedOs.Coordinator.AcceptedFiles
import DistributedOs.Coordinator.Addresses
import DistributedOs.Coordinator.Agreement
import DistributedOs.Coordinator.EngineRecords
import DistributedOs.Coordinator.Responders
import DistributedOs.Coordinator.Terminals
import DistributedOs.Coordinator.Transitions
import DistributedOs.Datagram.Acknowledgements
import DistributedOs.Datagram.Coverage
import DistributedOs.Datagram.Signal
import DistributedOs.Desktop.FileTransfer
import DistributedOs.Discovery.Grammar
import DistributedOs.Engine.BufferPool
import DistributedOs.Engine.Recovery
import DistributedOs.Engine.ZeroCopy
import DistributedOs.Http.Archive
import DistributedOs.Http.AtomicReceive
import DistributedOs.Http.CompleteUploads
import DistributedOs.Http.HandshakeResponse
import DistributedOs.Http.RequestHeads
import DistributedOs.Http.StreamedFile
import DistributedOs.Http.UploadLoops
import DistributedOs.Mac.ConnectionManager
import DistributedOs.Nio.ParallelDownload
import DistributedOs.Nio.RawFrames
import DistributedOs.Pairing.Blocking
import DistributedOs.Pairing.Exchange
import DistributedOs.Pairing.PinPairing
import DistributedOs.Pairing.QrPairing
import DistributedOs.Pairing.SharedStore
import DistributedOs.Relay.Routing
import DistributedOs.Relay.Search
import DistributedOs.Reliable.AckedPrefix
import DistributedOs.Reliable.Delivery
import DistributedOs.Reliable.FrameReader
import DistributedOs.Reliable.Reception
import DistributedOs.Reliable.SendCounts
import DistributedOs.Resume.Attempts
import DistributedOs.Runtime.CommandRuns
import DistributedOs.Runtime.PeerServer
import DistributedOs.Storage.NodeRepository
import DistributedOs.Storage.Settings
import DistributedOs.Transfer.DeviceIdentity
import DistributedOs.Transfer.IdleMonitor
import DistributedOs.Transfer.Keepalive
import DistributedOs.Transfer.QuicDelivery
import DistributedOs.Transfer.RelayClient
import DistributedOs.Transfer.Scheduler
import DistributedOs.Traversal.Responses
import DistributedOs.Tunnel.Frames
import DistributedOs.Tunnel.Registry
