import SslSocks.AddressRecords
import SslSocks.ConnectRequest
import SslSocks.DirectRelay
import SslSocks.FrameReader
import SslSocks.GfwList
import SslSocks.GfwPatterns
import SslSocks.IdleTimer
import SslSocks.Manager
import SslSocks.ManagerAlive
import SslSocks.ManagerStop
import SslSocks.NodeLedger
import SslSocks.NodeParts
import SslSocks.NodeRelays
import SslSocks.NodeRoutes
import SslSocks.NodeSteps
import SslSocks.NodeWalk
import SslSocks.NormalClose
import SslSocks.ReadLoops
import SslSocks.RelayAsks
import SslSocks.RelayLife
import SslSocks.RelaySlots
import SslSocks.RelaySteps
import SslSocks.RelayStop
import SslSocks.RemoteKinds
import SslSocks.SendOnce
import SslSocks.SendOrder
import SslSocks.SendQueue
import SslSocks.SessionIds
import SslSocks.SessionOwners
import SslSocks.SessionWrap
import SslSocks.StartFirst
import SslSocks.System
import SslSocks.TrafficKinds
import SslSocks.UdpPeers
import SslSocks.UdpReplies
import SslSocks.UdpRoundTrip
import SslSocks.UdpTables
import SslSocks.UdpTruncation
import SslSocks.UdpWindows
import SslSocks.SslStreams
import SslSocks.SessionStreams
import SslSocks.StreamIntegrity
import SslSocks.Dealings
import SslSocks.Expiry
import SslSocks.NodeMoves
import SslSocks.Orphans
import SslSocks.Tunnel
import SslSocks.UdpDatagrams
import SslSocks.Connections
import SslSocks.UdpCaptured
import SslSocks.UdpDelivery
import SslSocks.Destinations
import SslSocks.UdpReturns
