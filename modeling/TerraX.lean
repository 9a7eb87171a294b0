import TerraX.Lib.Framing
import TerraX.Net.PacketLayout
import TerraX.Lib.Run
import TerraX.SrvLib.PacketProcessor
import TerraX.SrvLib.PacketStream
import TerraX.SrvLib.PacketRoundTrip
import TerraX.GateServer.PacketProcessorGate
import TerraX.GateServer.Relay
import TerraX.GateServer.RelayStream
import TerraX.CenterServer.PacketProcessorCenter
import TerraX.CenterServer.Routing
import TerraX.CenterServer.ServerManagerCenter
import TerraX.CenterServer.ServerSync
import TerraX.CenterServer.ConnectionManager
import TerraX.CenterServer.Registration
import TerraX.SrvLib.PacketDelivery
import TerraX.Net.PacketDispatcher
import TerraX.SrvLib.Protocol
import TerraX.SrvLib.NetEvents
import TerraX.CenterServer.CenterServer
import TerraX.CenterServer.Connections
import TerraX.GateServer.GateServer
import TerraX.Lib.Outcome
import TerraX.GateServer.GateEvents
import TerraX.WorldServer.PacketProcessorWorld
import TerraX.GateServer.Registered
import TerraX.Cluster.GuestRouting
import TerraX.Cluster.Selection
import TerraX.Client.ClientFrames
import TerraX.Lib.Star
import TerraX.Cluster.Cluster
import TerraX.Cluster.Arrivals
import TerraX.Cluster.ExactlyOnce
import TerraX.Cluster.ClientPackets
import TerraX.Cluster.Login
import TerraX.Cluster.Authorisation
import TerraX.Net.ChannelIndexes
import TerraX.Client.UnreadBytes
import TerraX.Client.PacketCorruption
import TerraX.Cluster.PacketNames
import TerraX.Base.DynamicBitset
import TerraX.Base.PlainSet
import TerraX.Base.BitsetCount
import TerraX.Base.BitsetQueries
import TerraX.Base.RingFifo
import TerraX.Lib.Segments
import TerraX.LoginServer.DataPool
import TerraX.LoginServer.RowValues
import TerraX.LoginServer.RowStrings
import TerraX.Base.Container
import TerraX.GameServer.MissionComponent
import TerraX.Base.Observer
import TerraX.GameServer.AvatarComponent
import TerraX.Client.GameStates
import TerraX.Lib.Listing
import TerraX.LoginServer.FileReader
import TerraX.Tools.FileSearch
import TerraX.Lib.Owner
import TerraX.Lib.Qualified
import TerraX.LoginServer.TableConfig
import TerraX.Tools.CppEnumExport
import TerraX.Tools.TableEnums
import TerraX.Net.PeerFields
import TerraX.Lib.Stream
import TerraX.Client.Client
import TerraX.Cluster.ClientLogin
import TerraX.Cluster.ClientLoginPackets
import TerraX.Cluster.ClientLoginStreams
import TerraX.Cluster.ClientLoginTraffic
import TerraX.Cluster.ClientLoginRuns
import TerraX.Cluster.ClientRelay
import TerraX.Cluster.ClientRelayPackets
import TerraX.Cluster.ClientRelayServers
import TerraX.Cluster.ClientRelayRuns
import TerraX.Cluster.ClientRequests
import TerraX.Lib.OrderedDict
import TerraX.Tools.JsonExporter
import TerraX.Tools.SheetTables
import TerraX.SrvLib.ChannelEvents
import TerraX.Lib.Effect
import TerraX.Lib.FileTree
import TerraX.Lib.Literals
import TerraX.Tools.Exporter
import TerraX.Tools.FolderExport
import TerraX.Tools.ClearTree
import TerraX.Tools.TreeExport
