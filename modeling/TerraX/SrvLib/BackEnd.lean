import TerraX.Net.NetChannel
import TerraX.SrvLib.ServerManager

/-!
# The back end of a gate or world server

What gate and world servers do on the channel to the center: they log in, they test the
destination of every packet that arrives against the peer info of the channel, and they
handle `PktRegisterAck` and `PktServerSync`. Packets are taken as what `SendPacketByChannel`
puts into them: one destination, an owner and a message.

## Main definitions

- `ServerMessage`, `ServerPacket` — what servers send to each other
- `Gate.target`, `World.target` — the tests of destinations
- `Server`, with `login2Center`, `deliverPacket` and `receive`

## Main results

- `Server.receive_registerAck`, `Server.receive_serverSync` — packets that pass the test
-/

namespace TerraX

open Memory

/-- The messages that a server and the center exchange when the server registers. -/
inductive ServerMessage
  | pktRegisterReq
  | pktRegisterAck (serverInfo : Word)
  | pktServerSync (pkt : PktServerSync)
deriving DecidableEq, Repr

/-- A packet with one destination. -/
structure ServerPacket where
  destInfo : Word
  ownerInfo : Word
  msg : ServerMessage
deriving DecidableEq, Repr

/-- Where the test of its destination sends a packet from the center: to a handler, on the
    channel to the center or on that of a client; to a client; or nowhere. -/
inductive Target
  | backEnd
  | frontEnd (channelIndex : UInt16)
  | client (channelIndex : UInt16)
  | nobody
deriving DecidableEq, Repr

/-- The test in `PacketProcessor_Gate::ForwardPacketOnBackEnd`. -/
def Gate.target (backChannel : NetChannel) (destInfo : Word) : Target :=
  let pi := PeerInfo.parse destInfo
  if pi.peerType = .gateserver then
    if backChannel.getPeerInfo = destInfo then .backEnd
    else if pi.peerIndex.toNat = backChannel.getChannelIndex.toNat then .frontEnd pi.channelIndex
    else .nobody
  else if pi.peerType = .client then
    if pi.peerIndex.toNat = backChannel.getChannelIndex.toNat then .client pi.channelIndex
    else .nobody
  else .nobody

/-- The test in `PacketProcessor_World::ForwardPacketOnBackEnd`. -/
def World.target (build : Build) (backChannel : NetChannel) (destInfo : Word) :
    Except Fault Target := do
  if backChannel.getPeerInfo = destInfo then return .backEnd
  else
    -- The world server knows no other address, and asserts here.
    check build False
    return .nobody

/-- A gate or world server that is connected to the center. The packets that it has
    received, each with the outcome of the test, are kept to speak about them. -/
structure Server where
  peerType : PeerType
  backEnd : NetChannel
  frontEnd : NetServer
  infos : ServerInfos
  loggedIn : Bool
  received : List (ServerPacket × Target)

namespace Server

/-- `PacketProcessor::Connect`, when the connection is there. -/
def connect (peerType : PeerType) (frontEnd : NetServer) : Server where
  peerType := peerType
  backEnd := NetChannel.setPeerType { connState := .connected } peerType
  frontEnd := frontEnd
  infos := fun _ => none
  loggedIn := false
  received := []

/-- The packet that `Login2Center` sends. -/
def login2Center (peerType : PeerType) : ServerPacket where
  destInfo := PeerInfo.serialize { peerType := .centerserver }
  ownerInfo := PeerInfo.serialize { peerType := peerType }
  msg := .pktRegisterReq

/-- `PacketDispatcher::DeliverPacket` with the handlers of a gate or world server. It asserts
    that there is a handler. -/
def deliverPacket (build : Build) (srv : Server) : ServerMessage → Except Fault Server
  | .pktRegisterAck serverInfo =>
    return { srv with backEnd := srv.backEnd.setPeerInfo serverInfo }
  | .pktServerSync pkt => do
    let infos ← ServerManager.onMessagePktServerSync build srv.infos pkt
    return { srv with infos := infos }
  | .pktRegisterReq => do
    check build False
    return srv

def target (build : Build) (srv : Server) (destInfo : Word) : Except Fault Target :=
  if srv.peerType = .gateserver then .ok (Gate.target srv.backEnd destInfo)
  else World.target build srv.backEnd destInfo

/-- What follows the test. A packet for a client changes nothing at the server. -/
def forward (build : Build) (srv : Server) (msg : ServerMessage) : Target → Except Fault Server
  | .backEnd => srv.deliverPacket build msg
  | .frontEnd channelIndex =>
    match srv.frontEnd.getChannel channelIndex with
    | none => return srv
    | some _ => srv.deliverPacket build msg
  | .client _ => return srv
  | .nobody => return srv

/-- `ForwardPacketOnBackEnd`. -/
def receive (build : Build) (srv : Server) (pkt : ServerPacket) : Except Fault Server := do
  let target ← srv.target build pkt.destInfo
  let srv ← srv.forward build pkt.msg target
  return { srv with received := srv.received ++ [(pkt, target)] }

/-! ### Packets that pass the test -/

theorem target_of_eq (build : Build) {srv : Server} {destInfo : Word}
    (h : srv.backEnd.getPeerInfo = destInfo)
    (htype : PeerInfo.getPeerType destInfo = srv.peerType) :
    srv.target build destInfo = .ok .backEnd := by
  unfold target
  by_cases hgate : srv.peerType = .gateserver
  · rw [if_pos hgate, Gate.target, PeerInfo.parse_eq, htype]
    rw [if_pos hgate, if_pos h]
  · rw [if_neg hgate, World.target, if_pos h]
    rfl

theorem receive_registerAck (build : Build) {srv : Server} {pkt : ServerPacket} {serverInfo : Word}
    (h : srv.backEnd.getPeerInfo = pkt.destInfo)
    (htype : PeerInfo.getPeerType pkt.destInfo = srv.peerType)
    (hmsg : pkt.msg = .pktRegisterAck serverInfo) :
    srv.receive build pkt =
      .ok { srv with
        backEnd := srv.backEnd.setPeerInfo serverInfo
        received := srv.received ++ [(pkt, .backEnd)] } := by
  rw [receive, target_of_eq build h htype, ok_bind, forward, hmsg]
  rfl

theorem receive_serverSync (build : Build) {srv : Server} {pkt : ServerPacket} {sync : PktServerSync}
    (h : srv.backEnd.getPeerInfo = pkt.destInfo)
    (htype : PeerInfo.getPeerType pkt.destInfo = srv.peerType)
    (hmsg : pkt.msg = .pktServerSync sync) (hadd : sync.type = .add) :
    ∃ infos, srv.receive build pkt =
      .ok { srv with
        infos := infos
        received := srv.received ++ [(pkt, .backEnd)] } := by
  obtain ⟨type, serverInfo⟩ := sync
  cases hadd
  refine ⟨serverInfo.foldl ServerInfos.add srv.infos, ?_⟩
  rw [receive, target_of_eq build h htype, ok_bind, forward, hmsg]
  rfl

end Server

end TerraX
