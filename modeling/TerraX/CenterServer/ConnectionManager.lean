import TerraX.CenterServer.PacketProcessorCenter
import TerraX.CenterServer.ServerManagerCenter
import TerraX.SrvLib.BackEnd

/-!
# The registration of servers at the center

`ConnectionManager::OnMessage_PktRegisterReq`, with what surrounds it: the routing of a
packet with one destination, its delivery to the handlers of the center, and the packets
that the center sends on its channels.

## Main definitions

- `CenterState` — the channels and the registry of the center
- `ConnectionManager.onMessagePktRegisterReq`
- `CenterState.receive` — what the center does with a packet of a server

## Main results

- `CenterState.receive_registerReq` — the answer to the request of a new server
-/

namespace TerraX

open Memory

/-- The channels of the center and `ServerManager_Center`. -/
structure CenterState where
  frontEnd : NetServer
  infos : ServerInfos

/-- `ConnectionManager::OnMessage_PktRegisterReq`. -/
def ConnectionManager.onMessagePktRegisterReq (build : Build) (center : CenterState)
    (channelIndex : UInt16) (srcPeerInfo : Word) :
    Except Fault (CenterState × List (Outgoing ServerMessage)) := do
  let piSrc := PeerInfo.parse srcPeerInfo
  check build (channelIndex ≠ 0 ∧ piSrc.channelIndex = 0)
  check build (piSrc.peerIndex = 0)
  check build (PeerType.client.code < piSrc.peerType.code ∧
    piSrc.peerType.code < PeerType.peerCount.code)
  match center.frontEnd.getChannel channelIndex with
  | none => return (center, [])
  | some channel =>
    let frontEnd := center.frontEnd.setChannel channelIndex (channel.setPeerType piSrc.peerType)
    let regPeerInfo := PeerInfo.serialize { piSrc with channelIndex := channelIndex }
    let ack : Outgoing ServerMessage :=
      ⟨channelIndex, srcPeerInfo, regPeerInfo, .pktRegisterAck regPeerInfo⟩
    let (infos, sent) := ServerManagerCenter.onServerAdded center.infos regPeerInfo
    return (⟨frontEnd, infos⟩, ack :: sent.map fun o =>
      ⟨o.channelIndex, o.destInfo, o.ownerInfo, .pktServerSync o.msg⟩)

/-- `PacketProcessor::SendPacket2FrontEnd`: a channel gets the packet if it is connected. -/
def NetServer.transmit (net : NetServer) (sent : List (Outgoing ServerMessage)) :
    List (UInt16 × ServerPacket) :=
  (sent.filter fun o => net.connected o.channelIndex).map fun o =>
    (o.channelIndex, ⟨o.destInfo, o.ownerInfo, o.msg⟩)

namespace CenterState

/-- `PacketDispatcher::DeliverPacket` with the handlers of the center. -/
def deliverPacket (build : Build) (center : CenterState) (channelIndex : UInt16) (ownerInfo : Word) :
    ServerMessage → Except Fault (CenterState × List (UInt16 × ServerPacket))
  | .pktRegisterReq => do
    let (center, sent) ←
      ConnectionManager.onMessagePktRegisterReq build center channelIndex ownerInfo
    return (center, center.frontEnd.transmit sent)
  | .pktServerSync pkt => do
    let infos ← ServerManager.onMessagePktServerSync build center.infos pkt
    return ({ center with infos := infos }, [])
  | .pktRegisterAck _ => do
    check build False
    return (center, [])

/-- `PacketProcessor_Center::ForwardPacketOnFrontEnd` for a packet with one destination: a
    handler gets it, or the next hop of its destination. -/
def receive (build : Build) (center : CenterState) (front : NetChannel) (pkt : ServerPacket) :
    Except Fault (CenterState × List (UInt16 × ServerPacket)) :=
  match Center.hopOf pkt.destInfo with
  | none => deliverPacket build center front.peerInfo.toUInt16 pkt.ownerInfo pkt.msg
  | some channelIndex =>
    .ok (center, if center.frontEnd.connected channelIndex then [(channelIndex, pkt)] else [])

end CenterState

/-! ### The request of a new server -/

/-- The peer info that the center gives to a server. -/
def regInfo (peerType : PeerType) (channelIndex : UInt16) : Word :=
  PeerInfo.serialize { peerType := peerType, channelIndex := channelIndex }

/-- The packet with the `PktRegisterAck`. -/
def ackPacket (peerType : PeerType) (channelIndex : UInt16) : ServerPacket where
  destInfo := PeerInfo.serialize { peerType := peerType }
  ownerInfo := regInfo peerType channelIndex
  msg := .pktRegisterAck (regInfo peerType channelIndex)

@[simp] theorem getPeerType_regInfo (t : PeerType) (c : UInt16) :
    PeerInfo.getPeerType (regInfo t c) = t := PeerInfo.getPeerType_serialize _

@[simp] theorem getChannelIndex_regInfo (t : PeerType) (c : UInt16) :
    PeerInfo.getChannelIndex (regInfo t c) = c := PeerInfo.getChannelIndex_serialize _

/-- `DeliverPacket` takes the peer info of a channel as its channel index. -/
theorem toUInt16_serialize (pi : PeerInfo) : pi.serialize.toUInt16 = pi.channelIndex := by
  have hc := pi.channelIndex.toNat_lt
  apply UInt16.toNat_inj.mp
  rw [UInt32.toNat_toUInt16, PeerInfo.serialize_toNat]
  omega

/-- What the center tells the servers about a new one is addressed to the new one or to one
    that is registered, sent on the channel of that server, and adds peer infos. -/
theorem onServerAdded_outgoing {infos : ServerInfos} (hinfos : infos.WellTyped) {peerInfo : Word}
    (h : ServerManagerCenter.IsServer (PeerInfo.getPeerType peerInfo))
    {o : Outgoing PktServerSync} (ho : o ∈ (ServerManagerCenter.onServerAdded infos peerInfo).2) :
    (o.destInfo = peerInfo ∨
      ∃ t, ServerManagerCenter.IsServer t ∧ o.destInfo ∈ infos.known t) ∧
    o.channelIndex = PeerInfo.getChannelIndex o.destInfo ∧ o.msg.type = .add := by
  obtain ⟨serverInfo, -, hsent⟩ := ServerManagerCenter.onServerAdded_sent infos h
  obtain ⟨told, -, hmem, hbroadcast⟩ :=
    ServerManagerCenter.broadCastServerInfoChanged_eq hinfos h
  rw [hsent, hbroadcast, List.mem_cons, List.mem_map] at ho
  rcases ho with rfl | ⟨var, hvar, rfl⟩
  · exact ⟨Or.inl rfl, rfl, rfl⟩
  · obtain ⟨t, ht, hknown⟩ := (hmem var).mp hvar
    exact ⟨Or.inr ⟨t, ht.1, hknown⟩, rfl, rfl⟩

theorem NetServer.connected_of_getChannel {net : NetServer} {c : UInt16} {channel : NetChannel}
    (h : net.getChannel c = some channel) (hstate : channel.connState = .connected) :
    net.connected c = true := by
  rw [connected, h]
  simp [NetChannel.sendMsg, hstate]

/-- The center answers the request of a server with the ack, before anything else that it
    sends, and files the server under its peer type and channel. Behind the ack comes what
    `OnServerAdded` sends, on the channels that are connected. -/
theorem CenterState.receive_registerReq (build : Build) {center : CenterState} {c : UInt16}
    {channel : NetChannel} {t : PeerType} (hc : c ≠ 0)
    (hchannel : center.frontEnd.getChannel c = some channel)
    (hstate : channel.connState = .connected) (hindex : channel.peerInfo.toUInt16 = c)
    (ht : ServerManagerCenter.IsServer t) :
    ∃ rest, center.receive build channel (Server.login2Center t) =
        .ok (⟨center.frontEnd.setChannel c (channel.setPeerType t), center.infos.add (regInfo t c)⟩,
          (c, ackPacket t c) :: rest) ∧
      ∀ x, x ∈ rest ↔ ∃ o ∈ (ServerManagerCenter.onServerAdded center.infos (regInfo t c)).2,
        (center.frontEnd.setChannel c (channel.setPeerType t)).connected o.channelIndex = true ∧
          x = (o.channelIndex, ⟨o.destInfo, o.ownerInfo, .pktServerSync o.msg⟩) := by
  generalize hfront : center.frontEnd.setChannel c (channel.setPeerType t) = front
  generalize hsent : (ServerManagerCenter.onServerAdded center.infos (regInfo t c)).2.map
    (fun o => (⟨o.channelIndex, o.destInfo, o.ownerInfo, .pktServerSync o.msg⟩ :
      Outgoing ServerMessage)) = sent
  have hset : front.getChannel c = some (channel.setPeerType t) := by
    rw [← hfront, NetServer.getChannel_setChannel, if_pos rfl]
  have hconn : front.connected c = true := NetServer.connected_of_getChannel hset hstate
  have htype : PeerType.client.code < t.code ∧ t.code < PeerType.peerCount.code := by
    rcases ht with rfl | rfl | rfl <;> decide
  have hreq : ConnectionManager.onMessagePktRegisterReq build center c
      (PeerInfo.serialize { peerType := t }) = .ok (⟨front, center.infos.add (regInfo t c)⟩,
        ⟨c, PeerInfo.serialize { peerType := t }, regInfo t c, .pktRegisterAck (regInfo t c)⟩ ::
          sent) := by
    rw [ConnectionManager.onMessagePktRegisterReq, PeerInfo.parse_serialize,
      check_of build ⟨hc, rfl⟩, ok_bind, check_of build rfl, ok_bind, check_of build htype,
      ok_bind, hchannel]
    simp only [pure_eq_ok]
    rw [← hsent, ← hfront]
    rfl
  have hhop : Center.hopOf (Server.login2Center t).destInfo = none := by
    rw [Server.login2Center, Center.hopOf, PeerInfo.parse_serialize, if_pos rfl]
  refine ⟨front.transmit sent, ?_, fun x => ?_⟩
  · have htransmit : front.transmit (⟨c, PeerInfo.serialize { peerType := t }, regInfo t c,
        .pktRegisterAck (regInfo t c)⟩ :: sent) = (c, ackPacket t c) :: front.transmit sent := by
      simp only [NetServer.transmit, List.filter_cons, hconn, if_true, List.map_cons]
      rfl
    simp only [CenterState.receive, hhop, hindex]
    rw [Server.login2Center, CenterState.deliverPacket, hreq, ok_bind]
    simp only [pure_eq_ok, htransmit]
  · rw [NetServer.transmit, ← hsent, List.filter_map, List.map_map, List.mem_map]
    constructor
    · rintro ⟨o, ho, rfl⟩
      exact ⟨o, List.mem_of_mem_filter ho, (List.mem_filter.mp ho).2, rfl⟩
    · rintro ⟨o, ho, hto, rfl⟩
      exact ⟨o, List.mem_filter.mpr ⟨ho, hto⟩, rfl⟩

end TerraX
