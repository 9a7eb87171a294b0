import TerraX.CenterServer.ConnectionManager
import TerraX.SrvLib.NetEvents

/-!
# The center server

The handlers that the center registers in its dispatcher, those of its net events, and what
it does with a packet that has arrived and passed `is_valid`. The printing is left out.

## Main definitions

- `CenterServer`, with `sendPacket` and the handlers of messages and events
- `CenterServer.deliverPacket`, `CenterServer.forwardPacketOnFrontEnd`
- `CenterServer.requested` — what a request leads to
- `CenterServer.DeliverAsserts` — what a debug build asserts of a packet that is delivered

## Main results

- `CenterServer.deliverPacket_ok` — what a packet can do at the center
- `CenterServer.onMessagePktRegisterReq_ok` — what a request does
- `CenterServer.deliverPacket_returns_iff` — which packets can be delivered
-/

namespace TerraX

open Memory

/-- The message of a `ServerMessage`. -/
def ServerMessage.packetMsg : ServerMessage → PacketMsg
  | pktRegisterReq => ⟨.pktRegisterReq, ()⟩
  | pktRegisterAck serverInfo => ⟨.pktRegisterAck, serverInfo⟩
  | pktServerSync pkt => ⟨.pktServerSync, pkt⟩

/-- The center, with what it has written to its channels. -/
structure CenterServer extends CenterState where
  sent : List Output := []

namespace CenterServer

/-- `CenterServer::InitNetModule`. -/
def initNetModule (maxConns : UInt16) : CenterServer where
  frontEnd := .new maxConns
  infos := (ServerManagerCenter.onServerAdded (fun _ => none)
    (PeerInfo.serialize { peerType := .centerserver })).1

/-- `PacketProcessor_Center::SendPacket`. -/
def sendPacket (center : CenterServer) (channelIndex : UInt16) (destInfo ownerInfo : Word)
    (msg : PacketMsg) : CenterServer :=
  if center.frontEnd.connected channelIndex then
    { center with sent := center.sent ++ [.packet (.frontEnd channelIndex) destInfo ownerInfo msg] }
  else center

/-- A series of calls of `SendPacket`. -/
def sendPackets (center : CenterServer) (out : List (Outgoing ServerMessage)) : CenterServer :=
  out.foldl (fun center o => center.sendPacket o.channelIndex o.destInfo o.ownerInfo o.msg.packetMsg)
    center

/-! ### The handlers of messages -/

/-- `ConnectionManager::OnMessage_PktRegisterReq`. -/
def onMessagePktRegisterReq (build : Build) (channelIndex : UInt16) (srcPeerInfo : Word)
    (center : CenterServer) : Except Fault CenterServer := do
  let (state, out) ←
    ConnectionManager.onMessagePktRegisterReq build center.toCenterState channelIndex srcPeerInfo
  return sendPackets { center with toCenterState := state } out

/-- `LoginManager::OnMessage_PktEnterPermissionReq`. No session key is checked. -/
def onMessagePktEnterPermissionReq (channelIndex : UInt16) (guestId : Word)
    (center : CenterServer) : Except Fault CenterServer :=
  .ok (center.sendPacket channelIndex guestId guestId ⟨.pktEnterPermissionAck, CheckResult.ok⟩)

/-- `ServerManager::OnMessage_PktServerSync`. -/
def onMessagePktServerSync (build : Build) (pkt : PktServerSync) (center : CenterServer) :
    Except Fault CenterServer := do
  let infos ← ServerManager.onMessagePktServerSync build center.infos pkt
  return { center with infos }

/-- The handlers that the center has registered. -/
def callBacks (build : Build) : List (CallBack PacketType.Fields CenterServer) :=
  [⟨.pktRegisterReq, fun channelIndex owner _ => onMessagePktRegisterReq build channelIndex owner⟩,
    ⟨.pktEnterPermissionReq, fun channelIndex owner _ =>
      onMessagePktEnterPermissionReq channelIndex owner⟩,
    ⟨.pktServerSync, fun _ _ pkt => onMessagePktServerSync build pkt⟩]

/-- `PacketDispatcher::DeliverPacket` at the center. -/
def deliverPacket (env : Env) (packet : Dispatch) (center : CenterServer) :
    Except Fault CenterServer :=
  PacketDispatcher.deliverPacket env.build PacketType.descriptor env.parse (callBacks env.build)
    packet center

theorem nodup_callBacks (build : Build) : ((callBacks build).map CallBack.packetType).Nodup := by
  change [PacketType.pktRegisterReq, .pktEnterPermissionReq, .pktServerSync].Nodup
  decide

/-- What a packet can do at the center if its delivery returns. -/
theorem deliverPacket_ok {env : Env} {packet : Dispatch} {center center' : CenterServer}
    (h : center.deliverPacket env packet = .ok center') :
    (packet.Holds env .pktRegisterReq () ∧
      onMessagePktRegisterReq env.build packet.channelIndex packet.ownerInfo center =
        .ok center') ∨
    (∃ pkt, packet.Holds env .pktEnterPermissionReq pkt ∧
      center' = center.sendPacket packet.channelIndex packet.ownerInfo packet.ownerInfo
        ⟨.pktEnterPermissionAck, CheckResult.ok⟩) ∨
    (∃ pkt infos, packet.Holds env .pktServerSync pkt ∧
      ServerManager.onMessagePktServerSync env.build center.infos pkt = .ok infos ∧
      center' = { center with infos }) ∨
    center' = center := by
  rcases PacketDispatcher.deliverPacket_cases env.build PacketType.descriptor env.parse h with
    ⟨it, hit, msg, hnamed, hmsg, hrun⟩ | hok | herror
  · simp only [callBacks, List.mem_cons, List.not_mem_nil, or_false] at hit
    rcases hit with rfl | rfl | rfl
    · exact Or.inl ⟨⟨hnamed, hmsg⟩, hrun.symm⟩
    · cases hrun
      exact Or.inr (Or.inl ⟨msg, ⟨hnamed, hmsg⟩, rfl⟩)
    · obtain ⟨infos, hinfos, hrun⟩ := bind_eq_ok.mp hrun.symm
      cases hrun
      exact Or.inr (Or.inr (Or.inl ⟨msg, infos, ⟨hnamed, hmsg⟩, hinfos, rfl⟩))
  · cases hok
    exact Or.inr (Or.inr (Or.inr rfl))
  · cases herror

/-! ### What the handlers keep -/

theorem sendPacket_toCenterState (center : CenterServer) (c : UInt16) (dest owner : Word)
    (msg : PacketMsg) : (center.sendPacket c dest owner msg).toCenterState = center.toCenterState := by
  unfold sendPacket
  split <;> rfl

/-- Sending changes neither the channels nor the registry. -/
theorem sendPackets_toCenterState (center : CenterServer) (out : List (Outgoing ServerMessage)) :
    (center.sendPackets out).toCenterState = center.toCenterState := by
  induction out generalizing center with
  | nil => rfl
  | cons o out ih =>
    rw [sendPackets, List.foldl_cons]
    exact (ih _).trans (sendPacket_toCenterState center ..)

/-- The assertions on a request, which a debug build checks. -/
def RequestAsserts (build : Build) (c : UInt16) (srcPeerInfo : Word) : Prop :=
  let piSrc := PeerInfo.parse srcPeerInfo
  build = .debug → (c ≠ 0 ∧ piSrc.channelIndex = 0) ∧ piSrc.peerIndex = 0 ∧
    PeerType.client.code < piSrc.peerType.code ∧ piSrc.peerType.code < PeerType.peerCount.code

/-- The channel of a request takes the type of its source, and the registry the peer info that is
    made of both. Nothing happens if the channel is gone. -/
def requested (center : CenterServer) (c : UInt16) (srcPeerInfo : Word) : CenterState :=
  let piSrc := PeerInfo.parse srcPeerInfo
  match center.frontEnd.getChannel c with
  | none => center.toCenterState
  | some channel => ⟨center.frontEnd.setChannel c (channel.setPeerType piSrc.peerType),
      center.infos.add (PeerInfo.serialize { piSrc with channelIndex := c })⟩

theorem onMessagePktRegisterReq_ok {build : Build} {c : UInt16} {srcPeerInfo : Word}
    {center center' : CenterServer}
    (h : onMessagePktRegisterReq build c srcPeerInfo center = .ok center') :
    RequestAsserts build c srcPeerInfo ∧ center'.toCenterState = center.requested c srcPeerInfo := by
  rw [CenterServer.onMessagePktRegisterReq, ConnectionManager.onMessagePktRegisterReq] at h
  obtain ⟨⟨state, out⟩, hstate, h⟩ := bind_eq_ok.mp h
  obtain ⟨_, hchannel, hstate⟩ := bind_eq_ok.mp hstate
  obtain ⟨_, hindex, hstate⟩ := bind_eq_ok.mp hstate
  obtain ⟨_, htype, hstate⟩ := bind_eq_ok.mp hstate
  rw [check_ok_iff] at hchannel hindex htype
  refine ⟨fun hb => ⟨hchannel hb, hindex hb, htype hb⟩, ?_⟩
  cases h
  rw [sendPackets_toCenterState, requested]
  cases hget : center.frontEnd.getChannel c with
  | none =>
    rw [hget] at hstate
    cases hstate
    rfl
  | some channel =>
    rw [hget] at hstate
    cases hstate
    rfl

theorem onMessagePktRegisterReq_returns {build : Build} {c : UInt16} {srcPeerInfo : Word}
    (center : CenterServer) (h : RequestAsserts build c srcPeerInfo) :
    ∃ center', onMessagePktRegisterReq build c srcPeerInfo center = .ok center' := by
  rw [CenterServer.onMessagePktRegisterReq, ConnectionManager.onMessagePktRegisterReq,
    check_of_debug fun hb => (h hb).1, ok_bind, check_of_debug fun hb => (h hb).2.1, ok_bind,
    check_of_debug fun hb => (h hb).2.2, ok_bind]
  cases center.frontEnd.getChannel c with
  | none => exact ⟨_, rfl⟩
  | some channel => exact ⟨_, rfl⟩

/-- A request that meets the assertions: the channel takes the type of the server, and the
    registry its peer info. -/
theorem onMessagePktRegisterReq_eq (build : Build) {center : CenterServer} {c : UInt16}
    {channel : NetChannel} {t : PeerType} (hc : c ≠ 0)
    (hchannel : center.frontEnd.getChannel c = some channel)
    (ht : PeerType.client.code < t.code ∧ t.code < PeerType.peerCount.code) :
    ∃ center', onMessagePktRegisterReq build c (PeerInfo.serialize { peerType := t }) center =
        .ok center' ∧
      center'.toCenterState =
        ⟨center.frontEnd.setChannel c (channel.setPeerType t), center.infos.add (regInfo t c)⟩ := by
  have hasserts : RequestAsserts build c (PeerInfo.serialize { peerType := t }) := by
    intro _
    rw [PeerInfo.parse_serialize]
    exact ⟨⟨hc, rfl⟩, rfl, ht⟩
  obtain ⟨center', hrun⟩ := onMessagePktRegisterReq_returns center hasserts
  obtain ⟨-, hstate⟩ := onMessagePktRegisterReq_ok hrun
  refine ⟨center', hrun, hstate.trans ?_⟩
  rw [requested, PeerInfo.parse_serialize]
  dsimp only
  rw [hchannel]
  rfl

/-! ### Which packets the handlers accept -/

/-- What a debug build asserts of a packet that is delivered at the center: a handler is there, it
    can read the message, and its own assertions hold. -/
def DeliverAsserts (env : Env) (packet : Dispatch) (center : CenterServer) : Prop :=
  (packet.Holds env .pktRegisterReq () ∧
    RequestAsserts env.build packet.channelIndex packet.ownerInfo) ∨
  (∃ pkt, packet.Holds env .pktEnterPermissionReq pkt) ∨
  ∃ pkt, packet.Holds env .pktServerSync pkt ∧ ServerManager.SyncAsserts center.infos pkt

/-- A release build asserts nothing, and all handlers return in it. -/
theorem deliverPacket_release {env : Env} (hbuild : env.build = .release) (packet : Dispatch)
    (center : CenterServer) : ∃ center', center.deliverPacket env packet = .ok center' := by
  rw [deliverPacket, hbuild]
  rcases PacketDispatcher.deliverPacket_release PacketType.descriptor env.parse
    (callBacks .release) packet center with ⟨it, hit, msg, -, hrun⟩ | hrun
  · rw [hrun]
    simp only [callBacks, List.mem_cons, List.not_mem_nil, or_false] at hit
    rcases hit with rfl | rfl | rfl
    · exact onMessagePktRegisterReq_returns center nofun
    · exact ⟨_, rfl⟩
    · obtain ⟨infos, hinfos⟩ :=
        (ServerManager.onMessagePktServerSync_returns_iff .release center.infos msg).mpr nofun
      simp only [onMessagePktServerSync, hinfos, ok_bind]
      exact ⟨_, rfl⟩
  · exact ⟨center, hrun⟩

theorem deliverPacket_returns_iff (env : Env) (packet : Dispatch) (center : CenterServer) :
    (∃ center', center.deliverPacket env packet = .ok center') ↔
      (env.build = .debug → center.DeliverAsserts env packet) := by
  cases hbuild : env.build with
  | release => exact iff_of_true (deliverPacket_release hbuild packet center) nofun
  | debug =>
    have hsync : ∀ pkt, (∃ center', onMessagePktServerSync env.build pkt center = .ok center') ↔
        ServerManager.SyncAsserts center.infos pkt := by
      intro pkt
      refine Iff.trans returns_bind_iff
        ((ServerManager.onMessagePktServerSync_returns_iff ..).trans ?_)
      rw [hbuild]
      exact forall_prop_of_true rfl
    rw [forall_prop_of_true rfl, deliverPacket,
      PacketDispatcher.deliverPacket_debug_iff hbuild (nodup_callBacks env.build)]
    constructor
    · rintro ⟨it, hit, msg, hholds, center', hrun⟩
      simp only [callBacks, List.mem_cons, List.not_mem_nil, or_false] at hit
      rcases hit with rfl | rfl | rfl
      · exact Or.inl ⟨hholds, (onMessagePktRegisterReq_ok hrun).1⟩
      · exact Or.inr (Or.inl ⟨msg, hholds⟩)
      · exact Or.inr (Or.inr ⟨msg, hholds, (hsync msg).mp ⟨center', hrun⟩⟩)
    · rintro (⟨hholds, hasserts⟩ | ⟨pkt, hholds⟩ | ⟨pkt, hholds, hasserts⟩)
      · exact ⟨⟨.pktRegisterReq, fun channelIndex owner _ =>
            onMessagePktRegisterReq env.build channelIndex owner⟩, by simp [callBacks], (), hholds,
          onMessagePktRegisterReq_returns center hasserts⟩
      · exact ⟨⟨.pktEnterPermissionReq, fun channelIndex owner _ =>
            onMessagePktEnterPermissionReq channelIndex owner⟩, by simp [callBacks], pkt, hholds,
          _, rfl⟩
      · exact ⟨⟨.pktServerSync, fun _ _ pkt => onMessagePktServerSync env.build pkt⟩,
          by simp [callBacks], pkt, hholds, (hsync pkt).mpr hasserts⟩

/-- A packet that has been delivered can be delivered again. -/
theorem DeliverAsserts.again {env : Env} {packet : Dispatch} {center center' : CenterServer}
    (hasserts : center.DeliverAsserts env packet)
    (h : center.deliverPacket env packet = .ok center') : center'.DeliverAsserts env packet := by
  rcases hasserts with hrequest | hpermission | ⟨pkt, hholds, hasserts⟩
  · exact Or.inl hrequest
  · exact Or.inr (Or.inl hpermission)
  · refine Or.inr (Or.inr ⟨pkt, hholds, ?_⟩)
    have hrun : center.deliverPacket env packet = onMessagePktServerSync env.build pkt center :=
      hholds.deliverPacket ⟨.pktServerSync, fun _ _ pkt => onMessagePktServerSync env.build pkt⟩
        (nodup_callBacks env.build) (by simp [callBacks]) center
    rw [h] at hrun
    obtain ⟨infos, hinfos, hok⟩ := bind_eq_ok.mp hrun.symm
    cases hok
    exact hasserts.again hinfos

/-! ### Routing -/

/-- The inner loop of `ForwardPacketOnFrontEnd`. -/
def sendToAll (center : CenterServer) (pktS : PacketS) (arrChannels : List UInt16) : CenterServer :=
  { center with
    sent := center.sent ++ (arrChannels.filter center.frontEnd.connected).map fun channelIndex =>
      .bytes (.frontEnd channelIndex) pktS.sentBytes }

theorem sendToAll_nil (center : CenterServer) (pktS : PacketS) : center.sendToAll pktS [] = center := by
  rw [sendToAll, List.filter_nil, List.map_nil, List.append_nil]

/-- What follows one action of the routing. -/
def perform (env : Env) (center : CenterServer) : CenterAction → Except Fault CenterServer
  | .dispatch packet => center.deliverPacket env packet
  | .send channelIndex bytes =>
    .ok { center with sent := center.sent ++ [.bytes (.frontEnd channelIndex) bytes] }

/-- The outer loop, with a log of what it does. A handler runs in the turn of its entry. It may
    change the type of the front channel, which `OnMessage` does not look at. -/
def forwardDests (env : Env) (front : NetChannel) (pktS : PacketS) :
    List Word → List UInt16 → CenterServer → Except Fault (List CenterAction × CenterServer)
  | [], _, center => .ok ([], center)
  | dest :: dests, arrChannels, center => do
    let pi := PeerInfo.parse dest
    if PeerType.centerserver = pi.peerType then
      let packet ← Center.dispatchLocal front pktS
      let handled ← center.deliverPacket env packet
      let (actions, center') ←
        forwardDests env front pktS dests arrChannels (handled.sendToAll pktS arrChannels)
      return (.dispatch packet :: Center.sendToAll handled.frontEnd pktS arrChannels ++ actions,
        center')
    else
      let arrChannels ← Center.collectHop arrChannels (Center.nextHop pi)
      let (actions, center') ←
        forwardDests env front pktS dests arrChannels (center.sendToAll pktS arrChannels)
      return (Center.sendToAll center.frontEnd pktS arrChannels ++ actions, center')

/-- `PacketProcessor_Center::ForwardPacketOnFrontEnd`, with a log of what it does. -/
def routePacket (env : Env) (center : CenterServer) (front : NetChannel) (pktS : PacketS) :
    Except Fault (List CenterAction × CenterServer) := do
  let dests ← pktS.destinations env.build env.host
  forwardDests env front pktS dests [] center

/-- `PacketProcessor_Center::ForwardPacketOnFrontEnd`. -/
def forwardPacketOnFrontEnd (env : Env) (center : CenterServer) (front : NetChannel)
    (pktS : PacketS) : Except Fault CenterServer := do
  let (_, center') ← routePacket env center front pktS
  return center'

/-! ### The handlers of events -/

/-- The channel behind a pointer. The center has no back end. -/
def getChannel (center : CenterServer) : ChannelPtr → Option NetChannel
  | .backEnd => none
  | .frontEnd channelIndex => center.frontEnd.getChannel channelIndex

/-- `PacketProcessor_Center::DoFrontEnd_Disconnected`, and `DoFrontEnd_ConnBreak`. -/
def doFrontEndDisconnected (build : Build) (ptr : ChannelPtr) (center : CenterServer) :
    Except Fault CenterServer :=
  match center.getChannel ptr with
  | none => .ok center
  | some channel => do
    let (infos, out) := ServerManagerCenter.onServerRemoved center.infos channel.getPeerInfo
    let center := sendPackets { center with infos } (out.map fun o =>
      ⟨o.channelIndex, o.destInfo, o.ownerInfo, .pktServerSync o.msg⟩)
    let frontEnd ← center.frontEnd.removeChannel build channel
    return { center with frontEnd }

/-- The virtual handlers that the center overrides: those of the front end only. -/
def handlers (build : Build) : NetEventHandlers CenterServer where
  frontEnd :=
    { disconnected := doFrontEndDisconnected build
      connBreak := doFrontEndDisconnected build }

/-- `NetServer::OnConnect`, with the callback that `Accept` has registered. -/
def onConnect (build : Build) (center : CenterServer) : Except Fault CenterServer :=
  match center.frontEnd.onConnect with
  | (_, none) => .ok center
  | (frontEnd, some channelIndex) =>
    (handlers build).acceptCallback (.frontEnd channelIndex) .connected { center with frontEnd }

/-- An event that a channel of the center reports, after it has changed its own state. -/
def netEvent (build : Build) (channelIndex : UInt16) (event : NetEvent) (center : CenterServer) :
    Except Fault CenterServer :=
  match center.frontEnd.getChannel channelIndex with
  | none => .ok center
  | some channel =>
    let frontEnd := center.frontEnd.setChannel channelIndex
      { channel with connState := event.connState }
    (handlers build).acceptCallback (.frontEnd channelIndex) event { center with frontEnd }

end CenterServer

end TerraX
