import TerraX.CenterServer.CenterServer
import TerraX.Cluster.Selection
import TerraX.GateServer.Relay

/-!
# The packets of clients at the gate and at the center

A packet of a client is handled at the gate, or relayed to the center and handled there. The
dispatchers look at its name only, so that the handlers for packets of servers can be reached by
clients, too. Three of them change what servers know of each other.

## Main definitions

- `ClientPackets.process` — a frame of a client at the gate and, if it is relayed, at the center
- `ClientPackets.GateKept`, `ClientPackets.CenterKept` — what servers know of each other
- `ClientPackets.Harmful` — the frames that reach a handler which changes it

## Main results

- `ClientPackets.servers_kept_iff` — the frames that change nothing
-/

namespace TerraX

open Bytes Memory Framing

namespace ClientPackets

/-- The function that `OnMessage_FrontEnd` of a gate hands packets to. A gate has clients only. -/
def gateFn (env : Env) (front : NetChannel) (gate : GateServer) : Packet → Except Fault GateServer
  | .c pktC => gate.forwardPacketOnFrontEnd env front pktC
  | .s _ => .ok gate

/-- The function that `OnMessage_FrontEnd` of the center hands packets to. A center has no
    clients. -/
def centerFn (env : Env) (front : NetChannel) (center : CenterServer) :
    Packet → Except Fault CenterServer
  | .s pktS => center.forwardPacketOnFrontEnd env front pktS
  | .c _ => .ok center

/-- Bytes arrive at the gate, on the channel of a client. -/
def atGate (env : Env) (overread : Packet → Packet × Bool) (front : NetChannel) (gate : GateServer)
    (bytes : List UInt8) : Except Fault GateServer := do
  let (_, _, gate) ← onMessageFrontEnd env.build env.adler32 env.heap overread .gateserver
    (gateFn env front) bytes [] gate
  return gate

/-- Bytes arrive at the center, on the channel of a gate. -/
def atCenter (env : Env) (overread : Packet → Packet × Bool) (channel : NetChannel)
    (center : CenterServer) (bytes : List UInt8) : Except Fault CenterServer := do
  let (_, _, center) ← onMessageFrontEnd env.build env.adler32 env.heap overread .centerserver
    (centerFn env channel) bytes [] center
  return center

/-- What a gate has relayed between two of its states. -/
def relayed (gate gate' : GateServer) : List UInt8 :=
  ((gate'.forwarded.drop gate.forwarded.length).filterMap fun forwarded =>
    if forwarded.1 = .backEnd then some forwarded.2 else none).flatten

/-- A client sends a frame. The gate reads it, and the center reads what the gate relays of it. -/
def process (env : Env) (overread : Packet → Packet × Bool) (front channel : NetChannel)
    (gate : GateServer) (center : CenterServer) (frame : List UInt8) :
    Except Fault (GateServer × CenterServer) := do
  let gate' ← atGate env overread front gate frame
  let center' ← atCenter env overread channel center (relayed gate gate')
  return (gate', center')

/-- The gate knows the same servers as before, and its back end has the same peer info. -/
def GateKept (gate gate' : GateServer) : Prop :=
  gate'.infos = gate.infos ∧
    gate'.backEnd.map NetChannel.getPeerInfo = gate.backEnd.map NetChannel.getPeerInfo

/-- The center knows the same servers as before, and a channel of it has the same peer type. -/
def CenterKept (i : UInt16) (center center' : CenterServer) : Prop :=
  center'.infos = center.infos ∧
    (center'.frontEnd.getChannel i).map NetChannel.getPeerType =
      (center.frontEnd.getChannel i).map NetChannel.getPeerType

/-! ### The packets that change something -/

/-- A `PktRegisterAck` with another peer info than that of the back end, or a `PktServerSync` with
    news. -/
def GateHarm (env : Env) (gate : GateServer) (packet : Dispatch) : Prop :=
  (∃ serverInfo back, packet.Holds env .pktRegisterAck serverInfo ∧ gate.backEnd = some back ∧
    serverInfo ≠ back.getPeerInfo) ∨
  ∃ pkt, packet.Holds env .pktServerSync pkt ∧
    ServerManager.SyncChanges env.build gate.infos pkt

/-- A request that passes the assertions of a debug build, on a channel that is there. It has
    another peer type than this channel, or the center does not know the peer info that it leads
    to. -/
def RegisterChanges (build : Build) (center : CenterServer) (i channelIndex : UInt16)
    (srcPeerInfo : Word) : Prop :=
  let piSrc := PeerInfo.parse srcPeerInfo
  CenterServer.RequestAsserts build channelIndex srcPeerInfo ∧
  ∃ channel, center.frontEnd.getChannel channelIndex = some channel ∧
    ((channelIndex = i ∧ channel.getPeerType ≠ piSrc.peerType) ∨
      PeerInfo.serialize { piSrc with channelIndex := channelIndex } ∉
        center.infos.known piSrc.peerType)

/-- A `PktServerSync` with news, or a `PktRegisterReq` of another server. -/
def CenterHarm (env : Env) (center : CenterServer) (i : UInt16) (packet : Dispatch) : Prop :=
  (∃ pkt, packet.Holds env .pktServerSync pkt ∧
    ServerManager.SyncChanges env.build center.infos pkt) ∨
  (packet.Holds env .pktRegisterReq () ∧
    RegisterChanges env.build center i packet.channelIndex packet.ownerInfo)

/-- What the dispatcher of the gate is given of a frame. -/
def gatePacket (env : Env) (front : NetChannel) (guest : Guest) (frame : List UInt8) :
    Except Fault Dispatch := do
  let pktC ← (PacketC.ofClientFrame env.heap frame).setOwner guest.ownerInfo
  pktC.onMessage front guest.ownerInfo

/-- The destination that the gate writes behind a frame. -/
def destOf (guest : Guest) (frame : List UInt8) : Word :=
  guest.getDestPeerInfo (PeerInfo.getPeerType (clientDest frame))

/-- What the dispatcher of the center is given of a frame. -/
def centerPacket (env : Env) (channel : NetChannel) (guest : Guest) (frame : List UInt8) :
    Except Fault Dispatch :=
  Center.dispatchLocal channel ⟨relayedRow env.host frame guest.ownerInfo (destOf guest frame),
    frame.length, frame.length + 6⟩

/-- A frame that is not too long for the packet, with a packet that changes something: at the gate,
    if it asks for a gate, and else at the center, if it gets there. -/
def Harmful (env : Env) (i : UInt16) (front channel : NetChannel) (guest : Guest)
    (gate : GateServer) (center : CenterServer) (frame : List UInt8) : Prop :=
  (env.build = .debug → frame.length + PacketC.exDataSize ≤ maxPacketSize) ∧
  if PeerInfo.getPeerType (clientDest frame) = .gateserver then
    ∃ packet, gatePacket env front guest frame = .ok packet ∧ GateHarm env gate packet
  else
    frame.length + PacketC.exDataSize ≤ maxPacketSize ∧
    (∃ back, gate.backEnd = some back ∧ back.connState = .connected) ∧
    PeerInfo.getPeerType (destOf guest frame) = .centerserver ∧
    ∃ packet, centerPacket env channel guest frame = .ok packet ∧ CenterHarm env center i packet

/-! ### The handlers -/

section Handlers

variable {env : Env} {packet : Dispatch}

theorem relayed_of_forwarded {gate gate' : GateServer} (h : gate'.forwarded = gate.forwarded) :
    relayed gate gate' = [] := by
  rw [relayed, h, List.drop_length]
  rfl

/-- No handler of the gate relays anything. -/
theorem relayed_of_deliverPacket {gate gate' : GateServer}
    (h : gate.deliverPacket env packet = .ok gate') : relayed gate gate' = [] := by
  have hwrite : ∀ channel output, (∀ ptr bytes, output ≠ .bytes ptr bytes) →
      (gate.write channel output).forwarded = gate.forwarded := fun channel output hout =>
    (PacketProcessor.kept_write gate.toPacketProcessor channel hout).forwarded
  apply relayed_of_forwarded
  rcases GateServer.deliverPacket_ok h with ⟨_, _, -, -, rfl⟩ | ⟨_, _, -, -, rfl⟩ |
    ⟨_, _, _, -, -, -, rfl⟩ | ⟨_, _, -, -, rfl⟩ | rfl
  · rfl
  · rfl
  · refine hwrite _ _ fun _ _ hne => ?_
    cases hne
  · rw [GateServer.sendPacket2Client]
    split
    · rfl
    · refine hwrite _ _ fun _ _ hne => ?_
      cases hne
  · rfl

theorem gateKept_write (gate : GateServer) (channel : NetChannel) (output : Output) :
    GateKept gate (gate.write channel output) := by
  refine ⟨rfl, ?_⟩
  rw [GateServer.write, PacketProcessor.write_backEnd]

/-- The packets that change something at the gate. -/
theorem gateHarm_iff {gate : GateServer} :
    GateHarm env gate packet ↔
      ∃ gate', gate.deliverPacket env packet = .ok gate' ∧ ¬ GateKept gate gate' := by
  constructor
  · rintro (⟨serverInfo, back, hholds, hback, hne⟩ | ⟨pkt, hholds, hchanges⟩)
    · have hrun : gate.deliverPacket env packet =
          GateServer.onMessagePktRegisterAck serverInfo gate :=
        hholds.deliverPacket ⟨.pktRegisterAck, fun _ _ serverInfo =>
            GateServer.onMessagePktRegisterAck serverInfo⟩
          (GateServer.nodup_callBacks env.build) (by simp [GateServer.callBacks]) gate
      simp only [GateServer.onMessagePktRegisterAck, hback] at hrun
      refine ⟨_, hrun, fun hkept => hne ?_⟩
      have hinfo := hkept.2
      rw [hback] at hinfo
      exact Option.some.inj hinfo
    · have hrun : gate.deliverPacket env packet =
          GateServer.onMessagePktServerSync env.build pkt gate :=
        hholds.deliverPacket ⟨.pktServerSync, fun _ _ pkt =>
            GateServer.onMessagePktServerSync env.build pkt⟩
          (GateServer.nodup_callBacks env.build) (by simp [GateServer.callBacks]) gate
      obtain ⟨infos, hinfos, hne⟩ := ServerManager.syncChanges_iff.mp hchanges
      simp only [GateServer.onMessagePktServerSync, hinfos, ok_bind] at hrun
      exact ⟨_, hrun, fun hkept => hne hkept.1⟩
  · rintro ⟨gate', hrun, hnot⟩
    rcases GateServer.deliverPacket_ok hrun with ⟨serverInfo, back, hholds, hback, rfl⟩ |
      ⟨pkt, infos, hholds, hinfos, rfl⟩ | ⟨_, _, _, -, -, -, rfl⟩ | ⟨_, _, -, -, rfl⟩ | rfl
    · refine Or.inl ⟨serverInfo, back, hholds, hback, ?_⟩
      rintro rfl
      exact hnot ⟨rfl, by rw [hback]; rfl⟩
    · refine Or.inr ⟨pkt, hholds, ServerManager.syncChanges_iff.mpr ⟨infos, hinfos, ?_⟩⟩
      rintro rfl
      exact hnot ⟨rfl, rfl⟩
    · exact absurd (gateKept_write ..) hnot
    · rw [GateServer.sendPacket2Client] at hnot
      split at hnot
      · exact absurd ⟨rfl, rfl⟩ hnot
      · exact absurd (gateKept_write ..) hnot
    · exact absurd ⟨rfl, rfl⟩ hnot

/-- The requests that change something. -/
theorem registerChanges_iff {build : Build} {center : CenterServer} {i c : UInt16}
    {srcPeerInfo : Word} :
    RegisterChanges build center i c srcPeerInfo ↔
      CenterServer.RequestAsserts build c srcPeerInfo ∧
        ¬ ((center.requested c srcPeerInfo).infos = center.infos ∧
          ((center.requested c srcPeerInfo).frontEnd.getChannel i).map NetChannel.getPeerType =
            (center.frontEnd.getChannel i).map NetChannel.getPeerType) := by
  rw [RegisterChanges, CenterServer.requested]
  refine and_congr_right fun _ => ?_
  cases hchannel : center.frontEnd.getChannel c with
  | none => simp
  | some channel =>
    have htype (t : PeerType) : (channel.setPeerType t).getPeerType = t := by
      rw [NetChannel.getPeerType, NetChannel.peerInfo_setPeerType, PeerInfo.getPeerType_serialize]
    dsimp only
    rw [ServerManager.add_eq_self_iff, PeerInfo.getPeerType_serialize, NetServer.getChannel_setChannel]
    by_cases hi : i = c
    · subst hi
      rw [if_pos rfl, hchannel, Option.map_some, Option.map_some, htype, not_and_or]
      simp only [Option.some.injEq, exists_eq_left', true_and, ne_eq, eq_comm, or_comm]
    · have hi' : ¬ c = i := fun heq => hi heq.symm
      rw [if_neg hi]
      simp only [Option.some.injEq, exists_eq_left', hi', false_and, false_or, and_true]

/-- The packets that change something at the center. -/
theorem centerHarm_iff {center : CenterServer} {i : UInt16} :
    CenterHarm env center i packet ↔
      ∃ center', center.deliverPacket env packet = .ok center' ∧ ¬ CenterKept i center center' := by
  have hrequest : packet.Holds env .pktRegisterReq () → center.deliverPacket env packet =
      CenterServer.onMessagePktRegisterReq env.build packet.channelIndex packet.ownerInfo center :=
    fun hholds => hholds.deliverPacket ⟨.pktRegisterReq, fun channelIndex owner _ =>
        CenterServer.onMessagePktRegisterReq env.build channelIndex owner⟩
      (CenterServer.nodup_callBacks env.build) (by simp [CenterServer.callBacks]) center
  constructor
  · rintro (⟨pkt, hholds, hchanges⟩ | ⟨hholds, hchanges⟩)
    · have hrun : center.deliverPacket env packet =
          CenterServer.onMessagePktServerSync env.build pkt center :=
        hholds.deliverPacket ⟨.pktServerSync, fun _ _ pkt =>
            CenterServer.onMessagePktServerSync env.build pkt⟩
          (CenterServer.nodup_callBacks env.build) (by simp [CenterServer.callBacks]) center
      obtain ⟨infos, hinfos, hne⟩ := ServerManager.syncChanges_iff.mp hchanges
      simp only [CenterServer.onMessagePktServerSync, hinfos, ok_bind] at hrun
      exact ⟨_, hrun, fun hkept => hne hkept.1⟩
    · obtain ⟨hasserts, hnot⟩ := registerChanges_iff.mp hchanges
      obtain ⟨center', hrun⟩ := CenterServer.onMessagePktRegisterReq_returns center hasserts
      obtain ⟨-, hstate⟩ := CenterServer.onMessagePktRegisterReq_ok hrun
      rw [← hstate] at hnot
      exact ⟨center', (hrequest hholds).trans hrun, hnot⟩
  · rintro ⟨center', hrun, hnot⟩
    rcases CenterServer.deliverPacket_ok hrun with ⟨hholds, hreq⟩ | ⟨_, -, rfl⟩ |
      ⟨pkt, infos, hholds, hinfos, rfl⟩ | rfl
    · obtain ⟨hasserts, hstate⟩ := CenterServer.onMessagePktRegisterReq_ok hreq
      rw [CenterKept, hstate] at hnot
      exact Or.inr ⟨hholds, registerChanges_iff.mpr ⟨hasserts, hnot⟩⟩
    · rw [CenterKept, CenterServer.sendPacket_toCenterState] at hnot
      exact absurd ⟨rfl, rfl⟩ hnot
    · refine Or.inl ⟨pkt, hholds, ServerManager.syncChanges_iff.mpr ⟨infos, hinfos, ?_⟩⟩
      rintro rfl
      exact hnot ⟨rfl, rfl⟩
    · exact absurd ⟨rfl, rfl⟩ hnot

end Handlers

/-! ### The way of a frame -/

/-- The packets that the center hands to its handlers are those for a center. -/
theorem forwardPacketOnFrontEnd_own {env : Env} {center : CenterServer} {front : NetChannel}
    {pktS : PacketS} {dest : Word} (hdests : pktS.destinations env.build env.host = .ok [dest])
    (htype : PeerInfo.getPeerType dest = .centerserver) :
    center.forwardPacketOnFrontEnd env front pktS =
      (Center.dispatchLocal front pktS >>= fun packet => center.deliverPacket env packet) := by
  have hhop : Center.hopOf dest = none := by
    rw [Center.hopOf, if_pos]
    exact htype.symm
  rw [CenterServer.forwardPacketOnFrontEnd, CenterServer.routePacket, hdests, ok_bind,
    CenterServer.forwardDests_center hhop]
  simp only [CenterServer.forwardDests, CenterServer.sendToAll_nil, bind_assoc, ok_bind, pure_eq_ok]
  congr 1
  funext packet
  exact bind_pure _

/-- Other packets are sent on, if there is a connected channel for them. -/
theorem forwardPacketOnFrontEnd_other {env : Env} {center : CenterServer} {front : NetChannel}
    {pktS : PacketS} {dest : Word} {hop : UInt16}
    (hdests : pktS.destinations env.build env.host = .ok [dest])
    (hhop : Center.hopOf dest = some hop) :
    center.forwardPacketOnFrontEnd env front pktS = .ok { center with
      sent := center.sent ++ ([hop].filter center.frontEnd.connected).map fun c =>
        .bytes (.frontEnd c) pktS.sentBytes } := by
  rw [CenterServer.forwardPacketOnFrontEnd, CenterServer.routePacket, hdests, ok_bind,
    CenterServer.forwardDests_hop hhop]
  simp [Center.collectHop, maxConnection, CenterServer.forwardDests, CenterServer.sendToAll]

theorem relayed_write (gate : GateServer) (back : NetChannel) (row : List UInt8) :
    relayed gate (gate.write back (.bytes .backEnd row)) = if back.sendMsg then row else [] := by
  have hforwarded : (gate.write back (.bytes .backEnd row)).forwarded =
      gate.forwarded ++ if back.sendMsg then [(.backEnd, row)] else [] :=
    Selection.forwarded_write gate.toPacketProcessor back .backEnd row
  rw [relayed, hforwarded, List.drop_left]
  cases back.sendMsg with
  | false => rfl
  | true => simp

theorem atCenter_nil (env : Env) (overread : Packet → Packet × Bool) (channel : NetChannel)
    (center : CenterServer) : atCenter env overread channel center [] = .ok center := by
  rw [atCenter, onMessageFrontEnd, processMessage_nil]
  rfl

section Way

variable {env : Env} (overread : Packet → Packet × Bool) {front channel : NetChannel}
  {guest : Guest} {gate : GateServer} {center : CenterServer} {frame : List UInt8}
  (hframe : IsFrame frame)
  (hvalid : (PacketC.ofClientFrame env.heap frame).isValid env.adler32 = .ok true)

include hframe hvalid

/-- The gate makes a packet of the frame, and hands it on. -/
theorem atGate_eq : atGate env overread front gate frame =
    (check env.build (frame.length + PacketC.exDataSize ≤ maxPacketSize) >>= fun _ =>
      gate.forwardPacketOnFrontEnd env front (.ofClientFrame env.heap frame)) := by
  have haccepted := Packet.accepted_client env.heap overread hvalid
  rw [atGate, onMessageFrontEnd, beq_self_eq_true,
    processMessage_frame env.build env.adler32 env.heap overread true _ hframe haccepted]
  simp only [Packet.extraSize, if_true, bind_assoc, ok_bind, gateFn]
  congr 1
  funext _
  exact bind_pure _

omit hvalid in
/-- A frame that does not pass is dropped. -/
theorem atGate_invalid
    (hinvalid : (PacketC.ofClientFrame env.heap frame).isValid env.adler32 = .ok false) :
    atGate env overread front gate frame =
      (check env.build (frame.length + PacketC.exDataSize ≤ maxPacketSize) >>= fun _ =>
        .ok gate) := by
  have hdropped := Packet.dropped_client env.heap overread hinvalid
  rw [atGate, onMessageFrontEnd, beq_self_eq_true,
    processMessage_dropped env.build env.adler32 env.heap overread true _ hframe hdropped]
  simp only [Packet.extraSize, if_true, bind_assoc, ok_bind, pure_eq_ok]

/-- The center reads the row of the frame, unless it is too long. -/
theorem atCenter_row (owner dest : Word) :
    atCenter env overread channel center (relayedRow env.host frame owner dest) =
      if frame.length + PacketC.exDataSize ≤ maxPacketSize then
        center.forwardPacketOnFrontEnd env channel
          ⟨relayedRow env.host frame owner dest, frame.length, frame.length + 6⟩
      else .ok center := by
  have hclient : (PeerType.centerserver == PeerType.gateserver) = false := by decide
  rw [atCenter, onMessageFrontEnd, hclient]
  split
  · next hmax =>
    obtain ⟨hrow, hrcv⟩ := isValid_relayedRow env.heap env.host owner dest env.adler32 hframe hmax
      hvalid
    have haccepted := Packet.accepted_server env.heap overread hrcv
    rw [processMessage_frame env.build env.adler32 env.heap overread false _ hrow haccepted,
      check_of env.build (by simpa [Packet.extraSize] using hrow.2.1)]
    simp only [ok_bind, bind_assoc, centerFn]
    exact bind_pure _
  · next hmax =>
    have hread := readMessage_relayedRow env.heap env.host owner dest env.adler32 hframe hvalid
      env.build env.heap [] []
    rw [if_neg hmax, List.append_nil] at hread
    rw [processMessage, hread]
    rfl

/-- The row has one destination. -/
theorem destinations_relayedRow (hmax : frame.length + PacketC.exDataSize ≤ maxPacketSize)
    (owner dest : Word) :
    PacketS.destinations env.build env.host
      ⟨relayedRow env.host frame owner dest, frame.length, frame.length + 6⟩ = .ok [dest] := by
  obtain ⟨h, -⟩ := (PacketC.ofClientFrame_isValid_iff env.adler32 env.heap hframe.2.1).mp hvalid
  have hlen := relayedRow_length h env.host owner dest
  refine PacketS.destinations_serverLayout env.build env.host rfl (encodeBE_length _ _)
    (slice_length (by omega)) (encodeBE_length _ _) (slice_length (by omega)) ?_ hlen.symm
    (hlen.trans_le hmax)
  rw [slice_length (by omega)]
  exact (Nat.sub_add_cancel h).symm

section Gate

variable (hguest : gate.guests front.getPeerInfo = some guest)

include hguest

theorem atGate_own (htype : PeerInfo.getPeerType (clientDest frame) = .gateserver) :
    atGate env overread front gate frame =
      (check env.build (frame.length + PacketC.exDataSize ≤ maxPacketSize) >>= fun _ =>
        gatePacket env front guest frame >>= fun packet => gate.deliverPacket env packet) := by
  obtain ⟨h, -⟩ := (PacketC.ofClientFrame_isValid_iff env.adler32 env.heap hframe.2.1).mp hvalid
  have hguest' : gate.toGate.guests front.getPeerInfo = some guest := hguest
  rw [atGate_eq overread hframe hvalid, GateServer.forwardPacketOnFrontEnd,
    Gate.forwardPacketOnFrontEnd_own env.build env.heap env.host h hguest' htype]
  simp only [gatePacket, bind_assoc, ok_bind, List.foldlM_cons, List.foldlM_nil, GateServer.perform,
    bind_pure]

/-- A frame for another server is written to the back end as a row. -/
theorem atGate_relay (htype : PeerInfo.getPeerType (clientDest frame) ≠ .gateserver)
    {back : NetChannel} (hback : gate.backEnd = some back) :
    atGate env overread front gate frame =
      (check env.build (frame.length + PacketC.exDataSize ≤ maxPacketSize) >>= fun _ =>
        .ok (gate.write back (.bytes .backEnd
          (relayedRow env.host frame guest.ownerInfo (destOf guest frame))))) := by
  obtain ⟨h, -⟩ := (PacketC.ofClientFrame_isValid_iff env.adler32 env.heap hframe.2.1).mp hvalid
  have hguest' : gate.toGate.guests front.getPeerInfo = some guest := hguest
  have hback' : gate.toGate.backEnd = some back := hback
  rw [atGate_eq overread hframe hvalid, GateServer.forwardPacketOnFrontEnd,
    Gate.forwardPacketOnFrontEnd_relay env.build env.heap env.host h hguest' htype, hback', ok_bind,
    GateServer.write, PacketProcessor.write]
  dsimp only
  cases back.sendMsg with
  | false => rfl
  | true => rfl

/-- Without a back end nothing is written. -/
theorem atGate_relay_none (htype : PeerInfo.getPeerType (clientDest frame) ≠ .gateserver)
    (hback : gate.backEnd = none) :
    atGate env overread front gate frame =
      (check env.build (frame.length + PacketC.exDataSize ≤ maxPacketSize) >>= fun _ =>
        .ok gate) := by
  obtain ⟨h, -⟩ := (PacketC.ofClientFrame_isValid_iff env.adler32 env.heap hframe.2.1).mp hvalid
  have hguest' : gate.toGate.guests front.getPeerInfo = some guest := hguest
  have hback' : gate.toGate.backEnd = none := hback
  rw [atGate_eq overread hframe hvalid, GateServer.forwardPacketOnFrontEnd,
    Gate.forwardPacketOnFrontEnd_relay env.build env.heap env.host h hguest' htype, hback', ok_bind]
  rfl

end Gate

end Way

/-! ### The frames that change something -/

section Frames

variable {env : Env} (overread : Packet → Packet × Bool) {i : UInt16} {front channel : NetChannel}
  {guest : Guest} {gate : GateServer} {center : CenterServer} {frame : List UInt8}
  (hguest : gate.guests front.getPeerInfo = some guest) (hframe : IsFrame frame)
  (hvalid : (PacketC.ofClientFrame env.heap frame).isValid env.adler32 = .ok true)

/-- Processing a frame returns and changes something. -/
def Changes (env : Env) (overread : Packet → Packet × Bool) (i : UInt16)
    (front channel : NetChannel) (gate : GateServer) (center : CenterServer)
    (frame : List UInt8) : Prop :=
  ∃ gate' center', process env overread front channel gate center frame = .ok (gate', center') ∧
    ¬ (GateKept gate gate' ∧ CenterKept i center center')

include hframe hvalid

/-- The rows that change something at the center. -/
theorem changes_atCenter_iff :
    (∃ center', atCenter env overread channel center
        (relayedRow env.host frame guest.ownerInfo (destOf guest frame)) = .ok center' ∧
        ¬ CenterKept i center center') ↔
      frame.length + PacketC.exDataSize ≤ maxPacketSize ∧
      PeerInfo.getPeerType (destOf guest frame) = .centerserver ∧
      ∃ packet, centerPacket env channel guest frame = .ok packet ∧
        CenterHarm env center i packet := by
  rw [atCenter_row overread hframe hvalid]
  by_cases hmax : frame.length + PacketC.exDataSize ≤ maxPacketSize
  · have hdests := destinations_relayedRow hframe hvalid hmax guest.ownerInfo (destOf guest frame)
    rw [if_pos hmax]
    by_cases hdest : PeerInfo.getPeerType (destOf guest frame) = .centerserver
    · rw [forwardPacketOnFrontEnd_own hdests hdest]
      constructor
      · rintro ⟨center', hrun, hnot⟩
        obtain ⟨packet, hpacket, hdeliver⟩ := bind_eq_ok.mp hrun
        exact ⟨hmax, hdest, packet, hpacket, centerHarm_iff.mpr ⟨center', hdeliver, hnot⟩⟩
      · rintro ⟨-, -, packet, hpacket, hharm⟩
        obtain ⟨center', hdeliver, hnot⟩ := centerHarm_iff.mp hharm
        exact ⟨center', bind_eq_ok.mpr ⟨packet, hpacket, hdeliver⟩, hnot⟩
    · refine iff_of_false ?_ fun h => hdest h.2.1
      rintro ⟨center', hrun, hnot⟩
      have hhop : Center.hopOf (destOf guest frame) =
          some (Center.nextHop (PeerInfo.parse (destOf guest frame))) := by
        rw [Center.hopOf, if_neg]
        exact fun heq => hdest heq.symm
      rw [forwardPacketOnFrontEnd_other hdests hhop] at hrun
      cases hrun
      exact hnot ⟨rfl, rfl⟩
  · refine iff_of_false ?_ fun h => hmax h.1
    rw [if_neg hmax]
    rintro ⟨center', hrun, hnot⟩
    cases hrun
    exact hnot ⟨rfl, rfl⟩

include hguest

/-- The frames for the gate itself. -/
theorem changes_own_iff (htype : PeerInfo.getPeerType (clientDest frame) = .gateserver) :
    Changes env overread i front channel gate center frame ↔
      (env.build = .debug → frame.length + PacketC.exDataSize ≤ maxPacketSize) ∧
      ∃ packet, gatePacket env front guest frame = .ok packet ∧ GateHarm env gate packet := by
  have hgate := atGate_own overread hframe hvalid hguest htype
  constructor
  · rintro ⟨gate', center', hrun, hnot⟩
    obtain ⟨gate₁, hgate₁, hrun⟩ := bind_eq_ok.mp hrun
    rw [hgate] at hgate₁
    obtain ⟨_, hcheck, hgate₁⟩ := bind_eq_ok.mp hgate₁
    obtain ⟨packet, hpacket, hdeliver⟩ := bind_eq_ok.mp hgate₁
    rw [relayed_of_deliverPacket hdeliver, atCenter_nil, ok_bind] at hrun
    cases hrun
    refine ⟨check_ok_iff.mp hcheck, packet, hpacket, gateHarm_iff.mpr ⟨_, hdeliver, ?_⟩⟩
    exact fun hkept => hnot ⟨hkept, rfl, rfl⟩
  · rintro ⟨hmax, packet, hpacket, hharm⟩
    obtain ⟨gate', hdeliver, hnot⟩ := gateHarm_iff.mp hharm
    refine ⟨gate', center, ?_, fun hkept => hnot hkept.1⟩
    rw [process, hgate, check_of_debug hmax, ok_bind, hpacket, ok_bind, hdeliver, ok_bind,
      relayed_of_deliverPacket hdeliver, atCenter_nil]
    rfl

/-- What the gate writes to its back end is read by the center. -/
theorem changes_relayed_iff (htype : PeerInfo.getPeerType (clientDest frame) ≠ .gateserver)
    {back : NetChannel} (hback : gate.backEnd = some back) (hsend : back.sendMsg = true) :
    Changes env overread i front channel gate center frame ↔
      (env.build = .debug → frame.length + PacketC.exDataSize ≤ maxPacketSize) ∧
      ∃ center', atCenter env overread channel center
        (relayedRow env.host frame guest.ownerInfo (destOf guest frame)) = .ok center' ∧
        ¬ CenterKept i center center' := by
  have hgate := atGate_relay overread hframe hvalid hguest htype hback
  constructor
  · rintro ⟨gate', center', hrun, hnot⟩
    obtain ⟨gate₁, hgate₁, hrun⟩ := bind_eq_ok.mp hrun
    rw [hgate] at hgate₁
    obtain ⟨_, hcheck, hnext⟩ := bind_eq_ok.mp hgate₁
    cases hnext
    rw [relayed_write, hsend, if_pos rfl] at hrun
    obtain ⟨center₁, hcenter, hrun⟩ := bind_eq_ok.mp hrun
    cases hrun
    exact ⟨check_ok_iff.mp hcheck, _, hcenter, fun hkept => hnot ⟨gateKept_write .., hkept⟩⟩
  · rintro ⟨hdebug, center', hcenter, hnot⟩
    refine ⟨gate.write back (.bytes .backEnd (relayedRow env.host frame guest.ownerInfo
      (destOf guest frame))), center', ?_, fun hkept => hnot hkept.2⟩
    rw [process, hgate, check_of_debug hdebug, ok_bind, ok_bind, relayed_write, hsend, if_pos rfl,
      hcenter]
    rfl

/-- The frames for other servers. -/
theorem changes_relay_iff (htype : PeerInfo.getPeerType (clientDest frame) ≠ .gateserver) :
    Changes env overread i front channel gate center frame ↔
      (env.build = .debug → frame.length + PacketC.exDataSize ≤ maxPacketSize) ∧
      frame.length + PacketC.exDataSize ≤ maxPacketSize ∧
      (∃ back, gate.backEnd = some back ∧ back.connState = .connected) ∧
      PeerInfo.getPeerType (destOf guest frame) = .centerserver ∧
      ∃ packet, centerPacket env channel guest frame = .ok packet ∧
        CenterHarm env center i packet := by
  cases hback : gate.backEnd with
  | none =>
    have hgate := atGate_relay_none overread hframe hvalid hguest htype hback
    refine iff_of_false ?_ ?_
    · rintro ⟨gate', center', hrun, hnot⟩
      obtain ⟨gate₁, hgate₁, hrun⟩ := bind_eq_ok.mp hrun
      cases eq_of_check (hgate.symm.trans hgate₁)
      rw [relayed_of_forwarded rfl, atCenter_nil] at hrun
      cases hrun
      exact hnot ⟨⟨rfl, rfl⟩, rfl, rfl⟩
    · rintro ⟨-, -, ⟨back, hnone, -⟩, -⟩
      cases hnone
  | some back =>
    have hgate := atGate_relay overread hframe hvalid hguest htype hback
    cases hsend : back.sendMsg with
    | false =>
      -- a channel that is not connected sends nothing, so that nothing reaches the center
      refine iff_of_false ?_ ?_
      · rintro ⟨gate', center', hrun, hnot⟩
        obtain ⟨gate₁, hgate₁, hrun⟩ := bind_eq_ok.mp hrun
        cases eq_of_check (hgate.symm.trans hgate₁)
        rw [relayed_write, hsend, if_neg Bool.false_ne_true, atCenter_nil] at hrun
        cases hrun
        exact hnot ⟨gateKept_write .., rfl, rfl⟩
      · rintro ⟨-, -, ⟨_, heq, hconn⟩, -⟩
        cases heq
        rw [NetChannel.sendMsg, hconn] at hsend
        cases hsend
    | true =>
      have hconn : back.connState = .connected := eq_of_beq hsend
      rw [changes_relayed_iff overread hguest hframe hvalid htype hback hsend,
        changes_atCenter_iff overread hframe hvalid]
      refine and_congr_right fun _ => ?_
      constructor
      · rintro ⟨hmax, hdest, hharm⟩
        exact ⟨hmax, ⟨back, rfl, hconn⟩, hdest, hharm⟩
      · rintro ⟨hmax, -, hdest, hharm⟩
        exact ⟨hmax, hdest, hharm⟩

end Frames

/-- For every gate state in which the sending client has a guest, and every valid frame of the
    client: processing it at the gate and, if it is relayed, at the center leaves what the servers
    know of each other as it is exactly if the frame is not harmful. -/
theorem servers_kept_iff (env : Env) (overread : Packet → Packet × Bool) (i : UInt16)
    (front channel : NetChannel) (guest : Guest) (gate : GateServer) (center : CenterServer)
    (frame : List UInt8) (hguest : gate.guests front.getPeerInfo = some guest)
    (hframe : IsFrame frame)
    (hvalid : (PacketC.ofClientFrame env.heap frame).isValid env.adler32 = .ok true) :
    (∀ gate' center', process env overread front channel gate center frame = .ok (gate', center') →
      GateKept gate gate' ∧ CenterKept i center center') ↔
    ¬ Harmful env i front channel guest gate center frame := by
  have hharmful : Harmful env i front channel guest gate center frame ↔
      Changes env overread i front channel gate center frame := by
    rw [Harmful]
    by_cases htype : PeerInfo.getPeerType (clientDest frame) = .gateserver
    · rw [if_pos htype, changes_own_iff overread hguest hframe hvalid htype]
    · rw [if_neg htype, changes_relay_iff overread hguest hframe hvalid htype]
  rw [hharmful]
  constructor
  · rintro hkept ⟨gate', center', hrun, hnot⟩
    exact hnot (hkept gate' center' hrun)
  · intro hno gate' center' hrun
    by_contra hnot
    exact hno ⟨gate', center', hrun, hnot⟩

/-! ### A client of a registered gate -/

/-- A release build that can read the ack with a peer info of 1, and nothing else. -/
def ackEnv : Env where
  build := .release
  host := .little
  adler32 := Adler32.adler32
  heap := fun _ => 0
  serialize := fun _ => []
  parse := fun
    | .pktRegisterAck, buffer, packetMsg, msgSize =>
      if slice buffer packetMsg msgSize.toNat = [8, 1] then some (1 : Word) else none
    | _, _, _, _ => none

/-- A gate with one client, whose guest knows the center. -/
def gate : GateServer :=
  { GuestRouting.gateWithClient with
    guests := GuestRouting.gateWithClient.guests.createGuest (guestInfo 1 1) 0x02000000 }

/-- The channel of the gate at the center. -/
def gateChannel : NetChannel := { connState := .connected, peerInfo := regInfo .gateserver 1 }

/-- A message without a name, for the center. -/
def namelessFrame : List UInt8 := [0, 12, 2, 0, 0, 0, 1, 0, 0, 4, 0, 2]

/-- A `PktRegisterAck` with a peer info of 1, for the gate. -/
def ackFrame : List UInt8 :=
  [0, 28, 3, 0, 0, 0, 15, 80, 107, 116, 82, 101, 103, 105, 115, 116, 101, 114, 65, 99, 107, 0, 8, 1,
    58, 234, 5, 156]

/-- The center has no handler for a message without a name. -/
theorem servers_kept_iff_nameless :
    ∃ gate' center', process ackEnv (fun pkt => (pkt, false)) GuestRouting.clientChannel gateChannel
        gate (.initNetModule 4) namelessFrame = .ok (gate', center') ∧
      GateKept gate gate' ∧ CenterKept 1 (.initNetModule 4) center' := by
  have hframe : IsFrame namelessFrame := by decide
  have hguest : gate.guests GuestRouting.clientChannel.getPeerInfo =
      some (.new (guestInfo 1 1) 0x02000000) := rfl
  have hvalid : (PacketC.ofClientFrame ackEnv.heap namelessFrame).isValid ackEnv.adler32 =
      .ok true := rfl
  have hpacket : ∃ packet, centerPacket ackEnv gateChannel (.new (guestInfo 1 1) 0x02000000)
        namelessFrame = .ok packet ∧ packet.packetName = [] ∧
      CenterServer.deliverPacket ackEnv packet (.initNetModule 4) = .ok (.initNetModule 4) :=
    ⟨_, rfl, rfl, rfl⟩
  obtain ⟨packet, hpacket, hname, hdeliver⟩ := hpacket
  have hcenter : atCenter ackEnv (fun pkt => (pkt, false)) gateChannel (.initNetModule 4)
      (relayedRow .little namelessFrame (guestInfo 1 1) 0x02000000) = .ok (.initNetModule 4) := by
    have hdests := destinations_relayedRow hframe hvalid (by decide) (guestInfo 1 1) 0x02000000
    refine (atCenter_row _ hframe hvalid (guestInfo 1 1) 0x02000000).trans ?_
    rw [if_pos (by decide), forwardPacketOnFrontEnd_own hdests rfl]
    exact bind_eq_ok.mpr ⟨packet, hpacket, hdeliver⟩
  have hgate := atGate_relay (fun pkt => (pkt, false)) hframe hvalid hguest (by decide) rfl
  obtain ⟨gate', hrun⟩ : ∃ gate', process ackEnv (fun pkt => (pkt, false)) GuestRouting.clientChannel
      gateChannel gate (.initNetModule 4) namelessFrame = .ok (gate', .initNetModule 4) := by
    refine ⟨gate.write gateChannel (.bytes .backEnd
      (relayedRow .little namelessFrame (guestInfo 1 1) 0x02000000)), ?_⟩
    rw [process, hgate]
    refine bind_eq_ok.mpr ⟨_, rfl, bind_eq_ok.mpr ⟨.initNetModule 4, ?_, rfl⟩⟩
    rw [relayed_write, if_pos (by decide)]
    exact hcenter
  refine ⟨gate', _, hrun, (servers_kept_iff ackEnv (fun pkt => (pkt, false)) 1
    GuestRouting.clientChannel gateChannel _ gate (.initNetModule 4) namelessFrame hguest hframe
    hvalid).mpr ?_ _ _ hrun⟩
  have hunnamed : ∀ t : PacketType, ¬ t.descriptor.Named [] := by
    intro t
    cases t <;> decide
  rintro ⟨-, hharm⟩
  rw [if_neg (by decide)] at hharm
  obtain ⟨-, -, -, packet', hpacket', hharm⟩ := hharm
  cases hpacket.symm.trans hpacket'
  rcases hharm with ⟨pkt, hholds, -⟩ | ⟨hholds, -⟩
  · exact hunnamed _ (hname ▸ hholds.1)
  · exact hunnamed _ (hname ▸ hholds.1)

/-- A client sends the ack of the center to the gate, which takes the peer info in it for its own. -/
theorem not_servers_kept_registerAck :
    ∃ gate', IsFrame ackFrame ∧
      (PacketC.ofClientFrame ackEnv.heap ackFrame).isValid ackEnv.adler32 = .ok true ∧
      (gate.guests GuestRouting.clientChannel.getPeerInfo).isSome ∧
      process ackEnv (fun pkt => (pkt, false)) GuestRouting.clientChannel gateChannel gate
        (.initNetModule 4) ackFrame = .ok (gate', .initNetModule 4) ∧
      ¬ GateKept gate gate' := by
  have hframe : IsFrame ackFrame := by decide
  have hguest : gate.guests GuestRouting.clientChannel.getPeerInfo =
      some (.new (guestInfo 1 1) 0x02000000) := rfl
  have hgate : ∃ gate', atGate ackEnv (fun pkt => (pkt, false)) GuestRouting.clientChannel gate
        ackFrame = .ok gate' ∧ relayed gate gate' = [] ∧
      gate'.backEnd = some { gateChannel with peerInfo := 1 } := by
    rw [atGate_own _ hframe rfl hguest rfl]
    exact ⟨_, rfl, rfl, rfl⟩
  obtain ⟨gate', hgate', hrelayed, hback⟩ := hgate
  refine ⟨gate', hframe, rfl, rfl, ?_, fun hkept => ?_⟩
  · rw [process, hgate', ok_bind, hrelayed, atCenter_nil]
    rfl
  · have hinfo := hkept.2
    rw [hback] at hinfo
    cases hinfo

end ClientPackets

end TerraX
