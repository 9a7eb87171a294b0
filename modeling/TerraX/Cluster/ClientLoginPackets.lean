import TerraX.Cluster.ClientLogin
import TerraX.GateServer.RelayStream

/-!
# What one packet of a login does

Each of the four packets of a login makes its receiver do one thing: a `PktGameLoginReq` makes the
gate write one request to the center, a request makes the center write one answer to the gate, an
answer makes the gate write one role list to the client, and a role list takes the client to its
avatars.

## Main definitions

- `ClientLogin.Wrote` — a gate has written some outputs, and nothing else has changed that matters
- `ClientLogin.askSent` — the request of a gate for a client

## Main results

- `ClientLogin.gate_login`, `ClientLogin.center_ask`, `ClientLogin.gate_answer` — one packet at a
  server
-/

namespace TerraX

open Bytes Memory Framing

namespace ClientLogin

/-- A gate has written some outputs, and has the same channels as before, and knows the same guests
    and servers. -/
structure Wrote (gate gate' : GateServer) (out : List Output) : Prop
    extends Login.Sends gate gate' out where
  backEnd : gate'.backEnd = gate.backEnd
  infos : gate'.infos = gate.infos

section Wrote

variable {gate gate' gate'' : GateServer} {out more : List Output} {g : UInt16}

theorem Wrote.refl (gate : GateServer) : Wrote gate gate [] :=
  ⟨Login.Sends.refl gate, rfl, rfl⟩

theorem Wrote.trans (h : Wrote gate gate' out) (h' : Wrote gate' gate'' more) :
    Wrote gate gate'' (out ++ more) where
  toSends := h.toSends.trans h'.toSends
  backEnd := h'.backEnd.trans h.backEnd
  infos := h'.infos.trans h.infos

/-- Writing to a connected channel. -/
theorem wrote_write (gate : GateServer) {channel : NetChannel} (h : channel.sendMsg = true)
    (output : Output) : Wrote gate (gate.write channel output) [output] := by
  have hsends := Login.sends_write gate channel output
  rw [if_pos h] at hsends
  exact ⟨hsends, PacketProcessor.write_backEnd .., rfl⟩

theorem GateUp.wrote (h : GateUp g gate) (hwrote : Wrote gate gate' out) : GateUp g gate' where
  registered := by
    refine ⟨h.registered.pos, h.registered.lt, ?_⟩
    rw [hwrote.backEnd]
    exact h.registered.backEnd
  linked := by
    rw [hwrote.backEnd]
    exact h.linked
  knows := by
    rw [hwrote.infos]
    exact h.knows
  channels := by
    rw [hwrote.frontEnd, hwrote.guests, hwrote.infos]
    exact h.channels

end Wrote

/-- A connected channel is there. -/
theorem getChannel_of_connected {net : NetServer} {c : UInt16} (h : net.connected c = true) :
    ∃ channel, net.getChannel c = some channel := by
  rw [NetServer.connected] at h
  cases hchannel : net.getChannel c with
  | none =>
    rw [hchannel] at h
    cases h
  | some channel => exact ⟨channel, rfl⟩

/-! ### A login at the gate -/

/-- What the dispatcher of a gate is given of a row of a client. -/
theorem gatePacket_clientRow (env : Env) (front : NetChannel) (guest : Guest) (dest : Word)
    {msg : Message} (hname : msg.name.length ≤ 254) (hmax : msg.payload.length + 10 ≤ maxPacketSize) :
    ∃ buffer ptr, ClientPackets.gatePacket env front guest
        (clientRow env.adler32 dest msg.payload) =
          .ok (front.onMessage guest.ownerInfo msg.name buffer ptr msg.body.length) ∧
      read buffer ptr msg.body.length = .ok msg.body := by
  have hlen := clientRow_length env.adler32 guest.ownerInfo msg.payload
  have hlen' := clientRow_length env.adler32 dest msg.payload
  have hpayload := msg.payload_length
  let tail := (newBlock env.heap ((clientRow env.adler32 dest msg.payload).length +
    PacketC.exDataSize)).drop ((clientRow env.adler32 dest msg.payload).length + 2)
  let size := encodeBE 2 ((clientRow env.adler32 dest msg.payload).length + PacketC.exDataSize)
  -- the owner goes over the destination, so that the row of the owner stands in the buffer
  have howner : write (PacketC.ofClientFrame env.heap (clientRow env.adler32 dest msg.payload)).buffer
      (2 + 2) (encodeBE 4 guest.ownerInfo.toNat) =
        .ok (size ++ (clientRow env.adler32 guest.ownerInfo msg.payload ++ tail)) := by
    have hbuf : (PacketC.ofClientFrame env.heap (clientRow env.adler32 dest msg.payload)).buffer =
        (size ++ encodeBE 2 (msg.payload.length + 10)) ++ (encodeBE 4 dest.toNat ++
          (msg.payload ++ encodeBE 4 (env.adler32 msg.payload).toNat ++ tail)) := by
      simp [PacketC.ofClientFrame, clientRow, size, tail]
    rw [hbuf, write_middle (by simp [size]) (by simp)]
    simp [clientRow]
  have hat : msg.At (size ++ (clientRow env.adler32 guest.ownerInfo msg.payload ++ tail)) 8 := by
    have hrow := msg.at_clientRow env.adler32 guest.ownerInfo
    refine ⟨fun {off len} h => ?_, ?_⟩
    · rw [slice_skip (6 + off) (by simp [size]; omega), slice_append_left (by omega)]
      exact hrow.slice_eq h
    · simp only [List.length_append, size, encodeBE_length]
      omega
  refine ⟨size ++ (clientRow env.adler32 guest.ownerInfo msg.payload ++ tail),
    8 + (msg.name.length + 2), ?_, (read_ok ?_).trans (congrArg Except.ok hat.slice_body)⟩
  · have howned : (PacketC.ofClientFrame env.heap (clientRow env.adler32 dest msg.payload)).setOwner
        guest.ownerInfo = .ok ⟨size ++ (clientRow env.adler32 guest.ownerInfo msg.payload ++ tail), 2,
          (clientRow env.adler32 dest msg.payload).length⟩ :=
      bind_eq_ok.mpr ⟨_, howner, rfl⟩
    have hsize : msgSizeAt (size ++ (clientRow env.adler32 guest.ownerInfo msg.payload ++ tail)) 8
        (msg.payload.length + 4) = .ok msg.body.length := hat.msgSizeAt_eq hname rfl (by omega)
    have hcount : ((clientRow env.adler32 dest msg.payload).length : ℤ) - PacketC.headerSize =
        msg.payload.length + 4 := by
      rw [hlen', PacketC.headerSize]
      omega
    rw [ClientPackets.gatePacket, howned, ok_bind, PacketC.onMessage, PacketC.getPacketName,
      PacketC.getPacketMsg, PacketC.getMsgSize]
    dsimp only
    rw [hcount, PacketC.headerSize, hat.packetNameAt_eq hname, ok_bind, hat.packetMsgAt_eq hname,
      ok_bind, hsize]
    rfl
  · simp only [List.length_append, size, encodeBE_length]
    omega

/-- The request of a gate for a client. -/
def askSent (env : Env) (centerInfo : Word) (g k : UInt16) (guest : LocalGuest) : Sent :=
  ⟨centerInfo, guestInfo g k, env.message ⟨.pktEnterPermissionReq, requestOf guest⟩⟩

/-- What the gate has written for it. -/
def askOutput (centerInfo : Word) (g k : UInt16) (guest : LocalGuest) : Output :=
  .packet .backEnd centerInfo (guestInfo g k) ⟨.pktEnterPermissionReq, requestOf guest⟩

section Packets

variable {env : Env} {g k : UInt16} {gate : GateServer}

/-- The names and bodies of the messages leave room in a packet. -/
theorem payload_length_le {msg : Message} (hname : msg.name.length ≤ 254)
    (hbody : msg.body.length ≤ maxMsgSize) :
    msg.payload.length + 10 + PacketC.exDataSize ≤ maxPacketSize := by
  have hpayload := msg.payload_length
  simp only [maxMsgSize, maxPacketSize, maxPacketTagSize, maxAppendDataSize, maxAoiObjCount,
    PacketC.exDataSize] at hbody ⊢
  omega

theorem name_length_le (env : Env) (msg : PacketMsg) : (env.message msg).name.length ≤ 254 := by
  have hall : ∀ t : PacketType, t.descriptor.name.length ≤ 254 := by
    intro t
    cases t <;> decide
  exact hall msg.type

/-- The row of a login is a frame that the gate accepts. -/
theorem loginFrame_accepted {guest : LocalGuest} (hfits : Fits env guest) :
    IsFrame (ClientProgram.loginFrame env guest) ∧
      (ClientProgram.loginFrame env guest).length + PacketC.exDataSize ≤ maxPacketSize ∧
      (PacketC.ofClientFrame env.heap (ClientProgram.loginFrame env guest)).isValid env.adler32 =
        .ok true := by
  have hmax := payload_length_le (name_length_le env ⟨.pktGameLoginReq, ClientProgram.loginMsg guest⟩)
    hfits.loginFits
  obtain ⟨hframe, hvalid⟩ := clientRow_accepted env.adler32 env.heap
    (PeerInfo.serialize { peerType := .gateserver })
    (env.message ⟨.pktGameLoginReq, ClientProgram.loginMsg guest⟩).payload (by omega)
  refine ⟨hframe, ?_, hvalid⟩
  rw [ClientProgram.loginFrame, clientRow_length]
  exact hmax

theorem askSent_sendable {centerInfo : Word} {guest : LocalGuest} (hfits : Fits env guest) :
    (askSent env centerInfo g k guest).Sendable :=
  ⟨name_length_le env ⟨.pktEnterPermissionReq, requestOf guest⟩, hfits.requestFits⟩

/-- A login makes the gate write a request. -/
theorem gate_login (hup : GateUp g gate) {front : NetChannel}
    (hfront : gate.frontEnd.getChannel k = some front) {guest : LocalGuest}
    (hfits : Fits env guest) :
    ∃ gate', ClientPackets.gateFn env front gate
        (.c (.ofClientFrame env.heap (ClientProgram.loginFrame env guest))) = .ok gate' ∧
      Wrote gate gate' [askOutput (ServerManager.getCenterPeerInfo gate.infos) g k guest] := by
  obtain ⟨hinfo, -, hguest⟩ := hup.channels k front hfront
  obtain ⟨back, hback, -⟩ := hup.registered.backEnd
  have hmax := payload_length_le (name_length_le env ⟨.pktGameLoginReq, ClientProgram.loginMsg guest⟩)
    hfits.loginFits
  have hlen : 10 ≤ (ClientProgram.loginFrame env guest).length := by
    rw [ClientProgram.loginFrame, clientRow_length]
    omega
  have htype : PeerInfo.getPeerType (clientDest (ClientProgram.loginFrame env guest)) =
      .gateserver := by
    rw [ClientProgram.loginFrame, clientDest_clientRow]
    decide
  have hown : gate.toGate.guests front.getPeerInfo =
      some (.new (guestInfo g k) (ServerManager.getCenterPeerInfo gate.infos)) := by
    rw [hinfo]
    exact hguest
  -- the packet is for the gate itself, which hands it to its dispatcher
  obtain ⟨buffer, ptr, hpacket, hbody⟩ := gatePacket_clientRow env front
    (.new (guestInfo g k) (ServerManager.getCenterPeerInfo gate.infos))
    (PeerInfo.serialize { peerType := .gateserver })
    (name_length_le env ⟨.pktGameLoginReq, ClientProgram.loginMsg guest⟩) (by omega)
  rw [Login.ownerInfo_new] at hpacket
  have hholds : (front.onMessage (guestInfo g k)
      (env.message ⟨.pktGameLoginReq, ClientProgram.loginMsg guest⟩).name buffer ptr
      (env.message ⟨.pktGameLoginReq, ClientProgram.loginMsg guest⟩).body.length).Holds env
        .pktGameLoginReq (ClientProgram.loginMsg guest) :=
    ⟨Or.inl rfl, hfits.login _ _ hbody⟩
  have hdeliver := hholds.deliverPacket ⟨.pktGameLoginReq, fun _ owner pkt =>
    GateServer.onMessagePktGameLoginReq env.build owner pkt⟩
    (GateServer.nodup_callBacks env.build) (by simp [GateServer.callBacks]) gate
  have hhandler : GateServer.onMessagePktGameLoginReq env.build (guestInfo g k)
      (ClientProgram.loginMsg guest) gate = .ok (gate.write back
        (askOutput (ServerManager.getCenterPeerInfo gate.infos) g k guest)) := by
    rw [GateServer.onMessagePktGameLoginReq, hguest]
    dsimp only
    rw [Login.getDestPeerInfo_new, if_pos rfl, GateServer.sendPacket2Server,
      PacketProcessor.sendPacket2BackEnd, hback]
    rfl
  have hforward : gate.forwardPacketOnFrontEnd env front
      (.ofClientFrame env.heap (ClientProgram.loginFrame env guest)) =
        (ClientPackets.gatePacket env front
          (.new (guestInfo g k) (ServerManager.getCenterPeerInfo gate.infos))
          (ClientProgram.loginFrame env guest) >>= fun packet => gate.deliverPacket env packet) := by
    rw [GateServer.forwardPacketOnFrontEnd,
      Gate.forwardPacketOnFrontEnd_own env.build env.heap env.host hlen hown htype]
    simp only [ClientPackets.gatePacket, bind_assoc, ok_bind, List.foldlM_cons, List.foldlM_nil,
      GateServer.perform, bind_pure]
  refine ⟨_, ?_, wrote_write gate (hup.linked back hback) _⟩
  rw [ClientPackets.gateFn, hforward, ClientProgram.loginFrame, hpacket, ok_bind]
  exact hdeliver.trans hhandler

/-- A request makes the center write an answer. -/
theorem center_ask {center : CenterServer} (hready : Login.CenterReady center.frontEnd)
    (hconn : center.frontEnd.connected g = true) {channel : NetChannel}
    (hchannel : center.frontEnd.getChannel g = some channel) {centerInfo : Word}
    (hcenter : PeerInfo.getPeerType centerInfo = .centerserver) {guest : LocalGuest}
    (hfits : Fits env guest) :
    ClientPackets.centerFn env channel center
        (Cluster.packetOf env.adler32 env.host (askSent env centerInfo g k guest)) =
      .ok { center with sent := center.sent ++ [Login.ackOutput g (guestInfo g k)] } := by
  obtain ⟨-, -, hcarries⟩ :=
    (askSent_sendable hfits).received_carries env.adler32 env.host
  obtain ⟨packet, hpacket, hindex, hshows⟩ := Center.dispatchLocal_carries channel hcarries
  have hg : packet.channelIndex = g := by
    rw [hindex, ← PeerInfo.getChannelIndex_eq]
    exact hready.index g channel hchannel
  have hholds : packet.Holds env .pktEnterPermissionReq (requestOf guest) := by
    refine ⟨Or.inl hshows.packetName.symm, ?_⟩
    rw [hshows.msgSize]
    exact hfits.request _ _ hshows.body
  have hdeliver := hholds.deliverPacket ⟨.pktEnterPermissionReq, fun channelIndex owner _ =>
    CenterServer.onMessagePktEnterPermissionReq channelIndex owner⟩
    (CenterServer.nodup_callBacks env.build) (by simp [CenterServer.callBacks]) center
  rw [Cluster.packetOf, ClientPackets.centerFn,
    ClientPackets.forwardPacketOnFrontEnd_own (hcarries.dests env.build) hcenter, hpacket, ok_bind]
  refine hdeliver.trans ?_
  dsimp only
  rw [CenterServer.onMessagePktEnterPermissionReq, CenterServer.sendPacket, hg, if_pos hconn,
    hshows.ownerInfo]
  rfl

variable (hund : Understood env)

include hund

/-- The row of a role list is a frame. -/
theorem roleListFrame_isFrame (owner : Word) :
    IsFrame (ClientProgram.roleListFrame env owner roles) := by
  have hmax := payload_length_le (name_length_le env ⟨.pktRoleListAck, roles⟩) hund.roleListFits
  exact (clientRow_accepted env.adler32 env.heap owner
    (env.message ⟨.pktRoleListAck, roles⟩).payload (by omega)).1

theorem ackSent_sendable (guestId : Word) : (Login.ackSent env guestId).Sendable :=
  ⟨name_length_le env Login.ackMsg, hund.answerFits⟩

/-- An answer makes the gate write a role list. -/
theorem gate_answer (hup : GateUp g gate) {front : NetChannel}
    (hfront : gate.frontEnd.getChannel k = some front) :
    ∃ gate', Login.backEndFn env gate
        (Cluster.packetOf env.adler32 env.host (Login.ackSent env (guestInfo g k))) = .ok gate' ∧
      Wrote gate gate' [Login.roleListOutput (guestInfo g k)] := by
  obtain ⟨-, hsend, hguest⟩ := hup.channels k front hfront
  obtain ⟨-, -, hcarries⟩ :=
    (ackSent_sendable hund (guestInfo g k)).received_carries env.adler32 env.host
  obtain ⟨packet, hpacket, -, hshows⟩ := Center.dispatchLocal_carries front hcarries
  have hholds : packet.Holds env .pktEnterPermissionAck CheckResult.ok := by
    refine ⟨Or.inl hshows.packetName.symm, ?_⟩
    rw [hshows.msgSize]
    exact hund.answer _ _ hshows.body
  let gate₁ : GateServer := { gate with dispatched := gate.dispatched ++ [(.frontEnd k, packet)] }
  have hdeliver := hholds.deliverPacket ⟨.pktEnterPermissionAck, fun _ owner _ =>
    GateServer.onMessagePktEnterPermissionAck env.build owner⟩
    (GateServer.nodup_callBacks env.build) (by simp [GateServer.callBacks]) gate₁
  have hhandler : GateServer.onMessagePktEnterPermissionAck env.build (guestInfo g k) gate₁ =
      .ok (gate₁.write front (Login.roleListOutput (guestInfo g k))) := by
    have hindex : PeerInfo.getChannelIndex (guestInfo g k) = k := PeerInfo.getChannelIndex_serialize _
    have hguest₁ : gate₁.guests (guestInfo g k) =
        some (.new (guestInfo g k) (ServerManager.getCenterPeerInfo gate.infos)) := hguest
    have hfront₁ : gate₁.frontEnd.getChannel k = some front := hfront
    rw [GateServer.onMessagePktEnterPermissionAck, hguest₁]
    dsimp only
    rw [hindex, GateServer.sendPacket2Client, hfront₁]
    dsimp only
    rw [Login.roleListOutput, hindex]
  have hwrote := wrote_write gate₁ hsend (Login.roleListOutput (guestInfo g k))
  refine ⟨_, ?_, ⟨⟨hwrote.guests, hwrote.frontEnd, hwrote.sent⟩, hwrote.backEnd, hwrote.infos⟩⟩
  rw [Cluster.packetOf, Login.backEndFn,
    GuestRouting.forwardPacketOnBackEnd_guestInfo hup.registered hfront (hcarries.dests env.build),
    hpacket, ok_bind]
  refine hdeliver.trans ?_
  dsimp only
  rw [hshows.ownerInfo]
  exact hhandler

end Packets

end ClientLogin

end TerraX
