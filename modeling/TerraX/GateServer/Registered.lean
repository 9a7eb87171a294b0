import TerraX.CenterServer.ConnectionManager
import TerraX.GateServer.GateServer

/-!
# A gate that is registered

The gate has the peer info `(gateserver, 0, i)`, where `i` is its channel at the center. To
its clients it gives addresses with `i` as peer index and the channel of the client as channel
index: guest ids, whose type is that of the gate, and addresses of type `client`. The index
is narrowed from 16 to 8 bits on the way, which loses nothing below `MAX_CONNECTION`.

## Main definitions

- `GateServer.RegisteredAt`
- `guestInfo`, `clientInfo` — the addresses of a client
- `GateServer.Greeted` — `DoFrontEnd_Connected` has run for a client

## Main results

- `Gate.target_regInfo`, `Gate.target_guestInfo`, `Gate.target_clientInfo`,
  `Gate.target_eq_nobody` — what the gate takes a destination for
- `GateServer.Greeted.guestId` — the id of a guest
- `guestInfo_inj`, `guestInfo_ne_regInfo` — no two guests and no guest and server share an address
- `GateServer.forwardDest_regInfo`, `GateServer.forwardDest_guestInfo`,
  `GateServer.forwardDest_clientInfo`, `GateServer.forwardDest_nobody` — one turn of the loop in
  `ForwardPacketOnBackEnd`
-/

namespace TerraX

open Memory

/-- The gate has the peer info that the center has given to it on its channel `i`. -/
structure GateServer.RegisteredAt (gate : GateServer) (i : UInt16) : Prop where
  pos : 0 < i
  lt : i.toNat < maxConnection
  backEnd : ∃ back, gate.backEnd = some back ∧ back.getPeerInfo = regInfo .gateserver i

/-- The id of the guest on channel `k` of the gate on channel `i` of the center. -/
def guestInfo (i k : UInt16) : Word := PeerInfo.serialize ⟨.gateserver, i.toUInt8, k⟩

/-- The address of the client itself. -/
def clientInfo (i k : UInt16) : Word := PeerInfo.serialize ⟨.client, i.toUInt8, k⟩

theorem toUInt8_toNat_of_lt {i : UInt16} (h : i.toNat < maxConnection) :
    i.toUInt8.toNat = i.toNat := by
  unfold maxConnection at h
  rw [UInt16.toNat_toUInt8]
  omega

theorem toUInt8_ne_zero {i : UInt16} (hpos : 0 < i) (h : i.toNat < maxConnection) :
    i.toUInt8 ≠ 0 := by
  have hi := UInt16.lt_iff_toNat_lt.mp hpos
  intro hzero
  have hval := congrArg UInt8.toNat hzero
  rw [toUInt8_toNat_of_lt h] at hval
  exact absurd hval (Nat.ne_of_gt hi)

/-! ### Addresses are distinct -/

theorem guestInfo_inj {i i' k k' : UInt16} (hlt : i.toNat < maxConnection)
    (hlt' : i'.toNat < maxConnection) (h : guestInfo i k = guestInfo i' k') : i = i' ∧ k = k' := by
  have hindex := congrArg PeerInfo.getPeerIndex h
  have hchannel := congrArg PeerInfo.getChannelIndex h
  simp only [guestInfo, PeerInfo.getPeerIndex_serialize, PeerInfo.getChannelIndex_serialize]
    at hindex hchannel
  refine ⟨UInt16.toNat_inj.mp ?_, hchannel⟩
  rw [← toUInt8_toNat_of_lt hlt, ← toUInt8_toNat_of_lt hlt', hindex]

/-- The peer index of a server is 0, and that of a guest is not. -/
theorem guestInfo_ne_regInfo {i : UInt16} (hpos : 0 < i) (hlt : i.toNat < maxConnection)
    (k : UInt16) (t : PeerType) (c : UInt16) : guestInfo i k ≠ regInfo t c := by
  intro h
  have hindex := congrArg PeerInfo.getPeerIndex h
  rw [guestInfo, regInfo, PeerInfo.getPeerIndex_serialize, PeerInfo.getPeerIndex_serialize] at hindex
  exact toUInt8_ne_zero hpos hlt hindex

theorem clientInfo_inj {i k k' : UInt16} (h : clientInfo i k = clientInfo i k') : k = k' := by
  have hchannel := congrArg PeerInfo.getChannelIndex h
  simpa only [clientInfo, PeerInfo.getChannelIndex_serialize] using hchannel

@[simp] theorem getPeerType_guestInfo (i k : UInt16) :
    PeerInfo.getPeerType (guestInfo i k) = .gateserver := PeerInfo.getPeerType_serialize _

@[simp] theorem getPeerType_clientInfo (i k : UInt16) :
    PeerInfo.getPeerType (clientInfo i k) = .client := PeerInfo.getPeerType_serialize _

/-- No client has the address of a server or of a guest. -/
theorem clientInfo_ne {i k : UInt16} {dest : Word} (h : PeerInfo.getPeerType dest = .gateserver) :
    clientInfo i k ≠ dest := by
  rintro rfl
  rw [getPeerType_clientInfo] at h
  exact absurd h (by decide)

/-! ### What the gate takes a destination for -/

section Target

variable {back : NetChannel} {i : UInt16} (hback : back.getPeerInfo = regInfo .gateserver i)
include hback

theorem Gate.channelIndex_back : back.getChannelIndex = i := by
  have hi := getChannelIndex_regInfo .gateserver i
  rwa [← hback] at hi

theorem Gate.target_regInfo : Gate.target back (regInfo .gateserver i) = .backEnd := by
  have htype : (PeerInfo.parse (regInfo .gateserver i)).peerType = .gateserver := by
    rw [regInfo, PeerInfo.parse_serialize]
  rw [Gate.target, if_pos htype, if_pos hback]

theorem Gate.target_guestInfo (hpos : 0 < i) (hlt : i.toNat < maxConnection) (k : UInt16) :
    Gate.target back (guestInfo i k) = .frontEnd k := by
  have hne : back.getPeerInfo ≠ guestInfo i k := by
    rw [hback]
    exact (guestInfo_ne_regInfo hpos hlt k _ _).symm
  have hindex : i.toUInt8.toNat = back.getChannelIndex.toNat := by
    rw [channelIndex_back hback, toUInt8_toNat_of_lt hlt]
  rw [Gate.target, guestInfo, PeerInfo.parse_serialize]
  rw [guestInfo] at hne
  simp only [if_true, if_neg hne, if_pos hindex]

theorem Gate.target_clientInfo (hlt : i.toNat < maxConnection) (k : UInt16) :
    Gate.target back (clientInfo i k) = .client k := by
  have hindex : i.toUInt8.toNat = back.getChannelIndex.toNat := by
    rw [channelIndex_back hback, toUInt8_toNat_of_lt hlt]
  have htype : PeerType.client ≠ PeerType.gateserver := by decide
  rw [Gate.target, clientInfo, PeerInfo.parse_serialize]
  simp only [if_neg htype, if_true, if_pos hindex]

/-- What is none of these belongs to another server. -/
theorem Gate.target_eq_nobody (hlt : i.toNat < maxConnection) {dest : Word}
    (hown : dest ≠ regInfo .gateserver i) (hguest : ∀ k, dest ≠ guestInfo i k)
    (hclient : ∀ k, dest ≠ clientInfo i k) : Gate.target back dest = .nobody := by
  have hindex : ∀ t, PeerInfo.getPeerType dest = t →
      (PeerInfo.getPeerIndex dest).toNat = back.getChannelIndex.toNat →
      dest = PeerInfo.serialize ⟨t, i.toUInt8, PeerInfo.getChannelIndex dest⟩ := by
    intro t ht hi
    rw [channelIndex_back hback, ← toUInt8_toNat_of_lt hlt] at hi
    rw [← ht, ← UInt8.toNat_inj.mp hi]
    exact (PeerInfo.serialize_parse dest).symm
  rw [Gate.target, PeerInfo.parse_eq]
  dsimp only
  split
  · next ht =>
    rw [if_neg (fun heq => hown (heq.symm.trans hback))]
    split
    · next hi => exact absurd (hindex _ ht hi) (hguest _)
    · rfl
  · split
    · next ht =>
      split
      · next hi => exact absurd (hindex _ ht hi) (hclient _)
      · rfl
    · rfl

end Target

/-! ### One turn of the loop in `ForwardPacketOnBackEnd` -/

/-- Only the name of a packet for a gate is read in front of the test. -/
theorem GateServer.destName_of_ne (pktS : PacketS) {dest : Word}
    (h : PeerInfo.getPeerType dest ≠ .gateserver) : destName pktS dest = .ok [] := if_neg h

theorem GateServer.destName_of_eq (pktS : PacketS) {dest : Word}
    (h : PeerInfo.getPeerType dest = .gateserver) : destName pktS dest = pktS.getPacketName := if_pos h

section Turn

variable {gate : GateServer} {back : NetChannel} {i : UInt16} (hback : gate.backEnd = some back)
  (hinfo : back.getPeerInfo = regInfo .gateserver i)
  {deliver : Dispatch → GateServer → Except Fault GateServer} {pktS : PacketS}
include hback hinfo

theorem GateServer.forwardDest_regInfo :
    forwardDest deliver pktS gate (regInfo .gateserver i) =
      (Center.dispatchLocal back pktS >>= fun packet =>
        deliver packet { gate with dispatched := gate.dispatched ++ [(.backEnd, packet)] }) := by
  have hname := destName_of_eq pktS (getPeerType_regInfo .gateserver i)
  have htarget := Gate.target_regInfo hinfo
  simp only [forwardDest, hback, hname, htarget, forward, onMessage, Center.dispatchLocal,
    PacketS.onMessage, bind_assoc, pure_bind]

theorem GateServer.forwardDest_guestInfo (hpos : 0 < i) (hlt : i.toNat < maxConnection) {k : UInt16}
    {channel : NetChannel} (hfound : gate.frontEnd.getChannel k = some channel) :
    forwardDest deliver pktS gate (guestInfo i k) =
      (Center.dispatchLocal channel pktS >>= fun packet =>
        deliver packet { gate with dispatched := gate.dispatched ++ [(.frontEnd k, packet)] }) := by
  have hname := destName_of_eq pktS (getPeerType_guestInfo i k)
  have htarget := Gate.target_guestInfo hinfo hpos hlt k
  simp only [forwardDest, hback, hname, htarget, forward, hfound, onMessage, Center.dispatchLocal,
    PacketS.onMessage, bind_assoc, pure_bind]

/-- A guest whose channel is gone: the name has been read all the same. -/
theorem GateServer.forwardDest_guestInfo_none (hpos : 0 < i) (hlt : i.toNat < maxConnection)
    {k : UInt16} (hgone : gate.frontEnd.getChannel k = none) :
    forwardDest deliver pktS gate (guestInfo i k) = (pktS.getPacketName >>= fun _ => .ok gate) := by
  have hname := destName_of_eq pktS (getPeerType_guestInfo i k)
  have htarget := Gate.target_guestInfo hinfo hpos hlt k
  simp only [forwardDest, hback, hname, htarget, forward, hgone]

theorem GateServer.forwardDest_clientInfo (hlt : i.toNat < maxConnection) (k : UInt16) :
    forwardDest deliver pktS gate (clientInfo i k) =
      match gate.frontEnd.getChannel k with
      | none => .ok gate
      | some channel =>
        if channel.sendMsg then read pktS.buffer 2 pktS.dataSize >>= fun bytes =>
          .ok (gate.write channel (.bytes (.frontEnd k) bytes))
        else .ok gate := by
  have hne : PeerInfo.getPeerType (clientInfo i k) ≠ .gateserver := by
    rw [getPeerType_clientInfo]
    decide
  have hname := destName_of_ne pktS hne
  have htarget := Gate.target_clientInfo hinfo hlt k
  simp only [forwardDest, hback, hname, htarget, forward, ok_bind]
  rfl

/-- What belongs to another server is left alone, but the name is read for a gate. -/
theorem GateServer.forwardDest_nobody (hlt : i.toNat < maxConnection) {dest : Word}
    (hown : dest ≠ regInfo .gateserver i) (hguest : ∀ k, dest ≠ guestInfo i k)
    (hclient : ∀ k, dest ≠ clientInfo i k) :
    forwardDest deliver pktS gate dest = (destName pktS dest >>= fun _ => .ok gate) := by
  have htarget := Gate.target_eq_nobody hinfo hlt hown hguest hclient
  simp only [forwardDest, hback, htarget, forward]

end Turn

/-! ### The clients of the gate -/

/-- `DoFrontEnd_Connected` has run for a channel that is there, at a time when the gate was
    registered: it has made the guest, and given the channel its peer info. -/
structure GateServer.Greeted (gate : GateServer) (i k : UInt16) (channel : NetChannel)
    (guest : Guest) : Prop where
  found : gate.frontEnd.getChannel k = some channel
  greeted : ∃ (before : GateServer) (fresh made : NetChannel), before.RegisteredAt i ∧
    before.frontEnd.getChannel k = some fresh ∧ fresh.getChannelIndex = k ∧
    (before.doFrontEndConnected (.frontEnd k)).frontEnd.getChannel k = some made ∧
    (before.doFrontEndConnected (.frontEnd k)).guests made.getPeerInfo = some guest ∧
    channel.getPeerInfo = made.getPeerInfo

/-- What `DoFrontEnd_Connected` makes of a gate. -/
theorem GateServer.doFrontEndConnected_state {gate : GateServer} {i k : UInt16} {fresh : NetChannel}
    (h : gate.RegisteredAt i) (hfresh : gate.frontEnd.getChannel k = some fresh)
    (hindex : fresh.getChannelIndex = k) :
    ∃ made, made.getPeerInfo = guestInfo i k ∧ gate.doFrontEndConnected (.frontEnd k) =
      { gate with
        toPacketProcessor := gate.toPacketProcessor.setChannel (.frontEnd k) made
        guests := gate.guests.createGuest (guestInfo i k)
          (ServerManager.getCenterPeerInfo gate.infos) } := by
  obtain ⟨back, hback, hinfo⟩ := h.backEnd
  generalize hmade : (fresh.setPeerType .gateserver).setPeerIndex back.getChannelIndex.toUInt8 = made
  have hpeerInfo : made.getPeerInfo = guestInfo i k := by
    have htype : (fresh.setPeerType .gateserver).getPeerType = .gateserver := by
      rw [NetChannel.getPeerType, NetChannel.peerInfo_setPeerType, PeerInfo.getPeerType_serialize]
    have hchannel : (fresh.setPeerType .gateserver).getChannelIndex = k := by
      rw [NetChannel.getChannelIndex, NetChannel.peerInfo_setPeerType,
        PeerInfo.getChannelIndex_serialize, hindex]
    rw [← hmade, NetChannel.getPeerInfo, NetChannel.peerInfo_setPeerIndex, htype, hchannel,
      Gate.channelIndex_back hinfo]
    rfl
  refine ⟨made, hpeerInfo, ?_⟩
  have hptr : gate.toPacketProcessor.getChannel (.frontEnd k) = some fresh := hfresh
  rw [GateServer.doFrontEndConnected]
  split
  · next back' channel hback' hchannel =>
    cases hback.symm.trans hback'
    cases hptr.symm.trans hchannel
    dsimp only
    rw [hmade, hpeerInfo]
  · next hnone => exact absurd hptr (hnone back fresh hback)

/-- What it makes of the channel. -/
theorem GateServer.doFrontEndConnected_eq {gate : GateServer} {i k : UInt16} {fresh : NetChannel}
    (h : gate.RegisteredAt i) (hfresh : gate.frontEnd.getChannel k = some fresh)
    (hindex : fresh.getChannelIndex = k) :
    ∃ made, (gate.doFrontEndConnected (.frontEnd k)).frontEnd.getChannel k = some made ∧
      made.getPeerInfo = guestInfo i k ∧
      (gate.doFrontEndConnected (.frontEnd k)).guests (guestInfo i k) =
        some (.new (guestInfo i k) (ServerManager.getCenterPeerInfo gate.infos)) := by
  obtain ⟨made, hpeerInfo, hconnected⟩ := doFrontEndConnected_state h hfresh hindex
  rw [hconnected]
  refine ⟨made, ?_, hpeerInfo, Function.update_self ..⟩
  show (gate.frontEnd.setChannel k made).getChannel k = some made
  rw [NetServer.getChannel_setChannel, if_pos rfl]

theorem GateServer.Greeted.guestId {gate : GateServer} {i k : UInt16} {channel : NetChannel}
    {guest : Guest} (h : gate.Greeted i k channel guest) :
    channel.getPeerInfo = guestInfo i k ∧ guest.guestId = guestInfo i k := by
  obtain ⟨before, fresh, made, hreg, hfresh, hindex, hmade, hguest, hinfo⟩ := h.greeted
  obtain ⟨made', hmade', hinfo', hguest'⟩ := doFrontEndConnected_eq hreg hfresh hindex
  cases hmade.symm.trans hmade'
  rw [hinfo'] at hguest
  cases hguest.symm.trans hguest'
  exact ⟨hinfo.trans hinfo', rfl⟩

end TerraX
