import TerraX.CenterServer.Routing
import TerraX.GateServer.Registered

/-!
# From a server to a guest

A packet for a guest passes the center, which takes the peer index of the guest id for the next
hop, and the gate, which takes the channel index for the channel of the client. Both hops read
the same word in another way. The gates are those on the channels of one center.

## Main definitions

- `GuestRouting.Routed` — one send to the gate, and one dispatch on the channel of the client

## Main results

- `GuestRouting.routed_iff` — guest ids are distinct addresses, and the packets that are routed so
-/

namespace TerraX

open Bytes Memory

namespace GuestRouting

/-- The center sends the packet of a frame once, on the channel of the gate, and the gate hands
    it to a handler once, on the channel of the client, and does nothing else with it. -/
structure Routed (build : Build) (host : Endian) (i : UInt16) (gate : GateServer) (k : UInt16)
    (channel : NetChannel) (frame : List UInt8) (pkt : PacketS) : Prop where
  sent : ∀ net front, net.connected i = true →
    Center.forwardPacketOnFrontEnd build host net front pkt = .ok [.send i frame]
  dispatched : ∃ packet, Center.dispatchLocal channel pkt = .ok packet ∧ packet.channelIndex = k ∧
    ∀ deliver, gate.forwardPacketOnBackEnd build host deliver pkt =
      deliver packet { gate with dispatched := gate.dispatched ++ [(.frontEnd k, packet)] }

/-- The peer index of a guest id is the channel of its gate at the center. -/
theorem hopOf_guestInfo {i : UInt16} (hpos : 0 < i) (hlt : i.toNat < maxConnection) (k : UInt16) :
    Center.hopOf (guestInfo i k) = some i := by
  have htype : PeerType.centerserver ≠ PeerType.gateserver := by decide
  have hindex : i.toUInt8.toUInt16 = i := by
    apply UInt16.toNat_inj.mp
    rw [UInt8.toNat_toUInt16, toUInt8_toNat_of_lt hlt]
  rw [Center.hopOf, guestInfo, PeerInfo.parse_serialize]
  simp only [if_neg htype, Center.nextHop, if_neg (toUInt8_ne_zero hpos hlt), hindex]

/-- A packet that was filled with a frame is sent as this frame. -/
theorem sentBytes_of_isValid {adler32 : List UInt8 → UInt32} {frame : List UInt8} {pkt : PacketS}
    (hlen : frame.length ≤ maxPacketSize)
    (hvalid : (PacketS.ofFrame frame).isValid adler32 = .ok (pkt, true)) :
    pkt.sentBytes = frame := by
  obtain ⟨-, -, rfl⟩ := (PacketS.isValid_true_iff adler32 hlen).mp hvalid
  exact slice_zero_length frame

/-- The data that it counts lie inside it. -/
theorem data_le_of_isValid {adler32 : List UInt8 → UInt32} {frame : List UInt8} {pkt : PacketS}
    (hlen : frame.length ≤ maxPacketSize)
    (hvalid : (PacketS.ofFrame frame).isValid adler32 = .ok (pkt, true)) :
    2 + pkt.dataSize ≤ pkt.buffer.length := by
  obtain ⟨⟨-, -, hend⟩, -, rfl⟩ := (PacketS.isValid_true_iff adler32 hlen).mp hvalid
  simp only [PacketS.ofFrame] at hend ⊢
  omega

/-- The center writes the packet to the channel of the gate. -/
theorem forwardPacketOnFrontEnd_guestInfo {build : Build} {host : Endian} {net : NetServer}
    {front : NetChannel} {pkt : PacketS} {i : UInt16} (hpos : 0 < i)
    (hlt : i.toNat < maxConnection) (k : UInt16) (hconn : net.connected i = true)
    (hdests : pkt.destinations build host = .ok [guestInfo i k]) :
    Center.forwardPacketOnFrontEnd build host net front pkt = .ok [.send i pkt.sentBytes] := by
  rw [Center.forwardPacketOnFrontEnd, hdests, ok_bind,
    Center.forwardDests_hop (hopOf_guestInfo hpos hlt k)]
  simp [Center.collectHop, maxConnection, Center.forwardDests, Center.sendToAll, hconn]

/-- The gate hands the packet on as far as its name can be read. -/
theorem forwardPacketOnBackEnd_guestInfo {build : Build} {host : Endian} {gate : GateServer}
    {i k : UInt16} (h : gate.RegisteredAt i) {channel : NetChannel}
    (hfound : gate.frontEnd.getChannel k = some channel) {pkt : PacketS}
    (hdests : pkt.destinations build host = .ok [guestInfo i k])
    (deliver : Dispatch → GateServer → Except Fault GateServer) :
    gate.forwardPacketOnBackEnd build host deliver pkt =
      (Center.dispatchLocal channel pkt >>= fun packet =>
        deliver packet { gate with dispatched := gate.dispatched ++ [(.frontEnd k, packet)] }) := by
  obtain ⟨back, hback, hinfo⟩ := h.backEnd
  rw [GateServer.forwardPacketOnBackEnd, hdests, ok_bind, List.foldlM_cons,
    GateServer.forwardDest_guestInfo hback hinfo h.pos h.lt hfound]
  simp only [List.foldlM_nil, bind_pure]

/-- For every set of gates that are registered on the channels of a center: the ids of guests are
    distinct over all gates and clients, and none is the peer info of a server. The packets for
    one guest that are routed to this guest and to nobody else are exactly those with a
    readable name. -/
theorem routed_iff (gates : UInt16 → Option GateServer)
    (hgates : ∀ i gate, gates i = some gate → gate.RegisteredAt i) :
    (∀ i gate k channel guest i' gate' k' channel' guest', gates i = some gate →
      gate.Greeted i k channel guest → gates i' = some gate' →
      gate'.Greeted i' k' channel' guest' → guest.guestId = guest'.guestId → i = i' ∧ k = k') ∧
    (∀ i gate k channel guest, gates i = some gate → gate.Greeted i k channel guest →
      ∀ t c, guest.guestId ≠ regInfo t c) ∧
    ∀ i gate k channel guest, gates i = some gate → gate.Greeted i k channel guest →
      ∀ adler32 build host frame pkt, frame.length ≤ maxPacketSize →
        (PacketS.ofFrame frame).isValid adler32 = .ok (pkt, true) →
        pkt.destinations build host = .ok [guest.guestId] →
        (Routed build host i gate k channel frame pkt ↔ Center.NameReadable pkt) := by
  refine ⟨?_, ?_, ?_⟩
  · intro i gate k channel guest i' gate' k' channel' guest' hgate hgreeted hgate' hgreeted' hid
    rw [hgreeted.guestId.2, hgreeted'.guestId.2] at hid
    exact guestInfo_inj (hgates i gate hgate).lt (hgates i' gate' hgate').lt hid
  · intro i gate k channel guest hgate hgreeted t c
    rw [hgreeted.guestId.2]
    exact guestInfo_ne_regInfo (hgates i gate hgate).pos (hgates i gate hgate).lt k t c
  · intro i gate k channel guest hgate hgreeted adler32 build host frame pkt hlen hvalid hdests
    have hreg := hgates i gate hgate
    obtain ⟨hchannel, hid⟩ := hgreeted.guestId
    rw [hid] at hdests
    obtain ⟨h12, -⟩ := Center.destinations_ok adler32 build host hlen hvalid
    have hsent : ∀ net front, net.connected i = true →
        Center.forwardPacketOnFrontEnd build host net front pkt = .ok [.send i frame] := by
      intro net front hconn
      rw [forwardPacketOnFrontEnd_guestInfo hreg.pos hreg.lt k hconn hdests,
        sentBytes_of_isValid hlen hvalid]
    -- the center relays the frame whether or not the name can be read; the gate needs the name
    constructor
    · intro hrouted
      obtain ⟨packet, hpacket, -⟩ := hrouted.dispatched
      by_contra hname
      obtain ⟨e, he, -⟩ := Center.dispatchLocal_error channel (by omega) hname
      exact nomatch he.symm.trans hpacket
    · intro hname
      obtain ⟨packet, hpacket⟩ := Center.dispatchLocal_ok channel (by omega) hname
      refine ⟨hsent, packet, hpacket, ?_, fun deliver => ?_⟩
      · have hinfo : channel.peerInfo = guestInfo i k := hchannel
        rw [(Center.dispatchLocal_eq_ok hpacket).1, hinfo]
        exact toUInt16_serialize _
      · rw [forwardPacketOnBackEnd_guestInfo hreg hgreeted.found hdests deliver, hpacket]
        rfl

/-! ### A gate with one client -/

/-- A gate on channel 1 of the center, with one connection. -/
def registeredGate : GateServer where
  backEnd := some { connState := .connected, peerInfo := regInfo .gateserver 1 }
  frontEnd := (NetServer.new 4).onConnect.1

/-- The gate when the client is there. -/
def gateWithClient : GateServer := registeredGate.doFrontEndConnected (.frontEnd 1)

/-- The channel of the client. -/
def clientChannel : NetChannel := { connState := .connected, peerInfo := guestInfo 1 1 }

theorem registeredGate_registeredAt : registeredGate.RegisteredAt 1 :=
  ⟨by decide, by decide, _, rfl, rfl⟩

theorem gateWithClient_registeredAt : gateWithClient.RegisteredAt 1 :=
  ⟨by decide, by decide, _, rfl, rfl⟩

theorem gateWithClient_greeted :
    gateWithClient.Greeted 1 1 clientChannel (.new (guestInfo 1 1) 0) :=
  ⟨rfl, registeredGate, _, _, registeredGate_registeredAt, rfl, rfl, rfl, rfl, rfl⟩

/-- The gates of a center with one gate. -/
def oneGate : UInt16 → Option GateServer := fun i => if i = 1 then some gateWithClient else none

theorem oneGate_registeredAt : ∀ i gate, oneGate i = some gate → gate.RegisteredAt i := by
  intro i gate h
  rw [oneGate] at h
  split at h
  · next hi =>
    cases h
    subst hi
    exact gateWithClient_registeredAt
  · cases h

theorem routed_iff_oneGate :
    ∃ pkt, (PacketS.ofFrame [0, 18, 0, 12, 0, 0, 0, 0, 1, 0, 0, 4, 0, 2, 1, 0, 1, 3]).isValid
        Adler32.adler32 = .ok (pkt, true) ∧
      Routed .release .little 1 gateWithClient 1 clientChannel
        [0, 18, 0, 12, 0, 0, 0, 0, 1, 0, 0, 4, 0, 2, 1, 0, 1, 3] pkt := by
  obtain ⟨-, -, hiff⟩ := routed_iff oneGate oneGate_registeredAt
  exact ⟨_, rfl, (hiff 1 gateWithClient 1 clientChannel _ rfl gateWithClient_greeted Adler32.adler32
    .release .little [0, 18, 0, 12, 0, 0, 0, 0, 1, 0, 0, 4, 0, 2, 1, 0, 1, 3] _ (by decide) rfl
    rfl).mpr (by decide)⟩

/-- A packet with a name length of zero passes `is_valid` and reaches the gate, where reading its
    name fails. -/
theorem not_routed_zeroNameLen :
    ∃ pkt, (PacketS.ofFrame [0, 17, 0, 11, 0, 0, 0, 0, 0, 0, 1, 0, 1, 1, 0, 1, 3]).isValid
        Adler32.adler32 = .ok (pkt, true) ∧
      pkt.destinations .release .little = .ok [guestInfo 1 1] ∧
      gateWithClient.Greeted 1 1 clientChannel (.new (guestInfo 1 1) 0) ∧
      (∀ deliver, gateWithClient.forwardPacketOnBackEnd .release .little deliver pkt =
        .error .lengthError) ∧
      ¬ Routed .release .little 1 gateWithClient 1 clientChannel
        [0, 17, 0, 11, 0, 0, 0, 0, 0, 0, 1, 0, 1, 1, 0, 1, 3] pkt := by
  refine ⟨_, rfl, rfl, gateWithClient_greeted, fun deliver => ?_, fun hrouted => ?_⟩
  · have herror : ∀ pkt : PacketS, pkt.destinations .release .little = .ok [guestInfo 1 1] →
        Center.dispatchLocal clientChannel pkt = .error .lengthError →
        gateWithClient.forwardPacketOnBackEnd .release .little deliver pkt =
          .error .lengthError := by
      intro pkt hdests hpacket
      rw [forwardPacketOnBackEnd_guestInfo gateWithClient_registeredAt gateWithClient_greeted.found
        hdests deliver, hpacket]
      rfl
    exact herror _ rfl rfl
  · obtain ⟨packet, hpacket, -⟩ := hrouted.dispatched
    cases hpacket

end GuestRouting

end TerraX
