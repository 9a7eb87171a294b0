import TerraX.Cluster.ClientLoginPackets
import TerraX.Cluster.ClientRelay

/-!
# What one packet does at the gate of a client

A request for another server makes the gate forward the bytes of a packet to the center, the same
bytes as if the gate had sent the packet itself. A packet for a client makes the gate forward the
bytes of a client packet. All other packets make it forward nothing.

## Main definitions

- `ClientRelay.Passes` — a gate has forwarded something, and knows the same clients

## Main results

- `ClientRelay.relayedRow_frame` — what is relayed is what is sent
- `ClientRelay.gate_request`, `ClientRelay.gate_packetOf` — one packet from a client, or from the
  center
- `ClientRelay.front_batch`, `ClientRelay.node_batch` — those of an arrival
-/

namespace TerraX

open Bytes Memory Framing

/-! ### What is sent -/

section Sending

variable (build : Build) (adler32 : List UInt8 → UInt32) (heap : ℕ → UInt8)

theorem Request.Sendable.send_frame {r : Request} (h : r.Sendable) :
    r.send build adler32 heap = .ok (r.frame adler32) := by
  obtain ⟨owner, hbuilt⟩ := PacketC.ofMessage_eq h.1 h.2 build adler32 heap
  rw [Request.send, hbuilt, ok_bind, PacketC.setOwner_clientRow]
  rfl

theorem Told.Sendable.send_frame {t : Told} (h : t.Sendable) :
    sendPacket2Client build adler32 heap t.ownerInfo t.msg = .ok (t.frame adler32) :=
  sendPacket2Client_eq h.1 h.2 build adler32 heap t.ownerInfo

/-- The bytes of a request are a frame that a gate accepts, and that leaves room for what it adds. -/
theorem Request.Sendable.frame_accepted {r : Request} (h : r.Sendable) :
    IsFrame (r.frame adler32) ∧
      (PacketC.ofClientFrame heap (r.frame adler32)).isValid adler32 = .ok true ∧
      (r.frame adler32).length + PacketC.exDataSize ≤ maxPacketSize := by
  have hmax := ClientLogin.payload_length_le h.1 h.2
  obtain ⟨hframe, hvalid⟩ := clientRow_accepted adler32 heap
    (PeerInfo.serialize { peerType := r.peerType }) r.msg.payload (by omega)
  refine ⟨hframe, hvalid, ?_⟩
  rw [Request.frame, clientRow_length]
  exact hmax

/-- A frame of what a client is told. -/
theorem Told.Sendable.isFrame {t : Told} (h : t.Sendable) :
    packetSplitter.IsFrame (t.frame adler32) := by
  have hmax := ClientLogin.payload_length_le h.1 h.2
  exact packetSplitter_isFrame.mpr (isFrame_clientRow adler32 t.ownerInfo t.msg.payload (by omega))

variable {adler32}

theorem Request.getPeerType_clientDest (r : Request) :
    PeerInfo.getPeerType (clientDest (r.frame adler32)) = r.peerType := by
  rw [Request.frame, clientDest_clientRow, PeerInfo.getPeerType_serialize]

theorem Request.ten_le_length (r : Request) : 10 ≤ (r.frame adler32).length := by
  rw [Request.frame, clientRow_length]
  omega

end Sending

namespace ClientRelay

/-- The row that a gate makes of a request is the packet that it would send itself. -/
theorem relayedRow_frame (adler32 : List UInt8 → UInt32) (host : Endian) (guest : Guest)
    (r : Request) :
    relayedRow host (r.frame adler32) guest.ownerInfo (guest.getDestPeerInfo r.peerType) =
      (r.relayed guest).frame adler32 host := by
  have hlen : (r.frame adler32).length = r.msg.payload.length + 10 := clientRow_length ..
  have hsize : r.msg.payload.length + 10 + PacketC.exDataSize =
      r.msg.payload.length + 12 + 4 * [guest.getDestPeerInfo r.peerType].length := rfl
  have hdata : slice (r.frame adler32) 0 2 = encodeBE 2 (r.msg.payload.length + 10) :=
    slice_size_clientRow ..
  have hpayload : slice (r.frame adler32) 6 r.msg.payload.length = r.msg.payload :=
    (slice_payload_clientRow adler32 _ r.msg.payload (Nat.zero_add _).le).trans
      (slice_zero_length _)
  have hend : r.msg.payload.length + 10 - 4 = 6 + r.msg.payload.length := by omega
  have hsum : slice (r.frame adler32) (6 + r.msg.payload.length) 4 =
      encodeBE 4 (adler32 r.msg.payload).toNat := slice_sum_clientRow ..
  rw [relayedRow, hlen, hsize, hdata, Nat.add_sub_cancel, hpayload, hend, hsum]
  rfl

/-- What a gate writes to a client for a packet is what it would send itself. -/
theorem read_frame {adler32 : List UInt8 → UInt32} {host : Endian} {s : Sent} (hs : s.Sendable) :
    read (s.received adler32 host).buffer 2 (s.received adler32 host).dataSize =
      .ok (s.told.frame adler32) := by
  obtain ⟨hframe, hvalid, -⟩ := hs.received_carries adler32 host
  rw [read_ok (GuestRouting.data_le_of_isValid hframe.2.1 hvalid)]
  exact congrArg Except.ok (slice_serverLayout_eq_clientRow adler32 s.ownerInfo s.msg.payload
    (encodeBE_length _ _))

/-! ### What a gate keeps -/

/-- A gate has forwarded something, and has the same channels and guests as before. -/
structure Passes (gate gate' : GateServer) (part : List (ChannelPtr × List UInt8)) : Prop where
  backEnd : gate'.backEnd = gate.backEnd
  frontEnd : gate'.frontEnd = gate.frontEnd
  guests : gate'.guests = gate.guests
  forwarded : gate'.forwarded = gate.forwarded ++ part

section Passes

variable {gate gate' gate'' : GateServer} {part more : List (ChannelPtr × List UInt8)}

theorem Passes.refl (gate : GateServer) : Passes gate gate [] :=
  ⟨rfl, rfl, rfl, (List.append_nil _).symm⟩

theorem Passes.trans (h : Passes gate gate' part) (h' : Passes gate' gate'' more) :
    Passes gate gate'' (part ++ more) where
  backEnd := h'.backEnd.trans h.backEnd
  frontEnd := h'.frontEnd.trans h.frontEnd
  guests := h'.guests.trans h.guests
  forwarded := by rw [h'.forwarded, h.forwarded, List.append_assoc]

theorem Passes.writtenTo (h : Passes gate gate' part) (ptr : ChannelPtr) :
    writtenTo ptr gate gate' = (Fifo.sentTo ptr part).flatten := by
  rw [ClientRelay.writtenTo, h.forwarded, List.drop_left]

/-- Writing to a connected channel. -/
theorem passes_write (gate : GateServer) {channel : NetChannel} (h : channel.sendMsg = true)
    (ptr : ChannelPtr) (bytes : List UInt8) :
    Passes gate (gate.write channel (.bytes ptr bytes)) [(ptr, bytes)] where
  backEnd := PacketProcessor.write_backEnd ..
  frontEnd := PacketProcessor.write_frontEnd ..
  guests := rfl
  forwarded := by
    have hforwarded := Selection.forwarded_write gate.toPacketProcessor channel ptr bytes
    rwa [if_pos h] at hforwarded

/-- The handlers of a gate make no guests. -/
theorem guests_of_deliverPacket {env : Env} {packet : Dispatch}
    (h : gate.deliverPacket env packet = .ok gate') : gate'.guests = gate.guests := by
  rcases GateServer.deliverPacket_ok h with ⟨_, _, -, -, rfl⟩ | ⟨_, _, -, -, rfl⟩ |
    ⟨_, _, _, -, -, -, rfl⟩ | ⟨_, _, -, -, rfl⟩ | rfl
  · rfl
  · rfl
  · rfl
  · rw [GateServer.sendPacket2Client]
    split
    · rfl
    · rfl
  · rfl

/-- A handler of a gate forwards nothing. -/
theorem passes_deliverPacket {env : Env} {packet : Dispatch}
    (hack : ¬ PacketType.pktRegisterAck.descriptor.Named packet.packetName)
    (h : gate.deliverPacket env packet = .ok gate') :
    Passes gate gate' [] ∧ gate'.dispatched = gate.dispatched := by
  have hkept := GateServer.deliverPacket_kept hack h
  exact ⟨⟨hkept.backEnd, hkept.frontEnd, guests_of_deliverPacket h,
    hkept.forwarded.trans (List.append_nil _).symm⟩, hkept.dispatched⟩

end Passes

/-! ### A packet of a client -/

section FromClient

variable {env : Env} {gate : GateServer} {front back : NetChannel} {guest : Guest}

/-- What the requests of a client make its gate forward. -/
def relayedPart (env : Env) (guest : Guest) (rs : List Request) : List (ChannelPtr × List UInt8) :=
  (rs.filter Request.ForOthers).map fun r =>
    (.backEnd, (r.relayed guest).frame env.adler32 env.host)

theorem relayedPart_append (env : Env) (guest : Guest) (rs more : List Request) :
    relayedPart env guest (rs ++ more) = relayedPart env guest rs ++ relayedPart env guest more := by
  rw [relayedPart, List.filter_append, List.map_append]
  rfl

theorem sentTo_relayedPart (env : Env) (guest : Guest) (rs : List Request) :
    (Fifo.sentTo .backEnd (relayedPart env guest rs)).flatten =
      Sent.wire env.adler32 env.host
        ((rs.filter Request.ForOthers).map (Request.relayed guest)) := by
  have hmap : relayedPart env guest rs =
      (((rs.filter Request.ForOthers).map (Request.relayed guest)).map
        (Sent.frame env.adler32 env.host)).map fun bytes => (.backEnd, bytes) := by
    simp [relayedPart, Function.comp_def]
  rw [hmap, Fifo.sentTo_map, if_pos rfl, Sent.wire]

variable (hguest : gate.guests front.getPeerInfo = some guest)
include hguest

/-- A request for the gate itself goes to a handler. -/
theorem gate_own {r : Request} (hr : r.Sendable)
    (hack : ¬ PacketType.pktRegisterAck.descriptor.Named r.msg.name) (hown : ¬ r.ForOthers) :
    Outcome.Ends (fun gate' => Passes gate gate' [] ∧ gate'.dispatched = gate.dispatched)
      (fun _ => ¬ (env.build = .release ∧ gate.backEnd.isSome))
      (ClientPackets.gateFn env front gate (.c (.ofClientFrame env.heap (r.frame env.adler32)))) := by
  have hmax := ClientLogin.payload_length_le hr.1 hr.2
  have htype : PeerInfo.getPeerType (clientDest (r.frame env.adler32)) = .gateserver :=
    r.getPeerType_clientDest.trans (not_not.mp hown)
  have hguest' : gate.toGate.guests front.getPeerInfo = some guest := hguest
  obtain ⟨buffer, ptr, hpacket, -⟩ := ClientLogin.gatePacket_clientRow env front guest
    (PeerInfo.serialize { peerType := r.peerType }) hr.1 (by omega)
  have hforward : ClientPackets.gateFn env front gate
      (.c (.ofClientFrame env.heap (r.frame env.adler32))) =
        (ClientPackets.gatePacket env front guest (r.frame env.adler32) >>= fun packet =>
          gate.deliverPacket env packet) := by
    rw [ClientPackets.gateFn, GateServer.forwardPacketOnFrontEnd,
      Gate.forwardPacketOnFrontEnd_own env.build env.heap env.host r.ten_le_length hguest' htype]
    simp only [ClientPackets.gatePacket, bind_assoc, ok_bind, List.foldlM_cons, List.foldlM_nil,
      GateServer.perform, bind_pure]
  rw [hforward, Request.frame, hpacket, ok_bind]
  cases hdeliver : gate.deliverPacket env
      (front.onMessage guest.ownerInfo r.msg.name buffer ptr r.msg.body.length) with
  | ok gate' => exact passes_deliverPacket hack hdeliver
  | error e =>
    rintro ⟨hbuild, hsome⟩
    obtain ⟨back, hback⟩ := Option.isSome_iff_exists.mp hsome
    obtain ⟨gate', hok⟩ := GateServer.deliverPacket_release hbuild
      (front.onMessage guest.ownerInfo r.msg.name buffer ptr r.msg.body.length) hback
    cases hdeliver.symm.trans hok

variable (hback : gate.backEnd = some back) (hsend : back.sendMsg = true)
include hback hsend

/-- A request for another server is passed on to the center. -/
theorem gate_forOthers {r : Request} (hothers : r.ForOthers) :
    ClientPackets.gateFn env front gate (.c (.ofClientFrame env.heap (r.frame env.adler32))) =
      .ok (gate.write back (.bytes .backEnd ((r.relayed guest).frame env.adler32 env.host))) := by
  have htype : PeerInfo.getPeerType (clientDest (r.frame env.adler32)) = r.peerType :=
    r.getPeerType_clientDest
  have hguest' : gate.toGate.guests front.getPeerInfo = some guest := hguest
  have hback' : gate.toGate.backEnd = some back := hback
  rw [ClientPackets.gateFn, GateServer.forwardPacketOnFrontEnd,
    Gate.forwardPacketOnFrontEnd_relay env.build env.heap env.host r.ten_le_length hguest'
      (htype ▸ hothers), hback', ok_bind, htype, relayedRow_frame]
  simp only [hsend, if_true, List.foldlM_cons, List.foldlM_nil, GateServer.perform, ok_bind,
    GateServer.write, PacketProcessor.write, pure_eq_ok]

/-- One request of a client. -/
theorem gate_request {r : Request} (hr : r.Sendable)
    (hack : ¬ PacketType.pktRegisterAck.descriptor.Named r.msg.name) :
    Outcome.Ends (fun gate' => Passes gate gate' (relayedPart env guest [r]) ∧
        gate'.dispatched = gate.dispatched)
      (fun _ => env.build ≠ .release)
      (ClientPackets.gateFn env front gate (.c (.ofClientFrame env.heap (r.frame env.adler32)))) := by
  by_cases hothers : r.ForOthers
  · have hpart : relayedPart env guest [r] =
        [(.backEnd, (r.relayed guest).frame env.adler32 env.host)] := by
      simp [relayedPart, hothers]
    rw [gate_forOthers hguest hback hsend hothers, hpart]
    exact ⟨passes_write gate hsend _ _, PacketProcessor.write_dispatched ..⟩
  · have hpart : relayedPart env guest [r] = [] := by simp [relayedPart, hothers]
    rw [hpart]
    refine (gate_own hguest hr hack hothers).mono (fun _ h => h) fun _ hfail hbuild => ?_
    exact hfail ⟨hbuild, by rw [hback]; rfl⟩

/-- The requests of a client that have arrived together. -/
theorem front_batch (overread : Packet → Packet × Bool) {rs : List Request}
    (hrs : ∀ r ∈ rs, r.Sendable ∧ ¬ PacketType.pktRegisterAck.descriptor.Named r.msg.name) :
    Outcome.Ends (fun gate' => Passes gate gate' (relayedPart env guest rs) ∧
        gate'.dispatched = gate.dispatched)
      (fun _ => env.build ≠ .release)
      ((((rs.map (Request.frame env.adler32)).map (Packet.ofFrame env.heap true)).filterMap
        (Packet.accepted env.adler32 overread)).foldlM (ClientPackets.gateFn env front) gate) := by
  induction rs generalizing gate with
  | nil => exact ⟨.refl gate, rfl⟩
  | cons r rs ih =>
    obtain ⟨⟨hr, hack⟩, hrs⟩ := List.forall_mem_cons.mp hrs
    obtain ⟨-, hvalid, -⟩ := hr.frame_accepted env.adler32 env.heap
    rw [List.map_cons, List.map_cons,
      List.filterMap_cons_some (Packet.accepted_client env.heap overread hvalid), List.foldlM_cons]
    refine (gate_request hguest hback hsend hr hack).bind ?_
    rintro gate₁ ⟨hpasses, hlog⟩
    have hguest₁ : gate₁.guests front.getPeerInfo = some guest := by
      rw [hpasses.guests]
      exact hguest
    refine (ih hguest₁ (hpasses.backEnd.trans hback) hrs).mono ?_ fun _ h => h
    rintro gate' ⟨hpasses', hlog'⟩
    have hcons : relayedPart env guest (r :: rs) =
        relayedPart env guest [r] ++ relayedPart env guest rs := relayedPart_append env guest [r] rs
    rw [hcons]
    exact ⟨hpasses.trans hpasses', hlog'.trans hlog⟩

end FromClient

/-! ### A packet from the center -/

/-- What a gate forwards for some packets to those of its clients that are connected: to each the
    packets with its address. -/
def ForClients (env : Env) (gate : GateServer) (j : UInt16) (ms : List (Option UInt16 × Sent))
    (part : List (ChannelPtr × List UInt8)) : Prop :=
  ∀ k channel, gate.frontEnd.getChannel k = some channel → channel.sendMsg = true →
    Fifo.sentTo (.frontEnd k) part = (ms.filter fun m => m.2.destInfo = clientInfo j k).map
      fun m => m.2.told.frame env.adler32

section FromCenter

variable {env : Env} {gate gate' : GateServer} {j : UInt16} {m : Option UInt16 × Sent}

/-- A packet for nobody among the clients. -/
theorem forClients_nil (h : ∀ k, m.2.destInfo ≠ clientInfo j k) : ForClients env gate j [m] [] := by
  intro k _ _ _
  simp [Fifo.sentTo, h k]

theorem forClients_client {k : UInt16} (h : m.2.destInfo = clientInfo j k) :
    ForClients env gate j [m] [(.frontEnd k, m.2.told.frame env.adler32)] := by
  intro k' _ _ _
  by_cases hk : k = k'
  · subst hk
    simp [Fifo.sentTo, h]
  · have hne : clientInfo j k ≠ clientInfo j k' := fun heq => hk (clientInfo_inj heq)
    simp [Fifo.sentTo, h, hk, hne]

/-- A client that is not connected. -/
theorem forClients_gone {k : UInt16} (h : m.2.destInfo = clientInfo j k)
    (hgone : ∀ channel, gate.frontEnd.getChannel k = some channel → channel.sendMsg = false) :
    ForClients env gate j [m] [] := by
  intro k' channel hfound hsend
  have hne : clientInfo j k ≠ clientInfo j k' := by
    intro heq
    rw [← clientInfo_inj heq] at hfound
    exact Bool.false_ne_true ((hgone channel hfound).symm.trans hsend)
  simp [Fifo.sentTo, h, hne]

/-- Handing a packet on forwards nothing. -/
theorem passes_handOn {ptr : ChannelPtr} {packet : Dispatch}
    (hack : ¬ PacketType.pktRegisterAck.descriptor.Named packet.packetName)
    (h : GateServer.deliverPacket env packet
      { gate with dispatched := gate.dispatched ++ [(ptr, packet)] } = .ok gate') :
    Passes gate gate' [] := by
  obtain ⟨hpasses, -⟩ := passes_deliverPacket hack h
  exact ⟨hpasses.backEnd, hpasses.frontEnd, hpasses.guests, hpasses.forwarded⟩

/-- One packet from the center. -/
theorem gate_packetOf (hreg : gate.RegisteredAt j) (hs : m.2.Sendable)
    (hack : ¬ PacketType.pktRegisterAck.descriptor.Named m.2.msg.name)
    (h : gate.forwardPacketOnBackEnd env.build env.host (GateServer.deliverPacket env)
      (m.2.received env.adler32 env.host) = .ok gate') :
    ∃ part, Passes gate gate' part ∧ ForClients env gate j [m] part := by
  obtain ⟨-, -, hcarries⟩ := hs.received_carries env.adler32 env.host
  obtain ⟨back, hback, hinfo⟩ := hreg.backEnd
  rw [Cluster.GateServer.forwardPacketOnBackEnd_oneDest gate (hcarries.dests env.build)] at h
  -- the entry is the gate itself, one of its guests, one of its clients, or nobody it knows
  by_cases hown : m.2.destInfo = regInfo .gateserver j
  · obtain ⟨packet, hpacket, -, hpacketCarries⟩ := Center.dispatchLocal_carries back hcarries
    rw [← hpacketCarries.packetName] at hack
    rw [hown, GateServer.forwardDest_regInfo hback hinfo, hpacket, ok_bind] at h
    refine ⟨[], passes_handOn hack h, forClients_nil fun k heq => ?_⟩
    exact clientInfo_ne (getPeerType_regInfo .gateserver j) (heq.symm.trans hown)
  by_cases hguest : ∃ k, m.2.destInfo = guestInfo j k
  · obtain ⟨k, hk⟩ := hguest
    have hother : ∀ k, m.2.destInfo ≠ clientInfo j k := fun k' heq =>
      clientInfo_ne (getPeerType_guestInfo j k) (heq.symm.trans hk)
    rw [hk] at h
    rcases Option.eq_none_or_eq_some (gate.frontEnd.getChannel k) with hgone | ⟨channel, hfound⟩
    · rw [GateServer.forwardDest_guestInfo_none hback hinfo hreg.pos hreg.lt hgone, hcarries.name,
        ok_bind] at h
      cases h
      exact ⟨[], .refl gate, forClients_nil hother⟩
    · obtain ⟨packet, hpacket, -, hpacketCarries⟩ := Center.dispatchLocal_carries channel hcarries
      rw [← hpacketCarries.packetName] at hack
      rw [GateServer.forwardDest_guestInfo hback hinfo hreg.pos hreg.lt hfound, hpacket, ok_bind] at h
      exact ⟨[], passes_handOn hack h, forClients_nil hother⟩
  by_cases hclient : ∃ k, m.2.destInfo = clientInfo j k
  · obtain ⟨k, hk⟩ := hclient
    rw [hk, GateServer.forwardDest_clientInfo hback hinfo hreg.lt] at h
    split at h
    · next hgone =>
      cases h
      exact ⟨[], .refl gate, forClients_gone hk fun _ hfound => nomatch hgone.symm.trans hfound⟩
    · next channel hfound =>
      split at h
      · next hsend =>
        rw [read_frame hs, ok_bind] at h
        cases h
        exact ⟨_, passes_write gate hsend _ _, forClients_client hk⟩
      · next hsend =>
        cases h
        refine ⟨[], .refl gate, forClients_gone hk fun channel' hfound' => ?_⟩
        cases hfound.symm.trans hfound'
        exact Bool.eq_false_iff.mpr hsend
  · have hguest' : ∀ k, m.2.destInfo ≠ guestInfo j k := fun k heq => hguest ⟨k, heq⟩
    have hclient' : ∀ k, m.2.destInfo ≠ clientInfo j k := fun k heq => hclient ⟨k, heq⟩
    rw [GateServer.forwardDest_nobody hback hinfo hreg.lt hown hguest' hclient'] at h
    obtain ⟨_, -, h⟩ := bind_eq_ok.mp h
    cases h
    exact ⟨[], .refl gate, forClients_nil hclient'⟩

/-- The packets from the center that have arrived together. -/
theorem node_batch (hreg : gate.RegisteredAt j) {ms : List (Option UInt16 × Sent)}
    (hms : ∀ m ∈ ms, m.2.Sendable ∧ ¬ PacketType.pktRegisterAck.descriptor.Named m.2.msg.name)
    {node' : Node}
    (h : (ms.map fun m => Cluster.packetOf env.adler32 env.host m.2).foldlM
      (Node.forwardPacketOnBackEnd env.build env.host (Handlers.ofEnv env)) (.gate gate) =
        .ok node') :
    ∃ gate' part, node' = .gate gate' ∧ Passes gate gate' part ∧ ForClients env gate j ms part := by
  induction ms generalizing gate with
  | nil =>
    cases h
    exact ⟨gate, [], rfl, .refl gate, fun _ _ _ _ => rfl⟩
  | cons m ms ih =>
    obtain ⟨⟨hs, hack⟩, hms⟩ := List.forall_mem_cons.mp hms
    rw [List.map_cons, List.foldlM_cons] at h
    obtain ⟨node₁, hturn, hrest⟩ := bind_eq_ok.mp h
    obtain ⟨gate₁, hgate₁, hnode₁⟩ := bind_eq_ok.mp hturn
    cases hnode₁
    obtain ⟨part, hpasses, hpart⟩ := gate_packetOf hreg hs hack hgate₁
    have hreg₁ : gate₁.RegisteredAt j := ⟨hreg.pos, hreg.lt, by
      rw [hpasses.backEnd]
      exact hreg.backEnd⟩
    obtain ⟨gate', more, rfl, hpasses', hmore⟩ := ih hreg₁ hms hrest
    refine ⟨gate', part ++ more, rfl, hpasses.trans hpasses', fun k channel hfound hsend => ?_⟩
    have hfound₁ : gate₁.frontEnd.getChannel k = some channel := by
      rw [hpasses.frontEnd]
      exact hfound
    rw [Fifo.sentTo_append, hpart k channel hfound hsend, hmore k channel hfound₁ hsend,
      ← List.map_append, ← List.filter_append]
    rfl

end FromCenter

end ClientRelay

end TerraX
