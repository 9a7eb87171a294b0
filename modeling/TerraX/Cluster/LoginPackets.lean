import TerraX.Cluster.Arrivals
import TerraX.Cluster.Login

/-!
# What the packets of a login make the servers do

A frame of a client makes its gate send at most one packet to the center: a request if the frame is a
login, or the frame itself as a row. A request makes the center send at most one answer, and an
answer makes the gate send at most one role list. This file says so for one packet and for several,
down to the bytes in the streams between gates and center.

## Main definitions

- `Login.UpFrame`, `Login.Asks` — the frames from a gate to the center, and those that ask for a
  guest
- `Login.Sends` — a gate has written some outputs, and nothing else has changed that matters here
- `Login.ClientSends` — what a frame of a client makes its gate send
- `Login.Uplinked` — what is written to the stream for the center

## Main results

- `Login.center_frames`, `Login.gate_acks`, `Login.gate_client` — what packets make a server send
- `Login.foldlM_centerWrites`, `Login.ClientSends.queued` — what this adds to the streams
-/

namespace TerraX

open Bytes Memory Framing

namespace Login

/-! ### Frames for the center -/

/-- A frame that a gate has written to the center: its owner is a guest of this gate, and its one
    destination is the center, for which it is no registration in a release build, or unknown. -/
def UpFrame (env : Env) (g : UInt16) (f : List UInt8) : Prop :=
  ∃ pktS dest k, (PacketS.ofFrame f).isValid env.adler32 = .ok (pktS, true) ∧
    pktS.destinations env.build env.host = .ok [dest] ∧ pktS.getOwnerInfo = .ok (guestInfo g k) ∧
    ((PeerInfo.getPeerType dest = .centerserver ∧ ∀ channel packet,
      Center.dispatchLocal channel pktS = .ok packet → env.build = .release →
        ¬ packet.Holds env .pktRegisterReq ()) ∨ dest = 0)

/-- A frame that asks the center for a guest. -/
def Asks (env : Env) (guestId : Word) (f : List UInt8) : Prop :=
  ∃ pktS dest channel packet req, (PacketS.ofFrame f).isValid env.adler32 = .ok (pktS, true) ∧
    pktS.destinations env.build env.host = .ok [dest] ∧
    PeerInfo.getPeerType dest = .centerserver ∧ Center.dispatchLocal channel pktS = .ok packet ∧
    packet.Holds env .pktEnterPermissionReq req ∧ packet.ownerInfo = guestId

open Classical in
/-- How many frames ask for a guest. -/
noncomputable def asked (env : Env) (guestId : Word) (fs : List (List UInt8)) : ℕ :=
  fs.countP fun f => decide (Asks env guestId f)

section Asked

variable {env : Env} {guestId : Word} {f : List UInt8}

theorem asked_append (fs more : List (List UInt8)) :
    asked env guestId (fs ++ more) = asked env guestId fs + asked env guestId more :=
  List.countP_append

theorem asked_of_asks (h : Asks env guestId f) : asked env guestId [f] = 1 := by
  simp [asked, h]

theorem asked_of_not (h : ¬ Asks env guestId f) : asked env guestId [f] = 0 := by
  simp [asked, h]

end Asked

/-- The answer of the center for a guest. -/
def ackMsg : PacketMsg := ⟨.pktEnterPermissionAck, CheckResult.ok⟩

def ackOutput (g : UInt16) (guestId : Word) : Output :=
  .packet (.frontEnd g) guestId guestId ackMsg

def ackSent (env : Env) (guestId : Word) : Sent := ⟨guestId, guestId, env.message ackMsg⟩

section Center

variable {env : Env} {g : UInt16} {channel : NetChannel} {center center' : CenterServer}

/-- One frame at the center: it is answered if it asks for a guest, and never else. -/
theorem center_frame (hpos : 0 < g) (hlt : g.toNat < maxConnection)
    (hready : CenterReady center.frontEnd) (hchannel : center.frontEnd.getChannel g = some channel)
    {f : List UInt8} (hup : UpFrame env g f) {pktS : PacketS}
    (hvalid : (PacketS.ofFrame f).isValid env.adler32 = .ok (pktS, true))
    (h : center.forwardPacketOnFrontEnd env channel pktS = .ok center') :
    center'.frontEnd = center.frontEnd ∧
      (center'.sent = center.sent ∨ ∃ k, Asks env (guestInfo g k) f ∧
        center'.sent = center.sent ++ [ackOutput g (guestInfo g k)]) := by
  obtain ⟨pktS', dest, k, hvalid', hdests, howner, hdest⟩ := hup
  cases hvalid.symm.trans hvalid'
  rcases hdest with ⟨htype, hregister⟩ | rfl
  · rw [ClientPackets.forwardPacketOnFrontEnd_own hdests htype] at h
    obtain ⟨packet, hpacket, h⟩ := bind_eq_ok.mp h
    obtain ⟨hindex, howner', -⟩ := Center.dispatchLocal_eq_ok hpacket
    have howner : packet.ownerInfo = guestInfo g k := Except.ok.inj (howner'.symm.trans howner)
    rcases CenterServer.deliverPacket_ok h with ⟨hholds, hreq⟩ | ⟨req, hholds, rfl⟩ |
      ⟨_, infos, -, -, rfl⟩ | rfl
    · -- A guest has a peer index, so that a debug build stops at its registration.
      exfalso
      obtain ⟨hasserts, -⟩ := CenterServer.onMessagePktRegisterReq_ok hreq
      cases hbuild : env.build with
      | release => exact hregister channel packet hpacket hbuild hholds
      | debug =>
        obtain ⟨-, hindex, -⟩ := hasserts hbuild
        rw [howner, guestInfo, PeerInfo.parse_serialize] at hindex
        exact toUInt8_ne_zero hpos hlt hindex
    · have hg : packet.channelIndex = g := by
        rw [hindex, ← PeerInfo.getChannelIndex_eq]
        exact hready.index g channel hchannel
      rw [howner, hg, CenterServer.sendPacket]
      split
      · refine ⟨rfl, Or.inr ⟨k, ?_, rfl⟩⟩
        exact ⟨pktS, dest, channel, packet, req, hvalid, hdests, htype, hpacket, hholds, howner⟩
      · exact ⟨rfl, Or.inl rfl⟩
    · exact ⟨rfl, Or.inl rfl⟩
    · exact ⟨rfl, Or.inl rfl⟩
  · -- The gate did not know the center when the guest was made.
    have hconn : ¬ center.frontEnd.connected 0 := by
      rw [NetServer.connected, hready.noZero]
      exact Bool.false_ne_true
    rw [ClientPackets.forwardPacketOnFrontEnd_other hdests (show Center.hopOf 0 = some 0 from rfl),
      List.filter_cons_of_neg hconn, List.filter_nil, List.map_nil, List.append_nil] at h
    cases h
    exact ⟨rfl, Or.inl rfl⟩

/-- Several frames at the center: each answer has a frame that asks for its guest. -/
theorem center_frames (hpos : 0 < g) (hlt : g.toNat < maxConnection)
    (overread : Packet → Packet × Bool) {fs : List (List UInt8)} (hfs : ∀ f ∈ fs, UpFrame env g f)
    (hready : CenterReady center.frontEnd) (hchannel : center.frontEnd.getChannel g = some channel)
    (h : ((fs.map (Packet.ofFrame env.heap false)).filterMap
      (Packet.accepted env.adler32 overread)).foldlM (ClientPackets.centerFn env channel) center =
        .ok center') :
    center'.frontEnd = center.frontEnd ∧ ∃ ks : List UInt16,
      center'.sent = center.sent ++ ks.map (fun k => ackOutput g (guestInfo g k)) ∧
      ∀ k, ks.count k ≤ asked env (guestInfo g k) fs := by
  induction fs generalizing center with
  | nil =>
    cases h
    exact ⟨rfl, [], (List.append_nil _).symm, fun k => Nat.zero_le _⟩
  | cons f fs ih =>
    obtain ⟨hf, hfs⟩ := List.forall_mem_cons.mp hfs
    obtain ⟨pktS, dest, k₀, hvalid, hrest⟩ := hf
    have hcons : ∀ k, asked env (guestInfo g k) (f :: fs) =
        asked env (guestInfo g k) [f] + asked env (guestInfo g k) fs := fun k => asked_append [f] fs
    rw [List.map_cons, List.filterMap_cons_some (Packet.accepted_server env.heap overread hvalid),
      List.foldlM_cons] at h
    obtain ⟨center₁, hfirst, h⟩ := bind_eq_ok.mp h
    obtain ⟨hfront, hsent⟩ := center_frame hpos hlt hready hchannel
      ⟨pktS, dest, k₀, hvalid, hrest⟩ hvalid hfirst
    obtain ⟨hfront', ks, hsent', hcount⟩ := ih hfs (by rwa [hfront]) (by rwa [hfront]) h
    refine ⟨hfront'.trans hfront, ?_⟩
    rcases hsent with hsent | ⟨k₁, hasks, hsent⟩
    · refine ⟨ks, by rw [hsent', hsent], fun k => ?_⟩
      rw [hcons]
      exact (hcount k).trans (Nat.le_add_left _ _)
    · refine ⟨k₁ :: ks, ?_, fun k => ?_⟩
      · rw [hsent', hsent, List.append_assoc, List.map_cons, List.singleton_append]
      · rw [hcons, List.count_cons]
        have hle := hcount k
        by_cases hk : k₁ = k
        · subst hk
          rw [asked_of_asks hasks, beq_self_eq_true, if_pos rfl]
          omega
        · rw [beq_eq_false_iff_ne.mpr hk, if_neg Bool.false_ne_true]
          omega

end Center

/-! ### The answers on their way -/

/-- The answers of the center for clients of a gate. -/
def acks (env : Env) (g : UInt16) (ks : List UInt16) : List Sent :=
  ks.map fun k => ackSent env (guestInfo g k)

theorem ackSent_sendable {env : Env} (hcompact : Compact env) (guestId : Word) :
    (ackSent env guestId).Sendable := by
  refine ⟨?_, hcompact.answer⟩
  change (ascii "PktEnterPermissionAck").length ≤ 254
  decide

theorem acks_sendable {env : Env} (hcompact : Compact env) (g : UInt16) (ks : List UInt16) :
    ∀ s ∈ acks env g ks, s.Sendable := by
  intro s hs
  obtain ⟨k, -, rfl⟩ := List.mem_map.mp hs
  exact ackSent_sendable hcompact _

/-- The center writes its answers to the channel of the gate. -/
theorem foldlM_centerWrites {env : Env} (hcompact : Compact env) (g : UInt16) (ks : List UInt16)
    (downlink : UInt16 → List UInt8) :
    (ks.map fun k => ackOutput g (guestInfo g k)).foldlM (centerWrites env) downlink =
      .ok (Function.update downlink g
        (downlink g ++ Sent.wire env.adler32 env.host (acks env g ks))) := by
  induction ks generalizing downlink with
  | nil => simp [acks, Sent.wire]
  | cons k ks ih =>
    have hsend : sendPacketByChannel env.build env.adler32 env.heap env.host (guestInfo g k)
        (guestInfo g k) (env.message ackMsg) =
          .ok (some ((ackSent env (guestInfo g k)).frame env.adler32 env.host)) :=
      (ackSent_sendable hcompact (guestInfo g k)).send_frame env.build env.adler32 env.heap env.host
    have hfirst : centerWrites env downlink (ackOutput g (guestInfo g k)) =
        .ok (Function.update downlink g (downlink g ++
          (ackSent env (guestInfo g k)).frame env.adler32 env.host)) := by
      simp only [centerWrites, ackOutput, channelOf, bytesOf, hsend, ok_bind, pure_eq_ok,
        Option.getD_some]
    rw [List.map_cons, List.foldlM_cons, hfirst, ok_bind, ih, Function.update_self,
      Function.update_idem, List.append_assoc]
    rfl

/-! ### At a gate -/

/-- A gate has written the given outputs, and has the same clients and guests as before. -/
structure Sends (gate gate' : GateServer) (out : List Output) : Prop where
  guests : gate'.guests = gate.guests
  frontEnd : gate'.frontEnd = gate.frontEnd
  sent : gate'.sent = gate.sent ++ out

theorem Sends.refl (gate : GateServer) : Sends gate gate [] := ⟨rfl, rfl, (List.append_nil _).symm⟩

theorem Sends.trans {gate gate' gate'' : GateServer} {out more : List Output}
    (h : Sends gate gate' out) (h' : Sends gate' gate'' more) : Sends gate gate'' (out ++ more) where
  guests := h'.guests.trans h.guests
  frontEnd := h'.frontEnd.trans h.frontEnd
  sent := by rw [h'.sent, h.sent, List.append_assoc]

theorem Sends.drop {gate gate' : GateServer} {out : List Output} (h : Sends gate gate' out) :
    gate'.sent.drop gate.sent.length = out := by
  rw [h.sent, List.drop_left]

/-- Writing to a channel sends at most the one output. -/
theorem sends_write (gate : GateServer) (channel : NetChannel) (output : Output) :
    Sends gate (gate.write channel output) (if channel.sendMsg then [output] else []) where
  guests := rfl
  frontEnd := PacketProcessor.write_frontEnd ..
  sent := by
    rw [GateServer.write, PacketProcessor.write_sent]
    split
    · rfl
    · rw [List.append_nil]

/-- The role list for a guest. -/
def roleListOutput (guestId : Word) : Output :=
  .clientPacket (PeerInfo.getChannelIndex guestId) guestId
    ⟨.pktRoleListAck, (⟨[ascii "Dolores", ascii "Teddy", ascii "Arnold"]⟩ : PktRoleListAck)⟩

section Gate

variable {env : Env} {gate gate' : GateServer} {guestId : Word}

/-- An answer makes the gate send at most one role list, to the client of the guest. -/
theorem deliver_ack {packet : Dispatch} (hname : packet.packetName = ackMsg.type.descriptor.name)
    (howner : packet.ownerInfo = guestId) (h : gate.deliverPacket env packet = .ok gate') :
    ∃ out, Sends gate gate' out ∧ (out = [] ∨ out = [roleListOutput guestId]) := by
  have hnamed : PacketType.pktEnterPermissionAck.descriptor.Named packet.packetName :=
    Or.inl hname.symm
  have hother : ∀ {t : PacketType} {msg : t.Fields}, packet.Holds env t msg →
      PacketType.pktEnterPermissionAck = t := fun hholds => PacketType.eq_of_named hnamed hholds.1
  rcases GateServer.deliverPacket_ok h with ⟨_, _, hholds, -⟩ | ⟨_, _, hholds, -⟩ |
    ⟨_, _, _, hholds, -⟩ | ⟨_, _, -, -, rfl⟩ | rfl
  · exact nomatch hother hholds
  · exact nomatch hother hholds
  · exact nomatch hother hholds
  · rw [howner, GateServer.sendPacket2Client]
    split
    · exact ⟨[], .refl gate, Or.inl rfl⟩
    · next channel _ =>
      refine ⟨_, sends_write gate channel (roleListOutput guestId), ?_⟩
      split
      · exact Or.inr rfl
      · exact Or.inl rfl
  · exact ⟨[], .refl _, Or.inl rfl⟩

/-- One answer at the gate. -/
theorem gate_ack (htype : PeerInfo.getPeerType guestId = .gateserver) {pktS : PacketS}
    (hcarries : pktS.Carries env.host (env.message ackMsg) guestId [guestId])
    (h : gate.forwardPacketOnBackEnd env.build env.host (GateServer.deliverPacket env) pktS =
      .ok gate') :
    ∃ out, Sends gate gate' out ∧ (out = [] ∨ out = [roleListOutput guestId]) := by
  have honMessage : ∀ (ptr : ChannelPtr) (channel : NetChannel),
      GateServer.onMessage (GateServer.deliverPacket env) ptr channel
        (env.message ackMsg).name pktS gate = .ok gate' →
      ∃ out, Sends gate gate' out ∧ (out = [] ∨ out = [roleListOutput guestId]) := by
    intro ptr channel h
    obtain ⟨packet, hpacket, h⟩ := bind_eq_ok.mp h
    obtain ⟨owner, howner, hpacket⟩ := bind_eq_ok.mp hpacket
    obtain ⟨packetMsg, -, hpacket⟩ := bind_eq_ok.mp hpacket
    obtain ⟨msgSize, -, hpacket⟩ := bind_eq_ok.mp hpacket
    cases hpacket
    obtain ⟨out, hsends, hout⟩ :=
      deliver_ack rfl (Except.ok.inj (howner.symm.trans hcarries.owner)) h
    exact ⟨out, ⟨hsends.guests, hsends.frontEnd, hsends.sent⟩, hout⟩
  rw [GateServer.forwardPacketOnBackEnd, hcarries.dests env.build, ok_bind, List.foldlM_cons] at h
  simp only [List.foldlM_nil, bind_pure] at h
  rw [GateServer.forwardDest] at h
  split at h
  · cases h
    exact ⟨[], .refl gate, Or.inl rfl⟩
  · next back hback =>
    rw [GateServer.destName_of_eq pktS htype, hcarries.name, ok_bind] at h
    cases htarget : Gate.target back guestId with
    | backEnd =>
      rw [htarget] at h
      exact honMessage .backEnd back h
    | frontEnd c =>
      rw [htarget, GateServer.forward] at h
      split at h
      · cases h
        exact ⟨[], .refl gate, Or.inl rfl⟩
      · next channel hchannel => exact honMessage (.frontEnd c) channel h
    | client c =>
      -- A guest id has the type of the gate.
      exfalso
      rw [Gate.target, PeerInfo.parse_eq] at htarget
      dsimp only at htarget
      rw [if_pos htype] at htarget
      split at htarget
      · cases htarget
      · split at htarget <;> cases htarget
    | nobody =>
      rw [htarget] at h
      cases h
      exact ⟨[], .refl gate, Or.inl rfl⟩

/-- Several answers at the gate: each role list has an answer of its own. -/
theorem gate_acks {g : UInt16} (hcompact : Compact env) {ks : List UInt16}
    (h : ((acks env g ks).map (Cluster.packetOf env.adler32 env.host)).foldlM (backEndFn env) gate =
      .ok gate') :
    ∃ ks' : List UInt16, ks'.Sublist ks ∧
      Sends gate gate' (ks'.map fun k => roleListOutput (guestInfo g k)) := by
  induction ks generalizing gate with
  | nil =>
    cases h
    exact ⟨[], .slnil, .refl _⟩
  | cons k ks ih =>
    rw [acks, List.map_cons, List.map_cons, List.foldlM_cons] at h
    obtain ⟨gate₁, hfirst, h⟩ := bind_eq_ok.mp h
    obtain ⟨-, -, hcarries⟩ := (ackSent_sendable hcompact (guestInfo g k)).received_carries
      env.adler32 env.host
    obtain ⟨out, hsends, hout⟩ := gate_ack (getPeerType_guestInfo g k) hcarries hfirst
    obtain ⟨ks', hsub, hrest⟩ := ih h
    rcases hout with rfl | rfl
    · exact ⟨ks', hsub.cons k, hsends.trans hrest⟩
    · exact ⟨k :: ks', hsub.cons_cons k, hsends.trans hrest⟩

end Gate

/-! ### The packets of clients -/

section Client

variable {env : Env} {g k : UInt16} {gate gate' : GateServer} {front : NetChannel} {guest : Guest}
  {frame : List UInt8}

theorem ownerInfo_new (guestId centerInfo : Word) :
    (Guest.new guestId centerInfo).ownerInfo = guestId := if_pos rfl

/-- A guest that has just been made knows the center, and nobody else. -/
theorem getDestPeerInfo_new (guestId centerInfo : Word) (t : PeerType) :
    (Guest.new guestId centerInfo).getDestPeerInfo t =
      if t = .centerserver then centerInfo else 0 := by
  rw [Guest.getDestPeerInfo, Guest.new]
  dsimp only
  by_cases ht : t = .centerserver
  · subst ht
    rw [Function.update_self, if_pos rfl]
    rfl
  · rw [Function.update_of_ne ht, if_neg ht]
    rfl

/-- What the dispatcher is given of a frame of a client. -/
theorem gatePacket_ok {packet : Dispatch}
    (h : ClientPackets.gatePacket env front guest frame = .ok packet) (hlen : 6 ≤ frame.length)
    (hmax : frame.length ≤ maxPacketSize) :
    packet.ownerInfo = guest.ownerInfo ∧ packet.msgSize ≤ frame.length := by
  obtain ⟨pktC, hpktC, h⟩ := bind_eq_ok.mp h
  obtain ⟨buffer, -, hpktC⟩ := bind_eq_ok.mp hpktC
  cases hpktC
  obtain ⟨name, -, h⟩ := bind_eq_ok.mp h
  obtain ⟨packetMsg, -, h⟩ := bind_eq_ok.mp h
  obtain ⟨msgSize, hsize, h⟩ := bind_eq_ok.mp h
  cases h
  have hle : msgSize ≤ (frame.length : ℤ) - 6 := by
    refine msgSizeAt_le ?_ ?_ hsize
    · omega
    · unfold maxPacketSize at hmax
      omega
  refine ⟨rfl, ?_⟩
  change msgSize ≤ frame.length
  omega

/-- What a frame of a client makes its gate send: nothing, a request for the guest of the client if
    the frame is a login, or the row of the frame. -/
inductive ClientSends (env : Env) (guestId : Word) (front : NetChannel) (guest : Guest)
    (frame : List UInt8) : List Output → Prop
  | nothing : ClientSends env guestId front guest frame []
  | request (dest : Word) (req : PktEnterPermissionReq) :
      isLogin env front guest frame = true →
      PeerInfo.getPeerType dest = .centerserver ∨ dest = 0 →
      (env.serialize ⟨.pktEnterPermissionReq, req⟩).length ≤ maxPacketSize →
      ClientSends env guestId front guest frame
        [.packet .backEnd dest guestId ⟨.pktEnterPermissionReq, req⟩]
  | relayed :
      PeerInfo.getPeerType (clientDest frame) ≠ .gateserver →
      (PacketC.ofClientFrame env.heap frame).isValid env.adler32 = .ok true →
      ClientSends env guestId front guest frame
        [.bytes .backEnd
          (relayedRow env.host frame guest.ownerInfo (ClientPackets.destOf guest frame))]

/-- A packet of a client for its gate, which is no answer. -/
theorem deliver_client (hcompact : Compact env) (hready : GateReady g gate) {packet : Dispatch}
    {guestId : Word} (howner : packet.ownerInfo = guestId) (hsize : packet.msgSize ≤ maxPacketSize)
    (hack : ∀ result, ¬ packet.Holds env .pktEnterPermissionAck result)
    (hlogin : ∀ pkt, packet.Holds env .pktGameLoginReq pkt → isLogin env front guest frame = true)
    (h : gate.deliverPacket env packet = .ok gate') :
    ∃ out, Sends gate gate' out ∧ ClientSends env guestId front guest frame out := by
  subst howner
  rcases GateServer.deliverPacket_ok h with ⟨_, _, -, -, rfl⟩ | ⟨_, _, -, -, rfl⟩ |
    ⟨pkt, guest', back, hholds, hguest', -, rfl⟩ | ⟨result, _, hholds, -, -⟩ | rfl
  · exact ⟨[], ⟨rfl, rfl, (List.append_nil _).symm⟩, .nothing⟩
  · exact ⟨[], ⟨rfl, rfl, (List.append_nil _).symm⟩, .nothing⟩
  · refine ⟨_, sends_write gate back _, ?_⟩
    split
    · obtain ⟨centerInfo, rfl, hcenter⟩ := hready.guests _ _ hguest'
      rw [getDestPeerInfo_new, if_pos rfl]
      refine .request centerInfo ⟨pkt.accountName, pkt.sessionKey⟩ (hlogin pkt hholds) hcenter ?_
      have hbody := hcompact.request _ _ _ _ hholds.2
      omega
    · exact .nothing
  · exact absurd hholds (hack result)
  · exact ⟨[], .refl _, .nothing⟩

/-- A packet of a client at its gate. -/
theorem gate_client (hcompact : Compact env) (overread : Packet → Packet × Bool)
    (hready : GateReady g gate) (hfront : gate.frontEnd.getChannel k = some front)
    (hguest : gate.guests front.getPeerInfo = some guest) (hframe : IsFrame frame)
    (hchecked : ∃ valid, (PacketC.ofClientFrame env.heap frame).isValid env.adler32 = .ok valid)
    (hunforged : UnforgedFrame env front guest frame)
    (h : ClientPackets.atGate env overread front gate frame = .ok gate') :
    ∃ out, Sends gate gate' out ∧ ClientSends env (guestInfo g k) front guest frame out := by
  obtain ⟨valid, hvalid⟩ := hchecked
  cases valid with
  | false =>
    rw [ClientPackets.atGate_invalid overread hframe hvalid] at h
    cases eq_of_check h
    exact ⟨[], .refl _, .nothing⟩
  | true =>
    have hunforged := hunforged hvalid
    -- a packet for the gate is handled there, every other one is relayed
    by_cases htype : PeerInfo.getPeerType (clientDest frame) = .gateserver
    · obtain ⟨centerInfo, hnew, -⟩ := hready.guests _ _ hguest
      rw [if_pos htype] at hunforged
      rw [ClientPackets.atGate_own overread hframe hvalid hguest htype] at h
      obtain ⟨-, -, h⟩ := bind_eq_ok.mp h
      obtain ⟨packet, hpacket, h⟩ := bind_eq_ok.mp h
      obtain ⟨h10, -⟩ :=
        (PacketC.ofClientFrame_isValid_iff env.adler32 env.heap hframe.2.1).mp hvalid
      obtain ⟨howner, hsize⟩ := gatePacket_ok hpacket (by omega) hframe.2.1
      rw [hnew, ownerInfo_new, hready.channels k front hfront] at howner
      have hmax := hframe.2.1
      refine deliver_client hcompact hready howner (by omega) (hunforged packet hpacket) ?_ h
      rintro pkt ⟨hnamed, hparse⟩
      simp [isLogin, hvalid, hpacket, htype, hnamed, hparse]
    · cases hback : gate.backEnd with
      | none =>
        rw [ClientPackets.atGate_relay_none overread hframe hvalid hguest htype hback] at h
        cases eq_of_check h
        exact ⟨[], .refl _, .nothing⟩
      | some back =>
        rw [ClientPackets.atGate_relay overread hframe hvalid hguest htype hback] at h
        cases eq_of_check h
        refine ⟨_, sends_write gate back _, ?_⟩
        split
        · exact .relayed htype hvalid
        · exact .nothing

end Client

/-! ### What reaches the stream to the center -/

section Uplink

variable {env : Env} {g k : UInt16} {front : NetChannel} {guest : Guest} {frame : List UInt8}

/-- A row whose size does not fit a packet blocks the stream. -/
theorem blocked_serverLayout {n : ℕ} (hn : maxPacketSize < n) (hlt : n < 256 ^ 2)
    (data owner payload sum dests : List UInt8) :
    packetSplitter.Blocked (serverLayout (encodeBE 2 n) data owner payload sum dests) := by
  have htake : (serverLayout (encodeBE 2 n) data owner payload sum dests).take 2 = encodeBE 2 n :=
    List.take_left' (encodeBE_length _ _)
  refine packetSplitter_blocked ?_ ?_
  · rw [serverLayout, List.length_append, encodeBE_length]
    omega
  · rwa [htake, decodeBE_encodeBE_of_lt hlt]

/-- What is written to the stream for the center: a frame of which at most the given number asks
    for each guest, or something that blocks the stream. -/
structure Uplinked (env : Env) (g : UInt16) (f : List UInt8) (count : Word → ℕ) : Prop where
  cut : packetSplitter.IsFrame f ∨ packetSplitter.Blocked f
  up : packetSplitter.IsFrame f → UpFrame env g f
  asks : packetSplitter.IsFrame f → ∀ guestId, asked env guestId [f] ≤ count guestId

theorem uplinked_of_blocked {f : List UInt8} (h : packetSplitter.Blocked f) (count : Word → ℕ) :
    Uplinked env g f count := by
  have hno : ¬ packetSplitter.IsFrame f := by
    intro hf
    have hnone := h []
    rw [List.append_nil, hf] at hnone
    cases hnone
  exact ⟨Or.inr h, fun hf => absurd hf hno, fun hf => absurd hf hno⟩

/-- A debug build sends no body that is too long for the packet. -/
theorem body_le_of_send {destInfo ownerInfo : Word} {msg : Message} {bytes : Option (List UInt8)}
    (h : sendPacketByChannel env.build env.adler32 env.heap env.host destInfo ownerInfo msg =
      .ok bytes) : env.build = .debug → msg.body.length ≤ maxMsgSize := by
  obtain ⟨pkt, hpkt, -⟩ := bind_eq_ok.mp h
  obtain ⟨_, hcheck, -⟩ := bind_eq_ok.mp hpkt
  exact check_ok_iff.mp hcheck

/-- A request of the gate. -/
theorem uplinked_request {dest : Word} {req : PktEnterPermissionReq}
    (hdest : PeerInfo.getPeerType dest = .centerserver ∨ dest = 0)
    (hbody : (env.serialize ⟨.pktEnterPermissionReq, req⟩).length ≤ maxPacketSize)
    {bytes : List UInt8}
    (h : bytesOf env (.packet .backEnd dest (guestInfo g k) ⟨.pktEnterPermissionReq, req⟩) =
      .ok bytes) :
    Uplinked env g bytes fun guestId =>
      [Output.packet .backEnd dest (guestInfo g k) ⟨.pktEnterPermissionReq, req⟩].countP
        (isRequest guestId) := by
  let msg : Message := env.message ⟨.pktEnterPermissionReq, req⟩
  have hname : msg.name.length = 21 := by
    change (ascii "PktEnterPermissionReq").length = 21
    decide
  have hlen : msg.payload.length ≤ maxPacketSize + 23 := by
    have hmsg : msg.body.length ≤ maxPacketSize := hbody
    rw [msg.payload_length]
    omega
  obtain ⟨sent, hsend, h⟩ := bind_eq_ok.mp h
  rw [sendPacketByChannel_eq env.build env.adler32 env.heap env.host dest (guestInfo g k)
    (by omega : msg.name.length ≤ 254) (body_le_of_send hsend)] at hsend
  cases hsend
  cases h
  rw [Option.getD_some]
  by_cases hmax : msg.payload.length + 12 + 4 * [dest].length ≤ maxPacketSize
  · obtain ⟨hframe, pktS, hvalid, hcarries⟩ := carries_serverLayout env.adler32 env.host
      (guestInfo g k) (by omega : msg.name.length ≤ 254) hmax rfl
    have hnamed : ∀ {channel packet}, Center.dispatchLocal channel pktS = .ok packet →
        packet.ownerInfo = guestInfo g k ∧
          PacketType.pktEnterPermissionReq.descriptor.Named packet.packetName := by
      intro channel packet hpacket
      obtain ⟨-, howner, hname⟩ := Center.dispatchLocal_eq_ok hpacket
      have hmsg : packet.packetName = msg.name := Except.ok.inj (hname.symm.trans hcarries.name)
      rw [hmsg]
      exact ⟨Except.ok.inj (howner.symm.trans hcarries.owner), Or.inl rfl⟩
    refine ⟨Or.inl (packetSplitter_isFrame.mpr hframe), fun _ => ?_, fun _ guestId => ?_⟩
    · refine ⟨pktS, dest, k, hvalid, hcarries.dests env.build, hcarries.owner, ?_⟩
      refine hdest.imp_left fun htype => ⟨htype, fun channel packet hpacket _ hholds => ?_⟩
      exact nomatch PacketType.eq_of_named (hnamed hpacket).2 hholds.1
    · by_cases hguest : guestInfo g k = guestId
      · subst hguest
        refine List.countP_le_length.trans ?_
        simp [isRequest]
      · rw [asked_of_not]
        · exact Nat.zero_le _
        · rintro ⟨pktS', _, channel, packet, _, hvalid', -, -, hpacket, -, howner⟩
          cases hvalid.symm.trans hvalid'
          exact hguest ((hnamed hpacket).1.symm.trans howner)
  · -- a packet that is too long is sent, but no frame is cut off from there on
    have hlt : maxPacketSize + 64 < 256 ^ 2 := by decide
    exact uplinked_of_blocked (blocked_serverLayout (by omega)
      (by simp only [List.length_singleton]; omega) _ _ _ _ _) _

/-- A row of a client that does not pretend to be a server. -/
theorem uplinked_relayed {centerInfo : Word}
    (hcenter : PeerInfo.getPeerType centerInfo = .centerserver ∨ centerInfo = 0)
    (hguest : guest = .new (guestInfo g k) centerInfo) (hframe : IsFrame frame)
    (hvalid : (PacketC.ofClientFrame env.heap frame).isValid env.adler32 = .ok true)
    (htype : PeerInfo.getPeerType (clientDest frame) ≠ .gateserver)
    (hunforged : UnforgedFrame env front guest frame) :
    Uplinked env g (relayedRow env.host frame guest.ownerInfo (ClientPackets.destOf guest frame))
      fun _ => 0 := by
  by_cases hmax : frame.length + PacketC.exDataSize ≤ maxPacketSize
  · obtain ⟨hrow, hvalid'⟩ := isValid_relayedRow env.heap env.host guest.ownerInfo
      (ClientPackets.destOf guest frame) env.adler32 hframe hmax hvalid
    have hdests := ClientPackets.destinations_relayedRow hframe hvalid hmax guest.ownerInfo
      (ClientPackets.destOf guest frame)
    have hunforged := hunforged hvalid
    rw [if_neg htype] at hunforged
    obtain ⟨h10, -⟩ := (PacketC.ofClientFrame_isValid_iff env.adler32 env.heap hframe.2.1).mp hvalid
    refine ⟨Or.inl (packetSplitter_isFrame.mpr hrow), fun _ => ?_, fun _ guestId => ?_⟩
    · refine ⟨_, ClientPackets.destOf guest frame, k, hvalid', hdests, ?_, ?_⟩
      · rw [PacketS.getOwnerInfo_serverLayout rfl (encodeBE_length _ _) (slice_length (by omega))
          (encodeBE_length _ _), ofNat_decodeBE, hguest, ownerInfo_new]
      · by_cases hdest : PeerInfo.getPeerType (ClientPackets.destOf guest frame) = .centerserver
        · exact Or.inl ⟨hdest, fun channel packet hpacket => (hunforged hdest channel packet hpacket).2⟩
        · right
          rw [ClientPackets.destOf, hguest, getDestPeerInfo_new] at hdest ⊢
          split
          · next heq =>
            rw [if_pos heq] at hdest
            exact hcenter.resolve_left hdest
          · rfl
    · refine (asked_of_not ?_).le
      rintro ⟨pktS, dest, channel, packet, req, hvalid'', hdests', hdest, hpacket, hholds, -⟩
      cases hvalid'.symm.trans hvalid''
      cases hdests.symm.trans hdests'
      exact (hunforged hdest channel packet hpacket).1 req hholds
  · have hlt : maxPacketSize + 6 < 256 ^ 2 := by decide
    have hlen := hframe.2.1
    have hex : PacketC.exDataSize = 6 := rfl
    exact uplinked_of_blocked (blocked_serverLayout (by omega) (by omega) _ _ _ _ _) _

/-- What is written becomes the last frame of the stream, if it is one. -/
theorem Uplinked.queued {fs : List (List UInt8)} {stream f : List UInt8} {count : Word → ℕ}
    (h : Uplinked env g f count) (hqueued : packetSplitter.Queued fs stream)
    (hup : ∀ f ∈ fs, UpFrame env g f) :
    ∃ fs', packetSplitter.Queued fs' (stream ++ f) ∧ (∀ f ∈ fs', UpFrame env g f) ∧
      ∀ guestId, asked env guestId fs' ≤ asked env guestId fs + count guestId := by
  rcases hqueued.append h.cut with hsame | ⟨hf, hmore⟩
  · exact ⟨fs, hsame, hup, fun guestId => Nat.le_add_right _ _⟩
  · refine ⟨fs ++ [f], hmore, ?_, fun guestId => ?_⟩
    · exact List.forall_mem_append.mpr ⟨hup, List.forall_mem_singleton.mpr (h.up hf)⟩
    · rw [asked_append]
      exact Nat.add_le_add_left (h.asks hf guestId) _

/-- What a frame of a client adds to the stream. -/
theorem ClientSends.queued {centerInfo : Word} {out : List Output}
    (hout : ClientSends env (guestInfo g k) front guest frame out)
    (hcenter : PeerInfo.getPeerType centerInfo = .centerserver ∨ centerInfo = 0)
    (hguest : guest = .new (guestInfo g k) centerInfo) (hframe : IsFrame frame)
    (hunforged : UnforgedFrame env front guest frame) {buf uplink uplink' : List UInt8}
    (hwrites : out.foldlM (gateWrites env) uplink = .ok uplink') {fs : List (List UInt8)}
    (hqueued : packetSplitter.Queued fs (buf ++ uplink)) (hup : ∀ f ∈ fs, UpFrame env g f) :
    ∃ fs', packetSplitter.Queued fs' (buf ++ uplink') ∧ (∀ f ∈ fs', UpFrame env g f) ∧
      ∀ guestId, asked env guestId fs' ≤ asked env guestId fs + out.countP (isRequest guestId) := by
  have hwritten : ∀ {output : Output} {f : List UInt8}, bytesOf env output = .ok f →
      channelOf output = .backEnd →
      [output].foldlM (gateWrites env) uplink = .ok uplink' → uplink' = uplink ++ f := by
    intro output f hbytes hchannel h
    simp only [List.foldlM_cons, List.foldlM_nil, bind_pure, gateWrites, hchannel, hbytes, ok_bind]
      at h
    exact (Except.ok.inj h).symm
  cases hout with
  | nothing =>
    cases hwrites
    exact ⟨fs, hqueued, hup, fun guestId => Nat.le_add_right _ _⟩
  | request dest req hlogin hdest hbody =>
    obtain ⟨_, hfirst, -⟩ := bind_eq_ok.mp hwrites
    obtain ⟨f, hbytes, -⟩ := bind_eq_ok.mp hfirst
    rw [hwritten hbytes rfl hwrites, ← List.append_assoc]
    exact (uplinked_request hdest hbody hbytes).queued hqueued hup
  | relayed htype hvalid =>
    rw [hwritten rfl rfl hwrites, ← List.append_assoc]
    exact (uplinked_relayed hcenter hguest hframe hvalid htype hunforged).queued hqueued hup

end Uplink

end Login

end TerraX
