import TerraX.Cluster.GuestRouting
import TerraX.WorldServer.PacketProcessorWorld

/-!
# What the handlers of gates and world servers keep

The handlers run inside the loops over the destinations of a packet. They leave channels and logs
alone, but that of the `PktRegisterAck` gives the back end another peer info; and what they have
accepted once they accept again.

## Main definitions

- `PacketProcessor.Kept` — what handlers leave as it is
- `GateServer.Delivers`, `WorldServer.Delivers` — a packet that can be handed to a handler
- `Selection.BackEndAt` — the back end behind the entries of a destination list

## Main results

- `GateServer.deliverPacket_keeps`, `GateServer.deliverPacket_backEnd` and those of the world
  server — what a packet changes
- `GateServer.delivers_of_run`, `WorldServer.delivers_of_run` — what can be delivered once can be
  delivered again
- `Selection.BackEndAt.test_eq_iff` — when the entries mean the same as in front of the loop
-/

namespace TerraX

open Bytes Memory

/-- The bytes that a server has forwarded, with the channels they went to. -/
def PacketProcessor.forwarded (proc : PacketProcessor) : List (ChannelPtr × List UInt8) :=
  proc.sent.filterMap fun output =>
    match output with
    | .bytes ptr bytes => some (ptr, bytes)
    | .packet .. => none
    | .clientPacket .. => none

/-- The channels are the same, and nothing was dispatched or forwarded. -/
structure PacketProcessor.Kept (proc proc' : PacketProcessor) : Prop where
  backEnd : proc'.backEnd = proc.backEnd
  frontEnd : proc'.frontEnd = proc.frontEnd
  dispatched : proc'.dispatched = proc.dispatched
  forwarded : proc'.forwarded = proc.forwarded

theorem PacketProcessor.Kept.refl (proc : PacketProcessor) : proc.Kept proc := ⟨rfl, rfl, rfl, rfl⟩

/-! ### What the handlers of gate and world server keep -/

/-- Writing a packet of its own forwards nothing. -/
theorem PacketProcessor.kept_write (proc : PacketProcessor) (channel : NetChannel)
    {output : Output} (h : ∀ ptr bytes, output ≠ .bytes ptr bytes) :
    proc.Kept (proc.write channel output) := by
  refine ⟨write_backEnd .., write_frontEnd .., write_dispatched .., ?_⟩
  rw [forwarded, write_sent]
  split
  · cases output with
    | packet => simp [forwarded]
    | clientPacket => simp [forwarded]
    | bytes ptr bytes => exact absurd rfl (h ptr bytes)
  · rfl

theorem PacketProcessor.kept_write_packet (proc : PacketProcessor) (channel : NetChannel)
    (ptr : ChannelPtr) (destInfo ownerInfo : Word) (msg : PacketMsg) :
    proc.Kept (proc.write channel (.packet ptr destInfo ownerInfo msg)) :=
  proc.kept_write channel fun _ _ h => by cases h

/-- What is written to a client forwards nothing. -/
theorem GateServer.kept_sendPacket2Client (gate : GateServer) (channelIndex : UInt16) (owner : Word)
    (msg : PacketMsg) :
    gate.toPacketProcessor.Kept (gate.sendPacket2Client channelIndex owner msg).toPacketProcessor := by
  rw [sendPacket2Client]
  split
  · exact .refl _
  · exact PacketProcessor.kept_write _ _ fun _ _ h => by cases h

/-- The handlers of a gate keep its guests and, the back end apart, its channels and logs. -/
theorem GateServer.deliverPacket_keeps {env : Env} {packet : Dispatch} {gate gate' : GateServer}
    (h : gate.deliverPacket env packet = .ok gate') : gate'.guests = gate.guests ∧
      gate.toPacketProcessor.Kept { gate'.toPacketProcessor with backEnd := gate.backEnd } := by
  rcases deliverPacket_ok h with ⟨serverInfo, back, -, -, rfl⟩ | ⟨pkt, infos, -, -, rfl⟩ |
    ⟨pkt, guest, back, -, -, -, rfl⟩ | ⟨result, guest, -, -, rfl⟩ | rfl
  · exact ⟨rfl, rfl, rfl, rfl, rfl⟩
  · exact ⟨rfl, rfl, rfl, rfl, rfl⟩
  · have hkept := gate.toPacketProcessor.kept_write_packet back .backEnd
      (guest.getDestPeerInfo .centerserver) packet.ownerInfo ⟨.pktEnterPermissionReq,
        (⟨pkt.accountName, pkt.sessionKey⟩ : PktEnterPermissionReq)⟩
    exact ⟨rfl, rfl, hkept.frontEnd, hkept.dispatched, hkept.forwarded⟩
  · have hkept := gate.kept_sendPacket2Client (PeerInfo.getChannelIndex packet.ownerInfo)
      packet.ownerInfo ⟨.pktRoleListAck, (⟨[ascii "Dolores", ascii "Teddy", ascii "Arnold"]⟩ :
        PktRoleListAck)⟩
    refine ⟨?_, rfl, hkept.frontEnd, hkept.dispatched, hkept.forwarded⟩
    rw [sendPacket2Client]
    split <;> rfl
  · exact ⟨rfl, rfl, rfl, rfl, rfl⟩

/-- The `PktRegisterAck` gives the back end its peer info, and no other packet does. -/
theorem GateServer.deliverPacket_backEnd {env : Env} {packet : Dispatch} {gate gate' : GateServer}
    {back : NetChannel} (hback : gate.backEnd = some back)
    (h : gate.deliverPacket env packet = .ok gate') :
    (∀ serverInfo, packet.Holds env .pktRegisterAck serverInfo →
      gate'.backEnd = some (back.setPeerInfo serverInfo)) ∧
    ((∀ serverInfo, ¬ packet.Holds env .pktRegisterAck serverInfo) → gate'.backEnd = some back) := by
  constructor
  · intro serverInfo hholds
    have hrun : gate.deliverPacket env packet = onMessagePktRegisterAck serverInfo gate :=
      hholds.deliverPacket ⟨.pktRegisterAck, fun _ _ serverInfo => onMessagePktRegisterAck serverInfo⟩
        (nodup_callBacks env.build) (by simp [callBacks]) gate
    simp only [onMessagePktRegisterAck, hback] at hrun
    cases h.symm.trans hrun
    rfl
  · intro hno
    rcases deliverPacket_ok h with ⟨serverInfo, _, hholds, -, -⟩ | ⟨pkt, infos, -, -, rfl⟩ |
      ⟨pkt, guest, channel, -, -, -, rfl⟩ | ⟨result, guest, -, -, rfl⟩ | rfl
    · exact absurd hholds (hno serverInfo)
    · exact hback
    · exact (PacketProcessor.write_backEnd ..).trans hback
    · exact (gate.kept_sendPacket2Client ..).backEnd.trans hback
    · exact hback

/-- What a gate does with a packet that it hands to a handler leaves the channels and the logs as
    they are, the `PktRegisterAck` apart. -/
theorem GateServer.deliverPacket_kept {env : Env} {packet : Dispatch} {gate gate' : GateServer}
    (hack : ¬ PacketType.pktRegisterAck.descriptor.Named packet.packetName)
    (h : gate.deliverPacket env packet = .ok gate') :
    gate.toPacketProcessor.Kept gate'.toPacketProcessor := by
  rcases deliverPacket_ok h with ⟨serverInfo, _, hholds, -, -⟩ | ⟨pkt, infos, -, -, rfl⟩ |
    ⟨pkt, guest, channel, -, -, -, rfl⟩ | ⟨result, guest, -, -, rfl⟩ | rfl
  · exact absurd hholds.1 hack
  · exact .refl _
  · exact PacketProcessor.kept_write_packet ..
  · exact gate.kept_sendPacket2Client ..
  · exact .refl _

/-- What has been delivered once can be delivered again. -/
theorem GateServer.DeliverAsserts.again {env : Env} {packet : Dispatch} {gate gate' : GateServer}
    (hasserts : gate.DeliverAsserts env packet) (h : gate.deliverPacket env packet = .ok gate') :
    gate'.DeliverAsserts env packet := by
  rcases hasserts with hack | ⟨pkt, hholds, hsync⟩ | ⟨hguest, hlogin⟩
  · exact Or.inl hack
  · refine Or.inr (Or.inl ⟨pkt, hholds, ?_⟩)
    have hrun : gate.deliverPacket env packet = onMessagePktServerSync env.build pkt gate :=
      hholds.deliverPacket ⟨.pktServerSync, fun _ _ pkt => onMessagePktServerSync env.build pkt⟩
        (nodup_callBacks env.build) (by simp [callBacks]) gate
    obtain ⟨infos, hinfos, hok⟩ := bind_eq_ok.mp (hrun.symm.trans h)
    cases hok
    exact hsync.again hinfos
  · refine Or.inr (Or.inr ⟨?_, hlogin⟩)
    rwa [(deliverPacket_keeps h).1]

/-- The same of a world server. -/
theorem WorldServer.deliverPacket_keeps {env : Env} {packet : Dispatch} {world world' : WorldServer}
    (h : world.deliverPacket env packet = .ok world') :
    world.toPacketProcessor.Kept { world'.toPacketProcessor with backEnd := world.backEnd } := by
  rcases deliverPacket_ok h with ⟨serverInfo, back, -, -, rfl⟩ | ⟨pkt, infos, -, -, rfl⟩ | rfl
  · exact ⟨rfl, rfl, rfl, rfl⟩
  · exact ⟨rfl, rfl, rfl, rfl⟩
  · exact ⟨rfl, rfl, rfl, rfl⟩

theorem WorldServer.deliverPacket_backEnd {env : Env} {packet : Dispatch}
    {world world' : WorldServer} {back : NetChannel} (hback : world.backEnd = some back)
    (h : world.deliverPacket env packet = .ok world') :
    (∀ serverInfo, packet.Holds env .pktRegisterAck serverInfo →
      world'.backEnd = some (back.setPeerInfo serverInfo)) ∧
    ((∀ serverInfo, ¬ packet.Holds env .pktRegisterAck serverInfo) →
      world'.backEnd = some back) := by
  constructor
  · intro serverInfo hholds
    have hrun : world.deliverPacket env packet = onMessagePktRegisterAck serverInfo world :=
      hholds.deliverPacket ⟨.pktRegisterAck, fun _ _ serverInfo => onMessagePktRegisterAck serverInfo⟩
        (nodup_callBacks env.build) (by simp [callBacks]) world
    simp only [onMessagePktRegisterAck, hback] at hrun
    cases h.symm.trans hrun
    rfl
  · intro hno
    rcases deliverPacket_ok h with ⟨serverInfo, _, hholds, -, -⟩ | ⟨pkt, infos, -, -, rfl⟩ | rfl
    · exact absurd hholds (hno serverInfo)
    · exact hback
    · exact hback

theorem WorldServer.deliverPacket_kept {env : Env} {packet : Dispatch} {world world' : WorldServer}
    (hack : ¬ PacketType.pktRegisterAck.descriptor.Named packet.packetName)
    (h : world.deliverPacket env packet = .ok world') :
    world.toPacketProcessor.Kept world'.toPacketProcessor := by
  rcases deliverPacket_ok h with ⟨serverInfo, _, hholds, -, -⟩ | ⟨pkt, infos, -, -, rfl⟩ | rfl
  · exact absurd hholds.1 hack
  · exact .refl _
  · exact .refl _

theorem WorldServer.DeliverAsserts.again {env : Env} {packet : Dispatch}
    {world world' : WorldServer} (hasserts : world.DeliverAsserts env packet)
    (h : world.deliverPacket env packet = .ok world') : world'.DeliverAsserts env packet := by
  rcases hasserts with hack | ⟨pkt, hholds, hsync⟩
  · exact Or.inl hack
  · refine Or.inr ⟨pkt, hholds, ?_⟩
    have hrun : world.deliverPacket env packet = onMessagePktServerSync env.build pkt world :=
      hholds.deliverPacket ⟨.pktServerSync, fun _ _ pkt => onMessagePktServerSync env.build pkt⟩
        (nodup_callBacks env.build) (by simp [callBacks]) world
    obtain ⟨infos, hinfos, hok⟩ := bind_eq_ok.mp (hrun.symm.trans h)
    cases hok
    exact hsync.again hinfos

/-! ### Packets that can be delivered -/

/-- A packet can be handed to a handler of the gate: its name can be read and, in a debug build, no
    assertion of the dispatcher or of the handler fails. -/
def GateServer.Delivers (env : Env) (gate : GateServer) (pktS : PacketS) : Prop :=
  Center.NameReadable pktS ∧ (env.build = .debug → ∀ channel packet,
    Center.dispatchLocal channel pktS = .ok packet → gate.DeliverAsserts env packet)

/-- The packet is a `PktRegisterAck` with this peer info. -/
def PacketS.Acks (env : Env) (pktS : PacketS) (serverInfo : Word) : Prop :=
  ∃ channel packet, Center.dispatchLocal channel pktS = .ok packet ∧
    packet.Holds env .pktRegisterAck serverInfo

section Delivers

variable {env : Env} {pktS : PacketS} {channel : NetChannel} {packet : Dispatch}

/-- The channel on which it arrives has no part in that. -/
theorem PacketS.acks_iff (hpacket : Center.dispatchLocal channel pktS = .ok packet)
    (serverInfo : Word) : pktS.Acks env serverInfo ↔ packet.Holds env .pktRegisterAck serverInfo := by
  constructor
  · rintro ⟨channel', packet', hpacket', hholds⟩
    cases Center.dispatchLocal_congr hpacket' hpacket
    exact hholds
  · exact fun hholds => ⟨channel, packet, hpacket, hholds⟩

theorem PacketS.Acks.unique {serverInfo serverInfo' : Word} (h : pktS.Acks env serverInfo)
    (h' : pktS.Acks env serverInfo') : serverInfo = serverInfo' := by
  obtain ⟨channel, packet, hpacket, hholds⟩ := h
  exact Option.some.inj (hholds.2.symm.trans ((acks_iff hpacket serverInfo').mp h').2)

variable {s s' : GateServer} {back : NetChannel}

theorem GateServer.Delivers.deliver (h : s.Delivers env pktS) (hback : s.backEnd = some back)
    (hpacket : Center.dispatchLocal channel pktS = .ok packet) :
    ∃ s', s.deliverPacket env packet = .ok s' :=
  (deliverPacket_returns_iff env packet hback).mpr fun hb => h.2 hb channel packet hpacket

/-- What has been delivered can be delivered, before and after. -/
theorem GateServer.delivers_of_run (hlen : 9 ≤ pktS.buffer.length) (hback : s.backEnd = some back)
    (hpacket : Center.dispatchLocal channel pktS = .ok packet)
    (hrun : s.deliverPacket env packet = .ok s') : s.Delivers env pktS ∧ s'.Delivers env pktS := by
  have hname : Center.NameReadable pktS :=
    (Center.nameReadable_iff hlen).mpr ⟨_, (Center.dispatchLocal_eq_ok hpacket).2.2⟩
  have hasserts := (deliverPacket_returns_iff env packet hback).mp ⟨s', hrun⟩
  refine ⟨⟨hname, fun hb channel' packet' hpacket' => ?_⟩,
    hname, fun hb channel' packet' hpacket' => ?_⟩
  · cases Center.dispatchLocal_congr hpacket hpacket'
    exact hasserts hb
  · cases Center.dispatchLocal_congr hpacket hpacket'
    exact (hasserts hb).again hrun

end Delivers

/-- The world server can hand the packet to a handler. -/
def WorldServer.Delivers (env : Env) (world : WorldServer) (pktS : PacketS) : Prop :=
  Center.NameReadable pktS ∧ (env.build = .debug → ∀ channel packet,
    Center.dispatchLocal channel pktS = .ok packet → world.DeliverAsserts env packet)

section Delivers

variable {env : Env} {pktS : PacketS} {channel : NetChannel} {packet : Dispatch}
  {s s' : WorldServer} {back : NetChannel}

theorem WorldServer.Delivers.deliver (h : s.Delivers env pktS) (hback : s.backEnd = some back)
    (hpacket : Center.dispatchLocal channel pktS = .ok packet) :
    ∃ s', s.deliverPacket env packet = .ok s' :=
  (deliverPacket_returns_iff env packet hback).mpr fun hb => h.2 hb channel packet hpacket

theorem WorldServer.delivers_of_run (hlen : 9 ≤ pktS.buffer.length) (hback : s.backEnd = some back)
    (hpacket : Center.dispatchLocal channel pktS = .ok packet)
    (hrun : s.deliverPacket env packet = .ok s') : s.Delivers env pktS ∧ s'.Delivers env pktS := by
  have hname : Center.NameReadable pktS :=
    (Center.nameReadable_iff hlen).mpr ⟨_, (Center.dispatchLocal_eq_ok hpacket).2.2⟩
  have hasserts := (deliverPacket_returns_iff env packet hback).mp ⟨s', hrun⟩
  refine ⟨⟨hname, fun hb channel' packet' hpacket' => ?_⟩,
    hname, fun hb channel' packet' hpacket' => ?_⟩
  · cases Center.dispatchLocal_congr hpacket hpacket'
    exact hasserts hb
  · cases Center.dispatchLocal_congr hpacket hpacket'
    exact (hasserts hb).again hrun

end Delivers

namespace Selection

/-! ### The back end in the loop -/

/-- The back end of the loop: as it was in front of the loop, until a `PktRegisterAck` has been handed
    on (`done`). -/
structure BackEndAt (env : Env) (pktS : PacketS) (back : NetChannel) (done : Bool)
    (back' : NetChannel) : Prop where
  acked : ∀ serverInfo, done = true → pktS.Acks env serverInfo → back' = back.setPeerInfo serverInfo
  plain : (done = true → ∀ serverInfo, ¬ pktS.Acks env serverInfo) → back' = back

section BackEnd

variable {env : Env} {pktS : PacketS} {back back' : NetChannel} {done : Bool}

theorem BackEndAt.start : BackEndAt env pktS back false back :=
  ⟨fun _ hno => absurd hno Bool.false_ne_true, fun _ => rfl⟩

/-- A packet that is handed on. -/
theorem BackEndAt.delivered (h : BackEndAt env pktS back done back') {channel : NetChannel}
    {packet : Dispatch} (hpacket : Center.dispatchLocal channel pktS = .ok packet)
    {after : Option NetChannel}
    (hack : ∀ serverInfo, packet.Holds env .pktRegisterAck serverInfo →
      after = some (back'.setPeerInfo serverInfo))
    (hnone : (∀ serverInfo, ¬ packet.Holds env .pktRegisterAck serverInfo) → after = some back') :
    ∃ back'', after = some back'' ∧ BackEndAt env pktS back true back'' := by
  by_cases hacks : ∃ serverInfo, pktS.Acks env serverInfo
  · obtain ⟨serverInfo, hacks⟩ := hacks
    refine ⟨back'.setPeerInfo serverInfo, hack _ ((PacketS.acks_iff hpacket _).mp hacks),
      fun serverInfo' _ hacks' => ?_, fun hno => absurd hacks (hno rfl serverInfo)⟩
    cases hacks.unique hacks'
    -- the peer info is overwritten, whether this is the first time or not
    cases done with
    | true => rw [h.acked serverInfo rfl hacks]; rfl
    | false => rw [h.plain nofun]
  · have hno : ∀ serverInfo, ¬ pktS.Acks env serverInfo := fun serverInfo h => hacks ⟨_, h⟩
    exact ⟨back', hnone fun serverInfo hholds =>
      hno serverInfo ((PacketS.acks_iff hpacket serverInfo).mpr hholds),
      fun serverInfo _ h => absurd h (hno serverInfo), fun _ => h.plain fun _ => hno⟩

end BackEnd

end Selection

end TerraX
