import TerraX.GateServer.PacketProcessorGate
import TerraX.SrvLib.BackEnd
import TerraX.SrvLib.NetEvents

/-!
# The gate server as a whole

`PacketProcessor_Gate` and `GateLoginManager`: the handlers that a gate registers in its
dispatcher, those of its net events, and what it does with the packets that arrive on its
back end and from its clients. The account of a guest and the printing are left out.

## Main definitions

- `GateServer`, with `sendPacket2Client` and the handlers of messages and events
- `GateServer.forwardPacketOnBackEnd`, `GateServer.forwardPacketOnFrontEnd`
- `GateServer.DeliverAsserts` — what a debug build asserts of a packet that is delivered
- `GateServer.onConnect`, `GateServer.netEvent` — what the channels report

## Main results

- `GateServer.deliverPacket_ok` — what a packet can do at a gate
- `GateServer.deliverPacket_returns_iff` — which packets can be delivered
-/

namespace TerraX

open Memory

/-- A gate: its channels, its guests, and the servers that it knows. -/
structure GateServer extends PacketProcessor where
  guests : GuestManager := fun _ => none
  infos : ServerInfos := fun _ => none

namespace GateServer

/-- What `ForwardPacketOnFrontEnd` uses of a gate. -/
def toGate (gate : GateServer) : Gate := ⟨gate.backEnd, gate.guests⟩

/-- `GateServer::InitNetModule`. -/
def initNetModule (maxConns : UInt16) : GateServer where
  toPacketProcessor := (PacketProcessor.accept maxConns).connect .gateserver

/-- `NetChannel::SendMsg`, on a channel of the gate. -/
def write (gate : GateServer) (channel : NetChannel) (output : Output) : GateServer :=
  { gate with toPacketProcessor := gate.toPacketProcessor.write channel output }

/-- `PacketProcessor_Gate::SendPacket2Server`. -/
def sendPacket2Server (gate : GateServer) (destInfo ownerInfo : Word) (msg : PacketMsg) :
    Except Fault GateServer := do
  let proc ← gate.toPacketProcessor.sendPacket2BackEnd destInfo ownerInfo msg
  return { gate with toPacketProcessor := proc }

/-- `PacketProcessor_Gate::SendPacket2Client`. -/
def sendPacket2Client (gate : GateServer) (channelIndex : UInt16) (ownerInfo : Word)
    (msg : PacketMsg) : GateServer :=
  match gate.frontEnd.getChannel channelIndex with
  | none => gate
  | some channel => gate.write channel (.clientPacket channelIndex ownerInfo msg)

/-! ### The handlers of messages -/

/-- `PacketProcessor_Gate::OnMessage_PktRegisterAck`. -/
def onMessagePktRegisterAck (serverInfo : Word) (gate : GateServer) : Except Fault GateServer :=
  match gate.backEnd with
  | none => .error .nullPointer
  | some channel => .ok { gate with backEnd := some (channel.setPeerInfo serverInfo) }

/-- `ServerManager::OnMessage_PktServerSync`. -/
def onMessagePktServerSync (build : Build) (pkt : PktServerSync) (gate : GateServer) :
    Except Fault GateServer := do
  let infos ← ServerManager.onMessagePktServerSync build gate.infos pkt
  return { gate with infos }

/-- `GateLoginManager::OnMessage_PktGameLoginReq`. -/
def onMessagePktGameLoginReq (build : Build) (guestId : Word) (pkt : PktGameLoginReq)
    (gate : GateServer) : Except Fault GateServer :=
  match gate.guests guestId with
  | none => do
    check build False
    return gate
  | some guest =>
    gate.sendPacket2Server (guest.getDestPeerInfo .centerserver) guestId
      ⟨.pktEnterPermissionReq, (⟨pkt.accountName, pkt.sessionKey⟩ : PktEnterPermissionReq)⟩

/-- `GateLoginManager::OnMessage_PktEnterPermissionAck`. The result of the check is not read. -/
def onMessagePktEnterPermissionAck (build : Build) (guestId : Word) (gate : GateServer) :
    Except Fault GateServer :=
  match gate.guests guestId with
  | none => do
    check build False
    return gate
  | some _ =>
    .ok (gate.sendPacket2Client (PeerInfo.getChannelIndex guestId) guestId ⟨.pktRoleListAck,
      (⟨[ascii "Dolores", ascii "Teddy", ascii "Arnold"]⟩ : PktRoleListAck)⟩)

/-- The handlers that a gate has registered. -/
def callBacks (build : Build) : List (CallBack PacketType.Fields GateServer) :=
  [⟨.pktRegisterAck, fun _ _ serverInfo => onMessagePktRegisterAck serverInfo⟩,
    ⟨.pktServerSync, fun _ _ pkt => onMessagePktServerSync build pkt⟩,
    ⟨.pktGameLoginReq, fun _ owner pkt => onMessagePktGameLoginReq build owner pkt⟩,
    ⟨.pktEnterPermissionAck, fun _ owner _ => onMessagePktEnterPermissionAck build owner⟩]

/-- `PacketDispatcher::DeliverPacket` at a gate. -/
def deliverPacket (env : Env) (packet : Dispatch) (gate : GateServer) : Except Fault GateServer :=
  PacketDispatcher.deliverPacket env.build PacketType.descriptor env.parse (callBacks env.build)
    packet gate

/-- A handler of the gate runs on a message of the type that the packet names, or nothing
    happens. -/
theorem deliverPacket_cases (env : Env) (packet : Dispatch) (gate : GateServer) :
    (∃ it ∈ callBacks env.build, ∃ msg, it.packetType.descriptor.Named packet.packetName ∧
      env.parse it.packetType packet.buffer packet.packetMsg packet.msgSize = some msg ∧
      gate.deliverPacket env packet = it.run packet.channelIndex packet.ownerInfo msg gate) ∨
    gate.deliverPacket env packet = .ok gate ∨
    gate.deliverPacket env packet = .error .assertFailed :=
  PacketDispatcher.deliverPacket_cases env.build PacketType.descriptor env.parse rfl

theorem nodup_callBacks (build : Build) : ((callBacks build).map CallBack.packetType).Nodup := by
  change [PacketType.pktRegisterAck, .pktServerSync, .pktGameLoginReq,
    .pktEnterPermissionAck].Nodup
  decide

/-- What a packet can do at a gate if its delivery returns. -/
theorem deliverPacket_ok {env : Env} {packet : Dispatch} {gate gate' : GateServer}
    (h : gate.deliverPacket env packet = .ok gate') :
    (∃ serverInfo back, packet.Holds env .pktRegisterAck serverInfo ∧ gate.backEnd = some back ∧
      gate' = { gate with backEnd := some (back.setPeerInfo serverInfo) }) ∨
    (∃ pkt infos, packet.Holds env .pktServerSync pkt ∧
      ServerManager.onMessagePktServerSync env.build gate.infos pkt = .ok infos ∧
      gate' = { gate with infos }) ∨
    (∃ pkt guest back, packet.Holds env .pktGameLoginReq pkt ∧
      gate.guests packet.ownerInfo = some guest ∧ gate.backEnd = some back ∧
      gate' = gate.write back (.packet .backEnd (guest.getDestPeerInfo .centerserver)
        packet.ownerInfo ⟨.pktEnterPermissionReq,
          (⟨pkt.accountName, pkt.sessionKey⟩ : PktEnterPermissionReq)⟩)) ∨
    (∃ result guest, packet.Holds env .pktEnterPermissionAck result ∧
      gate.guests packet.ownerInfo = some guest ∧
      gate' = gate.sendPacket2Client (PeerInfo.getChannelIndex packet.ownerInfo) packet.ownerInfo
        ⟨.pktRoleListAck, (⟨[ascii "Dolores", ascii "Teddy", ascii "Arnold"]⟩ : PktRoleListAck)⟩) ∨
    gate' = gate := by
  rcases deliverPacket_cases env packet gate with ⟨it, hit, msg, hnamed, hmsg, hrun⟩ | hok | herror
  · rw [hrun] at h
    simp only [callBacks, List.mem_cons, List.not_mem_nil, or_false] at hit
    rcases hit with rfl | rfl | rfl | rfl
    · simp only [onMessagePktRegisterAck] at h
      split at h
      · cases h
      · next back hback =>
        cases h
        exact Or.inl ⟨msg, back, ⟨hnamed, hmsg⟩, hback, rfl⟩
    · obtain ⟨infos, hinfos, h⟩ := bind_eq_ok.mp h
      cases h
      exact Or.inr (Or.inl ⟨msg, infos, ⟨hnamed, hmsg⟩, hinfos, rfl⟩)
    · simp only [onMessagePktGameLoginReq] at h
      split at h
      · exact Or.inr (Or.inr (Or.inr (Or.inr (eq_of_check h))))
      · next guest hguest =>
        obtain ⟨proc, hproc, h⟩ := bind_eq_ok.mp h
        cases h
        rw [PacketProcessor.sendPacket2BackEnd] at hproc
        split at hproc
        · cases hproc
        · next back hback =>
          cases hproc
          exact Or.inr (Or.inr (Or.inl ⟨msg, guest, back, ⟨hnamed, hmsg⟩, hguest, hback, rfl⟩))
    · simp only [onMessagePktEnterPermissionAck] at h
      split at h
      · exact Or.inr (Or.inr (Or.inr (Or.inr (eq_of_check h))))
      · next guest hguest =>
        cases h
        exact Or.inr (Or.inr (Or.inr (Or.inl ⟨msg, guest, ⟨hnamed, hmsg⟩, hguest, rfl⟩)))
  · rw [hok] at h
    cases h
    exact Or.inr (Or.inr (Or.inr (Or.inr rfl)))
  · rw [herror] at h
    cases h

/-! ### Which packets the handlers accept -/

theorem onMessagePktServerSync_returns_iff (build : Build) (pkt : PktServerSync)
    (gate : GateServer) : (∃ gate', onMessagePktServerSync build pkt gate = .ok gate') ↔
      (build = .debug → ServerManager.SyncAsserts gate.infos pkt) :=
  Iff.trans returns_bind_iff (ServerManager.onMessagePktServerSync_returns_iff ..)

section Guests

variable (build : Build) (guestId : Word) {gate : GateServer}

/-- The handlers for the login assert that there is a guest. -/
theorem onMessagePktGameLoginReq_returns_iff (pkt : PktGameLoginReq) {back : NetChannel}
    (hback : gate.backEnd = some back) :
    (∃ gate', onMessagePktGameLoginReq build guestId pkt gate = .ok gate') ↔
      (build = .debug → (gate.guests guestId).isSome) := by
  rw [onMessagePktGameLoginReq]
  cases gate.guests guestId with
  | none => exact returns_bind_iff.trans (by cases build <;> simp [check])
  | some guest =>
    dsimp only
    rw [sendPacket2Server, PacketProcessor.sendPacket2BackEnd, hback]
    exact iff_of_true ⟨_, rfl⟩ fun _ => rfl

theorem onMessagePktEnterPermissionAck_returns_iff :
    (∃ gate', onMessagePktEnterPermissionAck build guestId gate = .ok gate') ↔
      (build = .debug → (gate.guests guestId).isSome) := by
  rw [onMessagePktEnterPermissionAck]
  cases gate.guests guestId with
  | none => exact returns_bind_iff.trans (by cases build <;> simp [check])
  | some guest => exact iff_of_true ⟨_, rfl⟩ fun _ => rfl

end Guests

/-- What a debug build asserts of a packet that is delivered at a gate: a handler is there, it can
    read the message, and its own assertions hold. -/
def DeliverAsserts (env : Env) (packet : Dispatch) (gate : GateServer) : Prop :=
  (∃ serverInfo, packet.Holds env .pktRegisterAck serverInfo) ∨
  (∃ pkt, packet.Holds env .pktServerSync pkt ∧ ServerManager.SyncAsserts gate.infos pkt) ∨
  ((gate.guests packet.ownerInfo).isSome ∧
    ((∃ pkt, packet.Holds env .pktGameLoginReq pkt) ∨
      ∃ result, packet.Holds env .pktEnterPermissionAck result))

/-- In a release build they return, if the back end is there. -/
theorem run_release {it : CallBack PacketType.Fields GateServer} (hit : it ∈ callBacks .release)
    {channelIndex : UInt16} {owner : Word} {msg : PacketType.Fields it.packetType} {s : GateServer}
    {back : NetChannel} (hback : s.backEnd = some back) :
    ∃ s', it.run channelIndex owner msg s = .ok s' := by
  simp only [callBacks, List.mem_cons, List.not_mem_nil, or_false] at hit
  rcases hit with rfl | rfl | rfl | rfl
  · simp only [onMessagePktRegisterAck, hback]
    exact ⟨_, rfl⟩
  · exact (onMessagePktServerSync_returns_iff .release msg s).mpr nofun
  · exact (onMessagePktGameLoginReq_returns_iff .release owner msg hback).mpr nofun
  · exact (onMessagePktEnterPermissionAck_returns_iff .release owner).mpr nofun

theorem deliverPacket_release {env : Env} (hbuild : env.build = .release) (packet : Dispatch)
    {gate : GateServer} {back : NetChannel} (hback : gate.backEnd = some back) :
    ∃ gate', gate.deliverPacket env packet = .ok gate' := by
  rw [deliverPacket, hbuild]
  rcases PacketDispatcher.deliverPacket_release PacketType.descriptor env.parse
    (callBacks .release) packet gate with ⟨it, hit, msg, -, hrun⟩ | hrun
  · rw [hrun]
    exact run_release hit hback
  · exact ⟨gate, hrun⟩

theorem deliverPacket_returns_iff (env : Env) (packet : Dispatch) {gate : GateServer}
    {back : NetChannel} (hback : gate.backEnd = some back) :
    (∃ gate', gate.deliverPacket env packet = .ok gate') ↔
      (env.build = .debug → gate.DeliverAsserts env packet) := by
  cases hbuild : env.build with
  | release => exact iff_of_true (deliverPacket_release hbuild packet hback) nofun
  | debug =>
    rw [forall_prop_of_true rfl, deliverPacket,
      PacketDispatcher.deliverPacket_debug_iff hbuild (nodup_callBacks env.build)]
    constructor
    · rintro ⟨it, hit, msg, hholds, hrun⟩
      simp only [callBacks, List.mem_cons, List.not_mem_nil, or_false] at hit
      rcases hit with rfl | rfl | rfl | rfl
      · exact Or.inl ⟨msg, hholds⟩
      · exact Or.inr (Or.inl ⟨msg, hholds,
          (onMessagePktServerSync_returns_iff env.build msg gate).mp hrun hbuild⟩)
      · exact Or.inr (Or.inr ⟨(onMessagePktGameLoginReq_returns_iff env.build _ msg hback).mp hrun
          hbuild, Or.inl ⟨msg, hholds⟩⟩)
      · exact Or.inr (Or.inr ⟨(onMessagePktEnterPermissionAck_returns_iff env.build _).mp hrun
          hbuild, Or.inr ⟨msg, hholds⟩⟩)
    · rintro (⟨serverInfo, hholds⟩ | ⟨pkt, hholds, hsync⟩ | ⟨hguest, ⟨pkt, hholds⟩ | ⟨result, hholds⟩⟩)
      · refine ⟨⟨.pktRegisterAck, fun _ _ serverInfo => onMessagePktRegisterAck serverInfo⟩,
          by simp [callBacks], serverInfo, hholds, ?_⟩
        simp only [onMessagePktRegisterAck, hback]
        exact ⟨_, rfl⟩
      · exact ⟨⟨.pktServerSync, fun _ _ pkt => onMessagePktServerSync env.build pkt⟩,
          by simp [callBacks], pkt, hholds,
          (onMessagePktServerSync_returns_iff env.build pkt gate).mpr fun _ => hsync⟩
      · exact ⟨⟨.pktGameLoginReq, fun _ owner pkt => onMessagePktGameLoginReq env.build owner pkt⟩,
          by simp [callBacks], pkt, hholds,
          (onMessagePktGameLoginReq_returns_iff env.build _ pkt hback).mpr fun _ => hguest⟩
      · exact ⟨⟨.pktEnterPermissionAck, fun _ owner _ =>
            onMessagePktEnterPermissionAck env.build owner⟩,
          by simp [callBacks], result, hholds,
          (onMessagePktEnterPermissionAck_returns_iff env.build _).mpr fun _ => hguest⟩

/-! ### Packets from the back end -/

/-- `NetChannel::OnMessage`, for a packet whose name has been read. -/
def onMessage (deliver : Dispatch → GateServer → Except Fault GateServer) (ptr : ChannelPtr)
    (channel : NetChannel) (packetName : List UInt8) (pktS : PacketS) (gate : GateServer) :
    Except Fault GateServer := do
  let packet ← pktS.onMessage channel packetName
  deliver packet { gate with dispatched := gate.dispatched ++ [(ptr, packet)] }

/-- What one turn of the loop in `ForwardPacketOnBackEnd` does when the test of the destination
    is done. -/
def forward (deliver : Dispatch → GateServer → Except Fault GateServer) (backChannel : NetChannel)
    (packetName : List UInt8) (pktS : PacketS) (gate : GateServer) : Target → Except Fault GateServer
  | .backEnd => onMessage deliver .backEnd backChannel packetName pktS gate
  | .frontEnd channelIndex =>
    match gate.frontEnd.getChannel channelIndex with
    | none => .ok gate
    | some channel => onMessage deliver (.frontEnd channelIndex) channel packetName pktS gate
  | .client channelIndex =>
    match gate.frontEnd.getChannel channelIndex with
    | none => .ok gate
    | some channel =>
      if channel.sendMsg then do
        -- `GetDataBuffer` is the packet without its first field, and `GetDataSize` ends it
        -- in front of the destinations.
        let bytes ← read pktS.buffer 2 pktS.dataSize
        return gate.write channel (.bytes (.frontEnd channelIndex) bytes)
      else .ok gate
  | .nobody => .ok gate

/-- The name of the packet is read for every destination that is a gate, also for those that
    are not this one. -/
def destName (pktS : PacketS) (destInfo : Word) : Except Fault (List UInt8) :=
  if (PeerInfo.parse destInfo).peerType = .gateserver then pktS.getPacketName else .ok []

/-- One turn of the loop in `ForwardPacketOnBackEnd`. -/
def forwardDest (deliver : Dispatch → GateServer → Except Fault GateServer) (pktS : PacketS)
    (gate : GateServer) (destInfo : Word) : Except Fault GateServer :=
  match gate.backEnd with
  | none => .ok gate
  | some backChannel => do
    let packetName ← destName pktS destInfo
    forward deliver backChannel packetName pktS gate (Gate.target backChannel destInfo)

/-- `PacketProcessor_Gate::ForwardPacketOnBackEnd`, with the dispatcher that it calls. -/
def forwardPacketOnBackEnd (build : Build) (host : Bytes.Endian)
    (deliver : Dispatch → GateServer → Except Fault GateServer) (gate : GateServer)
    (pktS : PacketS) : Except Fault GateServer := do
  let dests ← pktS.destinations build host
  dests.foldlM (forwardDest deliver pktS) gate

/-! ### Packets from clients -/

/-- What follows one action of `ForwardPacketOnFrontEnd`. -/
def perform (env : Env) (gate : GateServer) : GateAction → Except Fault GateServer
  | .dispatch packet => gate.deliverPacket env packet
  | .sendBackEnd bytes =>
    .ok { gate with toPacketProcessor :=
      { gate.toPacketProcessor with sent := gate.sent ++ [.bytes .backEnd bytes] } }

/-- `PacketProcessor_Gate::ForwardPacketOnFrontEnd`. -/
def forwardPacketOnFrontEnd (env : Env) (gate : GateServer) (frontChannel : NetChannel)
    (pktC : PacketC) : Except Fault GateServer := do
  let actions ← gate.toGate.forwardPacketOnFrontEnd env.build env.host frontChannel pktC
  actions.foldlM (perform env) gate

/-! ### The handlers of events -/

/-- `PacketProcessor_Gate::Login2Center`. -/
def login2Center (gate : GateServer) : Except Fault GateServer :=
  gate.sendPacket2Server (PeerInfo.serialize { peerType := .centerserver })
    (PeerInfo.serialize { peerType := .gateserver }) ⟨.pktRegisterReq, ()⟩

theorem login2Center_of_none {gate : GateServer} (h : gate.backEnd = none) :
    gate.login2Center = .error .nullPointer := by
  rw [login2Center, sendPacket2Server, PacketProcessor.sendPacket2BackEnd, h]
  rfl

theorem login2Center_of_some {gate : GateServer} {channel : NetChannel}
    (h : gate.backEnd = some channel) :
    gate.login2Center = .ok (gate.write channel (.packet .backEnd
      (PeerInfo.serialize { peerType := .centerserver })
      (PeerInfo.serialize { peerType := .gateserver }) ⟨.pktRegisterReq, ()⟩)) := by
  rw [login2Center, sendPacket2Server, PacketProcessor.sendPacket2BackEnd, h]
  rfl

/-- `PacketProcessor_Gate::DoBackEnd_Disconnected`, and `DoBackEnd_ConnBreak`. -/
def doBackEndDisconnected (gate : GateServer) : GateServer := { gate with backEnd := none }

/-- `PacketProcessor_Gate::DoFrontEnd_Connected`. -/
def doFrontEndConnected (ptr : ChannelPtr) (gate : GateServer) : GateServer :=
  match gate.backEnd, gate.toPacketProcessor.getChannel ptr with
  | some backEnd, some channel =>
    let channel := channel.setPeerType .gateserver
    let channel := channel.setPeerIndex backEnd.getChannelIndex.toUInt8
    { gate with
      toPacketProcessor := gate.toPacketProcessor.setChannel ptr channel
      guests := gate.guests.createGuest channel.getPeerInfo
        (ServerManager.getCenterPeerInfo gate.infos) }
  | _, _ => gate

/-- `PacketProcessor_Gate::DoFrontEnd_Disconnected`, and `DoFrontEnd_ConnBreak`. -/
def doFrontEndDisconnected (build : Build) (ptr : ChannelPtr) (gate : GateServer) :
    Except Fault GateServer :=
  match gate.toPacketProcessor.getChannel ptr with
  | none => .ok gate
  | some channel => do
    let frontEnd ← gate.frontEnd.removeChannel build channel
    return { gate with frontEnd }

/-- The virtual handlers that a gate overrides. -/
def handlers (build : Build) : NetEventHandlers GateServer where
  backEnd :=
    { connected := fun _ => login2Center
      disconnected := fun _ gate => .ok gate.doBackEndDisconnected
      connBreak := fun _ gate => .ok gate.doBackEndDisconnected }
  frontEnd :=
    { connected := fun ptr gate => .ok (gate.doFrontEndConnected ptr)
      disconnected := doFrontEndDisconnected build
      connBreak := doFrontEndDisconnected build }

/-- `NetServer::OnConnect`, with the callback that `Accept` has registered. -/
def onConnect (build : Build) (gate : GateServer) : Except Fault GateServer :=
  match gate.frontEnd.onConnect with
  | (_, none) => .ok gate
  | (frontEnd, some channelIndex) =>
    (handlers build).acceptCallback (.frontEnd channelIndex) .connected { gate with frontEnd }

/-- An event that a channel reports, after it has changed its own state: a channel of the front
    end through the callback of `Accept`, and the back end through that of `Connect`. -/
def netEvent (build : Build) (ptr : ChannelPtr) (event : NetEvent) (gate : GateServer) :
    Except Fault GateServer :=
  match gate.toPacketProcessor.getChannel ptr with
  | none => .ok gate
  | some channel =>
    let channel := { channel with connState := event.connState }
    let gate := { gate with toPacketProcessor := gate.toPacketProcessor.setChannel ptr channel }
    match ptr with
    | .backEnd => (handlers build).connectCallback ptr event gate
    | .frontEnd _ => (handlers build).acceptCallback ptr event gate

end GateServer

end TerraX
