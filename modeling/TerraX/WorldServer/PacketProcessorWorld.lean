import TerraX.CenterServer.ConnectionManager
import TerraX.SrvLib.NetEvents

/-!
# The world server

`PacketProcessor_World`: the handlers that a world server registers in its dispatcher, and what
it does with the packets that arrive on its back end. The printing is left out.

## Main definitions

- `WorldServer`, `WorldServer.deliverPacket`, `WorldServer.forwardPacketOnBackEnd`
- `WorldServer.DeliverAsserts` — what a debug build asserts of a packet that is delivered
- `WorldServer.RegisteredAt` — the center has answered the request of the world server

## Main results

- `WorldServer.deliverPacket_ok` — what a packet can do at a world server
- `WorldServer.deliverPacket_returns_iff` — which packets can be delivered
-/

namespace TerraX

open Memory

/-- A world server: its channels, and the servers that it knows. -/
structure WorldServer extends PacketProcessor where
  infos : ServerInfos := fun _ => none

namespace WorldServer

/-- `PacketProcessor_World::OnMessage_PktRegisterAck`. -/
def onMessagePktRegisterAck (serverInfo : Word) (world : WorldServer) : Except Fault WorldServer :=
  match world.backEnd with
  | none => .error .nullPointer
  | some channel => .ok { world with backEnd := some (channel.setPeerInfo serverInfo) }

/-- `ServerManager::OnMessage_PktServerSync`. -/
def onMessagePktServerSync (build : Build) (pkt : PktServerSync) (world : WorldServer) :
    Except Fault WorldServer := do
  let infos ← ServerManager.onMessagePktServerSync build world.infos pkt
  return { world with infos }

/-- The handlers that a world server has registered. -/
def callBacks (build : Build) : List (CallBack PacketType.Fields WorldServer) :=
  [⟨.pktRegisterAck, fun _ _ serverInfo => onMessagePktRegisterAck serverInfo⟩,
    ⟨.pktServerSync, fun _ _ pkt => onMessagePktServerSync build pkt⟩]

/-- `PacketDispatcher::DeliverPacket` at a world server. -/
def deliverPacket (env : Env) (packet : Dispatch) (world : WorldServer) :
    Except Fault WorldServer :=
  PacketDispatcher.deliverPacket env.build PacketType.descriptor env.parse (callBacks env.build)
    packet world

theorem nodup_callBacks (build : Build) : ((callBacks build).map CallBack.packetType).Nodup := by
  change [PacketType.pktRegisterAck, .pktServerSync].Nodup
  decide

/-- What a packet can do at a world server if its delivery returns. -/
theorem deliverPacket_ok {env : Env} {packet : Dispatch} {world world' : WorldServer}
    (h : world.deliverPacket env packet = .ok world') :
    (∃ serverInfo back, packet.Holds env .pktRegisterAck serverInfo ∧ world.backEnd = some back ∧
      world' = { world with backEnd := some (back.setPeerInfo serverInfo) }) ∨
    (∃ pkt infos, packet.Holds env .pktServerSync pkt ∧
      ServerManager.onMessagePktServerSync env.build world.infos pkt = .ok infos ∧
      world' = { world with infos }) ∨
    world' = world := by
  rcases PacketDispatcher.deliverPacket_cases env.build PacketType.descriptor env.parse h with
    ⟨it, hit, msg, hnamed, hmsg, hrun⟩ | hok | herror
  · simp only [callBacks, List.mem_cons, List.not_mem_nil, or_false] at hit
    rcases hit with rfl | rfl
    · simp only [onMessagePktRegisterAck] at hrun
      split at hrun
      · cases hrun
      · next back hback =>
        cases hrun
        exact Or.inl ⟨msg, back, ⟨hnamed, hmsg⟩, hback, rfl⟩
    · obtain ⟨infos, hinfos, hrun⟩ := bind_eq_ok.mp hrun.symm
      cases hrun
      exact Or.inr (Or.inl ⟨msg, infos, ⟨hnamed, hmsg⟩, hinfos, rfl⟩)
  · cases hok
    exact Or.inr (Or.inr rfl)
  · cases herror

/-! ### Which packets the handlers accept -/

theorem onMessagePktServerSync_returns_iff (build : Build) (pkt : PktServerSync)
    (world : WorldServer) : (∃ world', onMessagePktServerSync build pkt world = .ok world') ↔
      (build = .debug → ServerManager.SyncAsserts world.infos pkt) :=
  Iff.trans returns_bind_iff (ServerManager.onMessagePktServerSync_returns_iff ..)

/-- What a debug build asserts of a packet that is delivered at a world server: a handler is there,
    it can read the message, and its own assertions hold. -/
def DeliverAsserts (env : Env) (packet : Dispatch) (world : WorldServer) : Prop :=
  (∃ serverInfo, packet.Holds env .pktRegisterAck serverInfo) ∨
  ∃ pkt, packet.Holds env .pktServerSync pkt ∧ ServerManager.SyncAsserts world.infos pkt

theorem deliverPacket_release {env : Env} (hbuild : env.build = .release) (packet : Dispatch)
    {world : WorldServer} {back : NetChannel} (hback : world.backEnd = some back) :
    ∃ world', world.deliverPacket env packet = .ok world' := by
  rw [deliverPacket, hbuild]
  rcases PacketDispatcher.deliverPacket_release PacketType.descriptor env.parse
    (callBacks .release) packet world with ⟨it, hit, msg, -, hrun⟩ | hrun
  · rw [hrun]
    simp only [callBacks, List.mem_cons, List.not_mem_nil, or_false] at hit
    rcases hit with rfl | rfl
    · simp only [onMessagePktRegisterAck, hback]
      exact ⟨_, rfl⟩
    · exact (onMessagePktServerSync_returns_iff .release msg world).mpr nofun
  · exact ⟨world, hrun⟩

theorem deliverPacket_returns_iff (env : Env) (packet : Dispatch) {world : WorldServer}
    {back : NetChannel} (hback : world.backEnd = some back) :
    (∃ world', world.deliverPacket env packet = .ok world') ↔
      (env.build = .debug → world.DeliverAsserts env packet) := by
  cases hbuild : env.build with
  | release => exact iff_of_true (deliverPacket_release hbuild packet hback) nofun
  | debug =>
    rw [forall_prop_of_true rfl, deliverPacket,
      PacketDispatcher.deliverPacket_debug_iff hbuild (nodup_callBacks env.build)]
    constructor
    · rintro ⟨it, hit, msg, hholds, hrun⟩
      simp only [callBacks, List.mem_cons, List.not_mem_nil, or_false] at hit
      rcases hit with rfl | rfl
      · exact Or.inl ⟨msg, hholds⟩
      · exact Or.inr ⟨msg, hholds,
          (onMessagePktServerSync_returns_iff env.build msg world).mp hrun hbuild⟩
    · rintro (⟨serverInfo, hholds⟩ | ⟨pkt, hholds, hsync⟩)
      · refine ⟨⟨.pktRegisterAck, fun _ _ serverInfo => onMessagePktRegisterAck serverInfo⟩,
          by simp [callBacks], serverInfo, hholds, ?_⟩
        simp only [onMessagePktRegisterAck, hback]
        exact ⟨_, rfl⟩
      · exact ⟨⟨.pktServerSync, fun _ _ pkt => onMessagePktServerSync env.build pkt⟩,
          by simp [callBacks], pkt, hholds,
          (onMessagePktServerSync_returns_iff env.build pkt world).mpr fun _ => hsync⟩

/-- One turn of the loop in `ForwardPacketOnBackEnd`. -/
def forwardDest (build : Build) (deliver : Dispatch → WorldServer → Except Fault WorldServer)
    (pktS : PacketS) (world : WorldServer) (destInfo : Word) : Except Fault WorldServer :=
  match world.backEnd with
  | none => .ok world
  | some backChannel => do
    match ← World.target build backChannel destInfo with
    | .backEnd => do
      let packetName ← pktS.getPacketName
      let packet ← pktS.onMessage backChannel packetName
      deliver packet { world with dispatched := world.dispatched ++ [(.backEnd, packet)] }
    | _ => return world

/-- `PacketProcessor_World::ForwardPacketOnBackEnd`, with the dispatcher that it calls. -/
def forwardPacketOnBackEnd (build : Build) (host : Bytes.Endian)
    (deliver : Dispatch → WorldServer → Except Fault WorldServer) (world : WorldServer)
    (pktS : PacketS) : Except Fault WorldServer := do
  let dests ← pktS.destinations build host
  dests.foldlM (forwardDest build deliver pktS) world

/-- The world server has the peer info that the center has given to it on its channel `i`. -/
def RegisteredAt (world : WorldServer) (i : UInt16) : Prop :=
  ∃ back, world.backEnd = some back ∧ back.getPeerInfo = regInfo .worldserver i

end WorldServer

end TerraX
