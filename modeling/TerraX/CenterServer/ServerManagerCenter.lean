import TerraX.Lib.Link
import TerraX.SrvLib.ServerManager

/-!
# The server manager of the center

`ServerManager_Center`. When a server registers, the center sends it the servers that it
has to know, and tells the others about it; when a server leaves, it tells the others.

## Main definitions

- `ServerManagerCenter.onServerAdded`, `ServerManagerCenter.onServerRemoved`
- `Outgoing` — a message with the arguments of `SendPacket`
- `ServerManagerCenter.Sees` — the peer types that a server is told about

## Main results

- `ServerManagerCenter.onServerAdded_sent`, `ServerManagerCenter.onServerRemoved_sent` — the
  messages that are sent
-/

namespace TerraX

open Memory Fifo ServerInfos

/-- The arguments of `PacketProcessor_Center::SendPacket`. -/
structure Outgoing (μ : Type) where
  channelIndex : UInt16
  destInfo : Word
  ownerInfo : Word
  msg : μ
deriving DecidableEq, Repr

namespace ServerManagerCenter

/-- `ServerManager_Center::AddServerInfo2Pkt`. -/
def addServerInfo2Pkt (infos : ServerInfos) (peerType : PeerType) (pkt : PktServerSync) :
    PktServerSync :=
  match infos peerType with
  | none => pkt
  | some set => { pkt with serverInfo := pkt.serverInfo ++ inOrder set }

/-- `ServerManager_Center::SendPacket2Server`. -/
def sendPacket2Server (infos : ServerInfos) (pkt : PktServerSync) (peerType : PeerType) :
    List (Outgoing PktServerSync) :=
  match infos peerType with
  | none => []
  | some set => (inOrder set).map fun var => ⟨PeerInfo.getChannelIndex var, var, 0, pkt⟩

/-- `ServerManager_Center::BroadCastGateServerChanged`. -/
def broadCastGateServerChanged (infos : ServerInfos) (pkt : PktServerSync) :
    List (Outgoing PktServerSync) :=
  sendPacket2Server infos pkt .gameserver ++ sendPacket2Server infos pkt .worldserver

/-- `ServerManager_Center::BroadCastWorldServerChanged`. -/
def broadCastWorldServerChanged (infos : ServerInfos) (pkt : PktServerSync) :
    List (Outgoing PktServerSync) :=
  sendPacket2Server infos pkt .gameserver ++ sendPacket2Server infos pkt .gateserver

/-- `ServerManager_Center::BroadCastGameServerChanged`. -/
def broadCastGameServerChanged (infos : ServerInfos) (pkt : PktServerSync) :
    List (Outgoing PktServerSync) :=
  sendPacket2Server infos pkt .worldserver ++ sendPacket2Server infos pkt .gateserver

/-- `ServerManager_Center::BroadCastServerInfoChanged`. -/
def broadCastServerInfoChanged (infos : ServerInfos) (peerType : PeerType) (peerInfo : Word)
    (syncType : SyncType) : List (Outgoing PktServerSync) :=
  let pktSync : PktServerSync := ⟨syncType, [peerInfo]⟩
  if peerType = .gateserver then broadCastGateServerChanged infos pktSync
  else if peerType = .gameserver then broadCastGameServerChanged infos pktSync
  else if peerType = .worldserver then broadCastWorldServerChanged infos pktSync
  else []

/-- What the three `Process*ServerAdded` share: the new server is sent the centers and the
    servers of the types `first` and `second`, and the others are told about it. -/
def processServerAdded (infos : ServerInfos) (first second peerType : PeerType) (peerInfo : Word) :
    List (Outgoing PktServerSync) :=
  let pktAdd := addServerInfo2Pkt infos .centerserver ⟨.add, []⟩
  let pktAdd := addServerInfo2Pkt infos first pktAdd
  let pktAdd := addServerInfo2Pkt infos second pktAdd
  ⟨PeerInfo.getChannelIndex peerInfo, peerInfo, 0, pktAdd⟩ ::
    broadCastServerInfoChanged infos peerType peerInfo .add

/-- `ServerManager_Center::ProcessGateServerAdded`. -/
def processGateServerAdded (infos : ServerInfos) (peerInfo : Word) : List (Outgoing PktServerSync) :=
  processServerAdded infos .worldserver .gameserver .gateserver peerInfo

/-- `ServerManager_Center::ProcessWorldServerAdded`. -/
def processWorldServerAdded (infos : ServerInfos) (peerInfo : Word) :
    List (Outgoing PktServerSync) :=
  processServerAdded infos .gateserver .gameserver .worldserver peerInfo

/-- `ServerManager_Center::ProcessGameServerAdded`. -/
def processGameServerAdded (infos : ServerInfos) (peerInfo : Word) : List (Outgoing PktServerSync) :=
  processServerAdded infos .gateserver .worldserver .gameserver peerInfo

/-- `ServerManager_Center::ProcessGateServerRemoved`. -/
def processGateServerRemoved (infos : ServerInfos) (peerInfo : Word) :
    List (Outgoing PktServerSync) :=
  broadCastServerInfoChanged infos .gateserver peerInfo .remove

/-- `ServerManager_Center::ProcessWorldServerRemoved`. -/
def processWorldServerRemoved (infos : ServerInfos) (peerInfo : Word) :
    List (Outgoing PktServerSync) :=
  broadCastServerInfoChanged infos .worldserver peerInfo .remove

/-- `ServerManager_Center::ProcessGameServerRemoved`. -/
def processGameServerRemoved (infos : ServerInfos) (peerInfo : Word) :
    List (Outgoing PktServerSync) :=
  broadCastServerInfoChanged infos .gameserver peerInfo .remove

/-- `ServerManager_Center::OnServerAdded`. -/
def onServerAdded (infos : ServerInfos) (peerInfo : Word) :
    ServerInfos × List (Outgoing PktServerSync) :=
  let pi := PeerInfo.parse peerInfo
  let sent :=
    if pi.peerType = .gateserver then processGateServerAdded infos peerInfo
    else if pi.peerType = .centerserver then []
    else if pi.peerType = .worldserver then processWorldServerAdded infos peerInfo
    else if pi.peerType = .gameserver then processGameServerAdded infos peerInfo
    else []
  (infos.add peerInfo, sent)

/-- `ServerManager_Center::OnServerRemoved`. -/
def onServerRemoved (infos : ServerInfos) (peerInfo : Word) :
    ServerInfos × List (Outgoing PktServerSync) :=
  let pi := PeerInfo.parse peerInfo
  let sent :=
    if pi.peerType = .gateserver then processGateServerRemoved infos peerInfo
    else if pi.peerType = .centerserver then []
    else if pi.peerType = .worldserver then processWorldServerRemoved infos peerInfo
    else if pi.peerType = .gameserver then processGameServerRemoved infos peerInfo
    else []
  let set := (infos.known pi.peerType).erase peerInfo
  (Function.update infos pi.peerType (if set = ∅ then none else some set), sent)

/-! ### Who is told about whom -/

/-- The servers that are kept informed. -/
def IsServer (peerType : PeerType) : Prop :=
  peerType = .gateserver ∨ peerType = .gameserver ∨ peerType = .worldserver

instance (peerType : PeerType) : Decidable (IsServer peerType) := by
  unfold IsServer
  infer_instance

/-- The peer types that a server of type `peerType` is told about: the centers and the
    servers of the two other types. -/
def Sees (peerType seen : PeerType) : Prop :=
  seen = .centerserver ∨ (IsServer seen ∧ seen ≠ peerType)

instance (peerType seen : PeerType) : Decidable (Sees peerType seen) := by
  unfold Sees
  infer_instance

theorem addServerInfo2Pkt_eq (infos : ServerInfos) (peerType : PeerType) (pkt : PktServerSync) :
    addServerInfo2Pkt infos peerType pkt =
      { pkt with serverInfo := pkt.serverInfo ++ inOrder (infos.known peerType) } := by
  unfold addServerInfo2Pkt known
  cases infos peerType with
  | none =>
    rw [Option.getD_none, inOrder, Finset.sort_empty, List.append_nil]
  | some set => rfl

theorem sendPacket2Server_eq (infos : ServerInfos) (pkt : PktServerSync) (peerType : PeerType) :
    sendPacket2Server infos pkt peerType =
      (inOrder (infos.known peerType)).map fun var =>
        ⟨PeerInfo.getChannelIndex var, var, 0, pkt⟩ := by
  unfold sendPacket2Server known
  cases infos peerType with
  | none =>
    rw [Option.getD_none, inOrder, Finset.sort_empty]
    rfl
  | some set => rfl

/-- The servers of two types, each of them once. -/
theorem nodup_two_types {infos : ServerInfos} (h : infos.WellTyped) {first second : PeerType}
    (hne : first ≠ second) :
    (inOrder (infos.known first) ++ inOrder (infos.known second)).Nodup := by
  refine List.nodup_append.mpr ⟨nodup_inOrder _, nodup_inOrder _, fun v hv w hw heq => hne ?_⟩
  rw [← h first v (mem_inOrder.mp hv), ← h second w (mem_inOrder.mp hw), heq]

/-- `first` and `second` are the two types of servers beside `peerType`. -/
structure Others (peerType first second : PeerType) : Prop where
  ne : first ≠ second
  iff : ∀ t, t = first ∨ t = second ↔ IsServer t ∧ t ≠ peerType

theorem Others.symm {peerType first second : PeerType} (h : Others peerType first second) :
    Others peerType second first := ⟨h.ne.symm, fun t => by rw [or_comm, h.iff]⟩

theorem others_gateserver : Others .gateserver .gameserver .worldserver := by
  refine ⟨by decide, fun t => ⟨?_, ?_⟩⟩
  · rintro (rfl | rfl) <;> decide
  · rintro ⟨rfl | rfl | rfl, hne⟩
    · exact absurd rfl hne
    · exact Or.inl rfl
    · exact Or.inr rfl

theorem others_gameserver : Others .gameserver .worldserver .gateserver := by
  refine ⟨by decide, fun t => ⟨?_, ?_⟩⟩
  · rintro (rfl | rfl) <;> decide
  · rintro ⟨rfl | rfl | rfl, hne⟩
    · exact Or.inr rfl
    · exact absurd rfl hne
    · exact Or.inl rfl

theorem others_worldserver : Others .worldserver .gameserver .gateserver := by
  refine ⟨by decide, fun t => ⟨?_, ?_⟩⟩
  · rintro (rfl | rfl) <;> decide
  · rintro ⟨rfl | rfl | rfl, hne⟩
    · exact Or.inr rfl
    · exact Or.inl rfl
    · exact absurd rfl hne

/-- The three functions that broadcast a change go to the two other types. -/
theorem broadCast_others {peerType : PeerType} (h : IsServer peerType) :
    ∃ first second, Others peerType first second ∧ ∀ infos peerInfo syncType,
      broadCastServerInfoChanged infos peerType peerInfo syncType =
        sendPacket2Server infos ⟨syncType, [peerInfo]⟩ first ++
          sendPacket2Server infos ⟨syncType, [peerInfo]⟩ second := by
  rcases h with rfl | rfl | rfl
  · exact ⟨_, _, others_gateserver, fun _ _ _ => rfl⟩
  · exact ⟨_, _, others_gameserver, fun _ _ _ => rfl⟩
  · exact ⟨_, _, others_worldserver, fun _ _ _ => rfl⟩

/-- So do the three functions for a new server. -/
theorem onServerAdded_others {peerInfo : Word} (h : IsServer (PeerInfo.getPeerType peerInfo)) :
    ∃ first second, Others (PeerInfo.getPeerType peerInfo) first second ∧ ∀ infos,
      (onServerAdded infos peerInfo).2 =
        processServerAdded infos first second (PeerInfo.getPeerType peerInfo) peerInfo := by
  have htype : (PeerInfo.parse peerInfo).peerType = PeerInfo.getPeerType peerInfo := rfl
  simp only [onServerAdded, htype]
  rcases h with h | h | h <;> rw [h]
  · exact ⟨_, _, others_gateserver.symm, fun _ => rfl⟩
  · exact ⟨_, _, others_gameserver.symm, fun _ => rfl⟩
  · exact ⟨_, _, others_worldserver.symm, fun _ => rfl⟩

theorem onServerRemoved_sent {peerInfo : Word} (h : IsServer (PeerInfo.getPeerType peerInfo))
    (infos : ServerInfos) :
    (onServerRemoved infos peerInfo).2 =
      broadCastServerInfoChanged infos (PeerInfo.getPeerType peerInfo) peerInfo .remove := by
  have htype : (PeerInfo.parse peerInfo).peerType = PeerInfo.getPeerType peerInfo := rfl
  simp only [onServerRemoved, htype]
  rcases h with h | h | h <;> rw [h] <;> rfl

/-- Every registered server of another type is told about a change, and each of them once. -/
theorem broadCastServerInfoChanged_eq {infos : ServerInfos} (hinfos : infos.WellTyped)
    {peerType : PeerType} (h : IsServer peerType) :
    ∃ told : List Word, told.Nodup ∧
      (∀ w, w ∈ told ↔ ∃ t, (IsServer t ∧ t ≠ peerType) ∧ w ∈ infos.known t) ∧
      ∀ peerInfo syncType, broadCastServerInfoChanged infos peerType peerInfo syncType =
        told.map fun var =>
          ⟨PeerInfo.getChannelIndex var, var, 0, ⟨syncType, [peerInfo]⟩⟩ := by
  obtain ⟨first, second, hothers, heq⟩ := broadCast_others h
  refine ⟨inOrder (infos.known first) ++ inOrder (infos.known second),
    nodup_two_types hinfos hothers.ne, fun w => ?_, fun peerInfo syncType => ?_⟩
  · simp only [List.mem_append, mem_inOrder, ← hothers.iff]
    constructor
    · rintro (hw | hw)
      · exact ⟨first, Or.inl rfl, hw⟩
      · exact ⟨second, Or.inr rfl, hw⟩
    · rintro ⟨t, rfl | rfl, hw⟩
      · exact Or.inl hw
      · exact Or.inr hw
  · rw [heq, sendPacket2Server_eq, sendPacket2Server_eq, List.map_append]

/-- A new server is sent what a server of its type sees, before the others are told. -/
theorem onServerAdded_sent (infos : ServerInfos) {peerInfo : Word}
    (h : IsServer (PeerInfo.getPeerType peerInfo)) :
    ∃ serverInfo : List Word,
      (∀ w, w ∈ serverInfo ↔ ∃ t, Sees (PeerInfo.getPeerType peerInfo) t ∧ w ∈ infos.known t) ∧
      (onServerAdded infos peerInfo).2 =
        ⟨PeerInfo.getChannelIndex peerInfo, peerInfo, 0, ⟨.add, serverInfo⟩⟩ ::
          broadCastServerInfoChanged infos (PeerInfo.getPeerType peerInfo) peerInfo .add := by
  obtain ⟨first, second, hothers, heq⟩ := onServerAdded_others h
  refine ⟨[] ++ inOrder (infos.known .centerserver) ++ inOrder (infos.known first) ++
    inOrder (infos.known second), fun w => ?_, ?_⟩
  · simp only [List.nil_append, List.mem_append, mem_inOrder, Sees, ← hothers.iff]
    constructor
    · rintro ((hw | hw) | hw)
      · exact ⟨_, Or.inl rfl, hw⟩
      · exact ⟨_, Or.inr (Or.inl rfl), hw⟩
      · exact ⟨_, Or.inr (Or.inr rfl), hw⟩
    · rintro ⟨t, rfl | rfl | rfl, hw⟩
      · exact Or.inl (Or.inl hw)
      · exact Or.inl (Or.inr hw)
      · exact Or.inr hw
  · rw [heq, processServerAdded, addServerInfo2Pkt_eq, addServerInfo2Pkt_eq, addServerInfo2Pkt_eq]

theorem mem_known_onServerRemoved {infos : ServerInfos} {peerInfo w : Word} {t : PeerType} :
    w ∈ (onServerRemoved infos peerInfo).1.known t ↔
      w ∈ infos.known t ∧ ¬ (w = peerInfo ∧ PeerInfo.getPeerType peerInfo = t) := by
  have hset : ∀ set : Finset Word, (if set = ∅ then none else some set).getD ∅ = set := by
    intro set
    by_cases hempty : set = ∅
    · rw [if_pos hempty, Option.getD_none, hempty]
    · rw [if_neg hempty, Option.getD_some]
  rw [onServerRemoved, PeerInfo.parse_eq]
  exact mem_known_erase (hset _)

end ServerManagerCenter

end TerraX
