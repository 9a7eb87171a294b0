import TerraX.Lib.Memory
import TerraX.Net.NetDefine
import Mathlib.Logic.Function.Basic

/-!
# Channels and the server that holds them

`NetChannel` and `NetServer`. A channel keeps its peer info as one word and changes
it by masks; the fields of the changed word are read back here. The socket, the
callbacks and the threads are left out, and of the connection only its state stays.

## Main definitions

- `NetChannel`, with its setters and getters
- `NetServer`, with `onConnect`, `removeChannel` and `getChannel`
- `Dispatch` — a packet handed to `PacketDispatcher`

## Main results

- `NetChannel.peerInfo_setPeerType`, `peerInfo_setPeerIndex`, `peerInfo_setChannelIndex` —
  a setter replaces its field and keeps the others
-/

namespace TerraX

open Memory

/-- What `NetChannel::OnMessage` hands to `PacketDispatcher::DeliverPacket`: the low half of
    the peer info, the owner, the message name, and the message as a pointer and a size. -/
structure Dispatch where
  channelIndex : UInt16
  ownerInfo : Word
  packetName : List UInt8
  buffer : List UInt8
  packetMsg : ℕ
  msgSize : ℤ
deriving DecidableEq, Repr

/-- `NetChannel`. -/
structure NetChannel where
  connState : ConnState := .disconnected
  peerInfo : Word := 0
deriving DecidableEq, Repr

namespace NetChannel

/-- `NetChannel::SetPeerType`. -/
def setPeerType (ch : NetChannel) (peerType : PeerType) : NetChannel :=
  { ch with peerInfo := (peerType.code.toUInt32 <<< 24) + (ch.peerInfo &&& 0x00FFFFFF) }

/-- `NetChannel::SetPeerIndex`. -/
def setPeerIndex (ch : NetChannel) (peerIndex : UInt8) : NetChannel :=
  { ch with peerInfo := (peerIndex.toUInt32 <<< 16) + (ch.peerInfo &&& 0xFF00FFFF) }

/-- `NetChannel::SetChannelIndex`. -/
def setChannelIndex (ch : NetChannel) (idx : UInt16) : NetChannel :=
  { ch with peerInfo := (ch.peerInfo &&& 0xFFFF0000) + idx.toUInt32 }

/-- `NetChannel::SetPeerInfo`. -/
def setPeerInfo (ch : NetChannel) (peerInfo : Word) : NetChannel := { ch with peerInfo }

/-- `NetChannel::GetPeerType`. -/
def getPeerType (ch : NetChannel) : PeerType := PeerInfo.getPeerType ch.peerInfo

/-- `NetChannel::GetPeerIndex`. -/
def getPeerIndex (ch : NetChannel) : UInt8 := PeerInfo.getPeerIndex ch.peerInfo

/-- `NetChannel::GetChannelIndex`. -/
def getChannelIndex (ch : NetChannel) : UInt16 := PeerInfo.getChannelIndex ch.peerInfo

/-- `NetChannel::GetPeerInfo`. -/
def getPeerInfo (ch : NetChannel) : Word := ch.peerInfo

/-- `NetChannel::OnMessage`. -/
def onMessage (ch : NetChannel) (ownerInfo : Word) (packetName buffer : List UInt8) (packetMsg : ℕ)
    (msgSize : ℤ) : Dispatch :=
  ⟨ch.peerInfo.toUInt16, ownerInfo, packetName, buffer, packetMsg, msgSize⟩

/-- `NetChannel::SendMsg`: whether the bytes are written. -/
def sendMsg (ch : NetChannel) : Bool := ch.connState == .connected

/-! ### A setter replaces its field -/

theorem peerInfo_setPeerType (ch : NetChannel) (t : PeerType) :
    (ch.setPeerType t).peerInfo =
      PeerInfo.serialize ⟨t, ch.getPeerIndex, ch.getChannelIndex⟩ := by
  have hw := ch.peerInfo.toNat_lt
  have ht := t.code.toNat_lt
  have hmask : ch.peerInfo.toNat &&& 0x00FFFFFF = ch.peerInfo.toNat % 2 ^ 24 :=
    Nat.and_two_pow_sub_one_eq_mod _ 24
  apply UInt32.toNat_inj.mp
  simp only [PeerInfo.serialize_toNat, getPeerIndex, getChannelIndex, PeerInfo.getPeerIndex_toNat,
    PeerInfo.getChannelIndex_toNat]
  simp only [setPeerType, UInt32.toNat_add, UInt32.toNat_shiftLeft, UInt8.toNat_toUInt32,
    UInt32.toNat_and, UInt32.reduceToNat, Nat.reduceMod, Nat.shiftLeft_eq, hmask]
  omega

theorem peerInfo_setPeerIndex (ch : NetChannel) (i : UInt8) :
    (ch.setPeerIndex i).peerInfo =
      PeerInfo.serialize ⟨ch.getPeerType, i, ch.getChannelIndex⟩ := by
  have hw := ch.peerInfo.toNat_lt
  have hi := i.toNat_lt
  have hmask : ch.peerInfo.toNat &&& 0xFF00FFFF =
      ch.peerInfo.toNat / 2 ^ 24 % 2 ^ 8 * 2 ^ 24 + ch.peerInfo.toNat % 2 ^ 16 :=
    BitField.land_around _ 16 8 8
  apply UInt32.toNat_inj.mp
  simp only [PeerInfo.serialize_toNat, getPeerType, getChannelIndex, PeerInfo.getPeerType_toNat,
    PeerInfo.getChannelIndex_toNat]
  simp only [setPeerIndex, UInt32.toNat_add, UInt32.toNat_shiftLeft, UInt8.toNat_toUInt32,
    UInt32.toNat_and, UInt32.reduceToNat, Nat.reduceMod, Nat.shiftLeft_eq, hmask]
  omega

theorem peerInfo_setChannelIndex (ch : NetChannel) (idx : UInt16) :
    (ch.setChannelIndex idx).peerInfo =
      PeerInfo.serialize ⟨ch.getPeerType, ch.getPeerIndex, idx⟩ := by
  have hw := ch.peerInfo.toNat_lt
  have hi := idx.toNat_lt
  have hmask : ch.peerInfo.toNat &&& 0xFFFF0000 =
      ch.peerInfo.toNat / 2 ^ 16 % 2 ^ 16 * 2 ^ 16 := BitField.land_field _ 16 16
  apply UInt32.toNat_inj.mp
  simp only [PeerInfo.serialize_toNat, getPeerType, getPeerIndex, PeerInfo.getPeerType_toNat,
    PeerInfo.getPeerIndex_toNat]
  simp only [setChannelIndex, UInt32.toNat_add, UInt16.toNat_toUInt32, UInt32.toNat_and,
    UInt32.reduceToNat, hmask]
  omega

end NetChannel

/-- `NetServer`: the free channel indexes, first to be used first, and the channels. -/
structure NetServer where
  freeIndexes : List UInt16
  channels : UInt16 → Option NetChannel

namespace NetServer

/-- `NetServer::NetServer`. -/
def new (maxConns : UInt16) : NetServer where
  freeIndexes := (List.range' 1 (maxConns.toNat - 1)).map UInt16.ofNat
  channels := fun _ => none

/-- `NetServer::GetChannel(uint16_t)`. -/
def getChannel (net : NetServer) (channelIndex : UInt16) : Option NetChannel :=
  net.channels channelIndex

/-- The server with another state of the channel at an index. -/
def setChannel (net : NetServer) (channelIndex : UInt16) (channel : NetChannel) : NetServer :=
  { net with channels := Function.update net.channels channelIndex (some channel) }

/-- `NetServer::OnConnect`: the index of the new channel, if one was free. -/
def onConnect (net : NetServer) : NetServer × Option UInt16 :=
  match net.freeIndexes with
  | [] => (net, none)
  | idx :: freeIndexes =>
    let channel := NetChannel.setChannelIndex { connState := .connected } idx
    (⟨freeIndexes, Function.update net.channels idx (some channel)⟩, some idx)

/-- `NetServer::RemoveChannel`. -/
def removeChannel (build : Build) (net : NetServer) (channel : NetChannel) :
    Except Fault NetServer := do
  check build (channel.connState = .disconnected)
  check build (net.getChannel channel.getChannelIndex).isSome
  return ⟨net.freeIndexes ++ [channel.getChannelIndex],
    Function.update net.channels channel.getChannelIndex none⟩

/-- Free indexes are free and listed once, and no channel has the index 0. -/
structure Indexed (net : NetServer) : Prop where
  nodup : net.freeIndexes.Nodup
  free : ∀ c ∈ net.freeIndexes, c ≠ 0 ∧ net.getChannel c = none
  used : ∀ c channel, net.getChannel c = some channel → c ≠ 0

theorem new_indexed (maxConns : UInt16) : (new maxConns).Indexed := by
  have hmax := maxConns.toNat_lt
  have hmem : ∀ i ∈ List.range' 1 (maxConns.toNat - 1),
      1 ≤ i ∧ (UInt16.ofNat i).toNat = i := by
    intro i hi
    obtain ⟨hpos, hlt⟩ := List.mem_range'_1.mp hi
    have hsize : UInt16.size = 65536 := rfl
    exact ⟨hpos, UInt16.toNat_ofNat_of_lt (by omega)⟩
  refine ⟨List.Nodup.map_on ?_ (List.nodup_range' ..), fun c hc => ?_, fun c channel h => nomatch h⟩
  · intro i hi j hj heq
    have heq := congrArg UInt16.toNat heq
    rwa [(hmem i hi).2, (hmem j hj).2] at heq
  · obtain ⟨i, hi, rfl⟩ := List.mem_map.mp hc
    refine ⟨?_, rfl⟩
    intro hzero
    have hpos := (hmem i hi).1
    have hval := congrArg UInt16.toNat hzero
    rw [(hmem i hi).2] at hval
    exact absurd hval (Nat.ne_of_gt hpos)

/-- A connection is refused, or gets the first free index. -/
theorem onConnect_cases (net : NetServer) :
    net.onConnect = (net, none) ∨
    ∃ idx freeIndexes, net.freeIndexes = idx :: freeIndexes ∧ net.onConnect =
      (⟨freeIndexes, Function.update net.channels idx
        (some (NetChannel.setChannelIndex { connState := .connected } idx))⟩, some idx) := by
  unfold onConnect
  cases hfree : net.freeIndexes with
  | nil => exact Or.inl rfl
  | cons idx freeIndexes => exact Or.inr ⟨idx, freeIndexes, rfl, rfl⟩

/-- An index that is given out is no longer free. -/
theorem Indexed.connect {net : NetServer} (h : net.Indexed) {idx : UInt16}
    {freeIndexes : List UInt16} (hfree : net.freeIndexes = idx :: freeIndexes)
    (channel : NetChannel) :
    (⟨freeIndexes, Function.update net.channels idx (some channel)⟩ : NetServer).Indexed := by
  obtain ⟨hnew, hrest⟩ := List.nodup_cons.mp (hfree ▸ h.nodup)
  refine ⟨hrest, fun c hc => ?_, fun c channel' hc => ?_⟩
  · have hne : c ≠ idx := fun heq => hnew (heq ▸ hc)
    obtain ⟨hpos, hnone⟩ := h.free c (by rw [hfree]; exact List.mem_cons_of_mem _ hc)
    exact ⟨hpos, (Function.update_of_ne hne ..).trans hnone⟩
  · by_cases hne : c = idx
    · rw [hne]
      exact (h.free idx (by rw [hfree]; exact List.mem_cons_self)).1
    · exact h.used c channel' ((Function.update_of_ne hne ..).symm.trans hc)

theorem getChannel_setChannel (net : NetServer) (c c' : UInt16) (channel : NetChannel) :
    (net.setChannel c channel).getChannel c' =
      if c' = c then some channel else net.getChannel c' := Function.update_apply ..

theorem Indexed.setChannel {net : NetServer} (h : net.Indexed) {c : UInt16} {channel : NetChannel}
    (hc : net.getChannel c = some channel) (channel' : NetChannel) :
    (net.setChannel c channel').Indexed := by
  refine ⟨h.nodup, fun k hk => ?_, fun k found hk => ?_⟩
  · obtain ⟨hpos, hnone⟩ := h.free k hk
    have hne : k ≠ c := by
      rintro rfl
      rw [hc] at hnone
      cases hnone
    rw [getChannel_setChannel, if_neg hne]
    exact ⟨hpos, hnone⟩
  · rw [getChannel_setChannel] at hk
    by_cases hkc : k = c
    · rw [hkc]
      exact h.used c channel hc
    · rw [if_neg hkc] at hk
      exact h.used k found hk

end NetServer

end TerraX
