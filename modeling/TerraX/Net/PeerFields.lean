import TerraX.Lib.Run
import TerraX.Net.ChannelIndexes

/-!
# The fields of a channel's peer info

The setters of a channel put their field into a word that holds all three fields. Whatever is
called in whatever order, each getter returns what was last written to its field.

## Main definitions

- `NetChannel.Setter`, `NetChannel.setAll` — calls of the setters
- `NetChannel.Setter.peerType`, `Setter.peerIndex`, `Setter.channelIndex` — what a call writes

## Main results

- `NetChannel.fields_lastWritten` — the getters after calls, and `PeerInfo` on words and fields
- `PeerInfo.int32_serialize`, `NetChannel.int32_setPeerType` — no signed sum overflows
-/

namespace TerraX

open Memory

namespace NetChannel

/-- A call of a setter. -/
inductive Setter
  | setPeerType (peerType : PeerType)
  | setPeerIndex (peerIndex : UInt8)
  | setChannelIndex (idx : UInt16)
  | setPeerInfo (peerInfo : Word)
deriving DecidableEq, Repr

/-- The call on a channel. -/
def set (ch : NetChannel) : Setter → NetChannel
  | .setPeerType peerType => ch.setPeerType peerType
  | .setPeerIndex peerIndex => ch.setPeerIndex peerIndex
  | .setChannelIndex idx => ch.setChannelIndex idx
  | .setPeerInfo peerInfo => ch.setPeerInfo peerInfo

/-- Calls one after the other. -/
def setAll (ch : NetChannel) (calls : List Setter) : NetChannel := calls.foldl set ch

namespace Setter

/-- The peer type that a call writes. That of a word is its top byte. -/
def peerType : Setter → Option PeerType
  | setPeerType peerType => some peerType
  | setPeerInfo peerInfo => some ⟨.ofNat (peerInfo.toNat / 2 ^ 24)⟩
  | _ => none

/-- The peer index that a call writes. That of a word is the byte below the top one. -/
def peerIndex : Setter → Option UInt8
  | setPeerIndex peerIndex => some peerIndex
  | setPeerInfo peerInfo => some (.ofNat (peerInfo.toNat / 2 ^ 16 % 2 ^ 8))
  | _ => none

/-- The channel index that a call writes. That of a word is its low half. -/
def channelIndex : Setter → Option UInt16
  | setChannelIndex idx => some idx
  | setPeerInfo peerInfo => some (.ofNat (peerInfo.toNat % 2 ^ 16))
  | _ => none

end Setter

end NetChannel

/-! ### The fields of a word -/

namespace PeerInfo

theorem getPeerType_eq (w : Word) : getPeerType w = ⟨.ofNat (w.toNat / 2 ^ 24)⟩ := by
  apply PeerType.ext
  rw [← getPeerType_toNat, UInt8.ofNat_toNat]

theorem getPeerIndex_eq (w : Word) : getPeerIndex w = .ofNat (w.toNat / 2 ^ 16 % 2 ^ 8) := by
  rw [← getPeerIndex_toNat, UInt8.ofNat_toNat]

theorem getChannelIndex_eq_ofNat (w : Word) : getChannelIndex w = .ofNat (w.toNat % 2 ^ 16) := by
  rw [← getChannelIndex_toNat, UInt16.ofNat_toNat]

/-- The signed sum of `serialize`, whose shifted peer type may be negative, does not overflow. -/
theorem int32_serialize (pi : PeerInfo) : int32 pi.serialize.toNat =
    int32 (pi.peerType.code.toNat * 2 ^ 24 : ℕ) + (pi.peerIndex.toNat * 2 ^ 16 : ℕ) +
      pi.channelIndex.toNat := by
  have ht := pi.peerType.code.toNat_lt
  have hi := pi.peerIndex.toNat_lt
  have hc := pi.channelIndex.toNat_lt
  rw [serialize_toNat]
  unfold int32
  omega

end PeerInfo

namespace NetChannel

/-- Neither does the signed sum of `SetPeerType`. -/
theorem int32_setPeerType (ch : NetChannel) (t : PeerType) :
    int32 (ch.setPeerType t).peerInfo.toNat =
      int32 (t.code.toNat * 2 ^ 24 : ℕ) + (ch.peerInfo &&& 0x00FFFFFF).toNat := by
  have hmask : (ch.peerInfo &&& 0x00FFFFFF).toNat = ch.peerInfo.toNat % 2 ^ 24 :=
    Nat.and_two_pow_sub_one_eq_mod _ 24
  rw [peerInfo_setPeerType, PeerInfo.int32_serialize, getPeerIndex, PeerInfo.getPeerIndex_toNat,
    getChannelIndex, PeerInfo.getChannelIndex_toNat, hmask]
  dsimp only
  omega

/-! ### One call -/

theorem getPeerType_set (ch : NetChannel) (call : Setter) :
    (ch.set call).getPeerType = call.peerType.getD ch.getPeerType := by
  cases call with
  | setPeerType t =>
    rw [set, getPeerType, peerInfo_setPeerType, PeerInfo.getPeerType_serialize]
    rfl
  | setPeerIndex i =>
    rw [set, getPeerType, peerInfo_setPeerIndex, PeerInfo.getPeerType_serialize]
    rfl
  | setChannelIndex idx =>
    rw [set, getPeerType, peerInfo_setChannelIndex, PeerInfo.getPeerType_serialize]
    rfl
  | setPeerInfo w => exact PeerInfo.getPeerType_eq w

theorem getPeerIndex_set (ch : NetChannel) (call : Setter) :
    (ch.set call).getPeerIndex = call.peerIndex.getD ch.getPeerIndex := by
  cases call with
  | setPeerType t =>
    rw [set, getPeerIndex, peerInfo_setPeerType, PeerInfo.getPeerIndex_serialize]
    rfl
  | setPeerIndex i =>
    rw [set, getPeerIndex, peerInfo_setPeerIndex, PeerInfo.getPeerIndex_serialize]
    rfl
  | setChannelIndex idx =>
    rw [set, getPeerIndex, peerInfo_setChannelIndex, PeerInfo.getPeerIndex_serialize]
    rfl
  | setPeerInfo w => exact PeerInfo.getPeerIndex_eq w

theorem getChannelIndex_set (ch : NetChannel) (call : Setter) :
    (ch.set call).getChannelIndex = call.channelIndex.getD ch.getChannelIndex := by
  cases call with
  | setPeerType t => exact getChannelIndex_setPeerType ch t
  | setPeerIndex i => exact getChannelIndex_setPeerIndex ch i
  | setChannelIndex idx => exact getChannelIndex_setChannelIndex ch idx
  | setPeerInfo w => exact PeerInfo.getChannelIndex_eq_ofNat w

/-! ### Calls one after the other -/

/-- What the getters return after calls of the setters. -/
structure Returns (ch : NetChannel) (calls : List Setter) : Prop where
  peerType : (ch.setAll calls).getPeerType =
    Run.lastWritten Setter.peerType ch.getPeerType calls
  peerIndex : (ch.setAll calls).getPeerIndex =
    Run.lastWritten Setter.peerIndex ch.getPeerIndex calls
  channelIndex : (ch.setAll calls).getChannelIndex =
    Run.lastWritten Setter.channelIndex ch.getChannelIndex calls

theorem setAll_returns (ch : NetChannel) (calls : List Setter) : ch.Returns calls where
  peerType := Run.foldl_lastWritten getPeerType_set ch calls
  peerIndex := Run.foldl_lastWritten getPeerIndex_set ch calls
  channelIndex := Run.foldl_lastWritten getChannelIndex_set ch calls

end NetChannel

/-- `parse` and `serialize` are inverse, and the static getters read what `parse` does. -/
structure PeerInfo.Agrees (w : Word) (pi : PeerInfo) : Prop where
  parse_serialize : PeerInfo.parse pi.serialize = pi
  serialize_parse : (PeerInfo.parse w).serialize = w
  getPeerType : PeerInfo.getPeerType w = (PeerInfo.parse w).peerType
  getPeerIndex : PeerInfo.getPeerIndex w = (PeerInfo.parse w).peerIndex
  getChannelIndex : PeerInfo.getChannelIndex w = (PeerInfo.parse w).channelIndex

theorem PeerInfo.agrees (w : Word) (pi : PeerInfo) : PeerInfo.Agrees w pi where
  parse_serialize := PeerInfo.parse_serialize pi
  serialize_parse := PeerInfo.serialize_parse w
  getPeerType := rfl
  getPeerIndex := rfl
  getChannelIndex := rfl

/-- No setter disturbs a field of another one, and a peer info is its fields. -/
theorem NetChannel.fields_lastWritten :
    (∀ (ch : NetChannel) (calls : List NetChannel.Setter), ch.Returns calls) ∧
      ∀ (w : Word) (pi : PeerInfo), PeerInfo.Agrees w pi :=
  ⟨NetChannel.setAll_returns, PeerInfo.agrees⟩

end TerraX
