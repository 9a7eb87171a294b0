import TerraX.Lib.BitField
import Mathlib.Data.UInt

/-!
# Peer types, peer infos and channel states

`NetDefine.h`. A peer info is a 32-bit word: the peer type in the top byte, the
peer index in the next one, and the channel index in the low half.

## Main definitions

- `PeerType` — `PeerType_t`
- `PeerInfo`, `PeerInfo.parse`, `PeerInfo.serialize`
- `ConnState` — `ConnState_t`

## Main results

- `PeerInfo.parse_serialize`, `PeerInfo.serialize_parse` — the two are inverse
-/

namespace TerraX

/-- An `int32_t` that is only compared and cut into bit fields, as its 32 bits. -/
abbrev Word := UInt32

/-- `PeerType_t`. The code casts unchecked bytes to this enumeration, so its
    values are all bytes and not only the named ones. -/
@[ext] structure PeerType where
  code : UInt8
deriving DecidableEq, Repr

namespace PeerType

def undefine : PeerType := ⟨0⟩
def client : PeerType := ⟨1⟩
def centerserver : PeerType := ⟨2⟩
def gateserver : PeerType := ⟨3⟩
def gameserver : PeerType := ⟨4⟩
def loginserver : PeerType := ⟨5⟩
def worldserver : PeerType := ⟨6⟩
def peerCount : PeerType := ⟨7⟩

end PeerType

/-- `ConnState_t`. -/
inductive ConnState
  | disconnected
  | connecting
  | connected
  | disconnecting
deriving DecidableEq, Repr

/-- `PeerInfo`. -/
structure PeerInfo where
  peerType : PeerType := .undefine
  peerIndex : UInt8 := 0
  channelIndex : UInt16 := 0
deriving DecidableEq, Repr

namespace PeerInfo

/-- `PeerInfo::parse`. -/
def parse (peerInfo : Word) : PeerInfo where
  peerType := ⟨((peerInfo &&& 0xFF000000) >>> 24).toUInt8⟩
  peerIndex := ((peerInfo &&& 0x00FF0000) >>> 16).toUInt8
  channelIndex := (peerInfo &&& 0x0000FFFF).toUInt16

/-- `PeerInfo::serialize`. -/
def serialize (pi : PeerInfo) : Word :=
  (pi.peerType.code.toUInt32 <<< 24) + (pi.peerIndex.toUInt32 <<< 16) + pi.channelIndex.toUInt32

/-- The static `PeerInfo::GetPeerType`. -/
def getPeerType (peerInfo : Word) : PeerType := ⟨((peerInfo &&& 0xFF000000) >>> 24).toUInt8⟩

/-- The static `PeerInfo::GetPeerIndex`. -/
def getPeerIndex (peerInfo : Word) : UInt8 := ((peerInfo &&& 0x00FF0000) >>> 16).toUInt8

/-- The static `PeerInfo::GetChannelIndex`. -/
def getChannelIndex (peerInfo : Word) : UInt16 := (peerInfo &&& 0x0000FFFF).toUInt16

/-! ### The fields as numbers -/

theorem getPeerType_toNat (w : Word) : (getPeerType w).code.toNat = w.toNat / 2 ^ 24 := by
  have hw := w.toNat_lt
  have hmask : w.toNat &&& 0xFF000000 = w.toNat / 2 ^ 24 % 2 ^ 8 * 2 ^ 24 :=
    BitField.land_field w.toNat 24 8
  simp only [getPeerType, UInt32.toNat_toUInt8, UInt32.toNat_shiftRight, UInt32.toNat_and,
    UInt32.reduceToNat, Nat.reduceMod, Nat.shiftRight_eq_div_pow, hmask]
  omega

theorem getPeerIndex_toNat (w : Word) : (getPeerIndex w).toNat = w.toNat / 2 ^ 16 % 2 ^ 8 := by
  have hmask : w.toNat &&& 0x00FF0000 = w.toNat / 2 ^ 16 % 2 ^ 8 * 2 ^ 16 :=
    BitField.land_field w.toNat 16 8
  simp only [getPeerIndex, UInt32.toNat_toUInt8, UInt32.toNat_shiftRight, UInt32.toNat_and,
    UInt32.reduceToNat, Nat.reduceMod, Nat.shiftRight_eq_div_pow, hmask]
  omega

theorem getChannelIndex_toNat (w : Word) : (getChannelIndex w).toNat = w.toNat % 2 ^ 16 := by
  have hmask : w.toNat &&& 0x0000FFFF = w.toNat % 2 ^ 16 := Nat.and_two_pow_sub_one_eq_mod _ 16
  simp only [getChannelIndex, UInt32.toNat_toUInt16, UInt32.toNat_and, UInt32.reduceToNat, hmask]
  omega

/-- The mask does nothing that the conversion does not do. -/
theorem getChannelIndex_eq (w : Word) : getChannelIndex w = w.toUInt16 := by
  apply UInt16.toNat_inj.mp
  rw [getChannelIndex_toNat, UInt32.toNat_toUInt16]

theorem serialize_toNat (pi : PeerInfo) :
    pi.serialize.toNat =
      pi.peerType.code.toNat * 2 ^ 24 + pi.peerIndex.toNat * 2 ^ 16 + pi.channelIndex.toNat := by
  have ht := pi.peerType.code.toNat_lt
  have hi := pi.peerIndex.toNat_lt
  have hc := pi.channelIndex.toNat_lt
  simp only [serialize, UInt32.toNat_add, UInt32.toNat_shiftLeft, UInt8.toNat_toUInt32,
    UInt16.toNat_toUInt32, UInt32.reduceToNat, Nat.reduceMod, Nat.shiftLeft_eq]
  omega

/-- Words are determined by their three fields. -/
theorem word_ext {v w : Word} (ht : getPeerType v = getPeerType w)
    (hi : getPeerIndex v = getPeerIndex w) (hc : getChannelIndex v = getChannelIndex w) :
    v = w := by
  have ht' := congrArg (fun t => t.code.toNat) ht
  have hi' := congrArg UInt8.toNat hi
  have hc' := congrArg UInt16.toNat hc
  simp only [getPeerType_toNat, getPeerIndex_toNat, getChannelIndex_toNat] at ht' hi' hc'
  apply UInt32.toNat_inj.mp
  omega

@[simp] theorem getPeerType_serialize (pi : PeerInfo) : getPeerType pi.serialize = pi.peerType := by
  have hi := pi.peerIndex.toNat_lt
  have hc := pi.channelIndex.toNat_lt
  apply PeerType.ext
  apply UInt8.toNat_inj.mp
  rw [getPeerType_toNat, serialize_toNat]
  omega

@[simp] theorem getPeerIndex_serialize (pi : PeerInfo) : getPeerIndex pi.serialize = pi.peerIndex := by
  have hi := pi.peerIndex.toNat_lt
  have hc := pi.channelIndex.toNat_lt
  apply UInt8.toNat_inj.mp
  rw [getPeerIndex_toNat, serialize_toNat]
  omega

@[simp] theorem getChannelIndex_serialize (pi : PeerInfo) :
    getChannelIndex pi.serialize = pi.channelIndex := by
  have hc := pi.channelIndex.toNat_lt
  apply UInt16.toNat_inj.mp
  rw [getChannelIndex_toNat, serialize_toNat]
  omega

/-- `parse` and the static getters read the same fields. -/
theorem parse_eq (w : Word) : parse w = ⟨getPeerType w, getPeerIndex w, getChannelIndex w⟩ := rfl

@[simp] theorem parse_serialize (pi : PeerInfo) : parse pi.serialize = pi := by
  rw [parse_eq, getPeerType_serialize, getPeerIndex_serialize, getChannelIndex_serialize]

@[simp] theorem serialize_parse (w : Word) : (parse w).serialize = w := by
  apply word_ext
  · rw [getPeerType_serialize]; rfl
  · rw [getPeerIndex_serialize]; rfl
  · rw [getChannelIndex_serialize]; rfl

end PeerInfo

end TerraX
