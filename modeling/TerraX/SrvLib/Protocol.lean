import TerraX.Lib.Adler32
import TerraX.Net.Packet
import TerraX.Net.PacketDispatcher
import TerraX.SrvLib.ServerManager
import Mathlib.Algebra.Order.BigOperators.Group.List

/-!
# The messages of clients and servers

`client_server.proto` and `server_server.proto`: the message types that the gate, center and
world servers handle or send, with their fields. A string is the list of its bytes.
`PktAccountLoginReq` is left out, since none of these servers handles or sends it.

## Main definitions

- `PacketType`, with the descriptor and the fields of each type
- `PacketMsg` — a message with its type
- `Env` — the platform of a server, and the generated code that it is linked with
- `Dispatch.Holds` — a packet from which a message can be read
- `shortEnv` — an environment for messages whose fields are short

## Main results

- `PacketDispatcher.deliverPacket_debug_iff` — when a debug build delivers a packet
-/

namespace TerraX

open Bytes Memory

/-- The message types of the packages `C2SPacket` and `S2SPacket`. -/
inductive PacketType
  | pktGameLoginReq
  | pktRoleListAck
  | pktRegisterReq
  | pktRegisterAck
  | pktServerSync
  | pktEnterPermissionReq
  | pktEnterPermissionAck
deriving DecidableEq, Repr

/-- `PktGameLoginReq`. -/
structure PktGameLoginReq where
  accountName : List UInt8 := []
  sessionKey : List UInt8 := []
  ipAddress : List UInt8 := []
deriving DecidableEq, Repr

/-- `PktRoleListAck`. -/
structure PktRoleListAck where
  roleNameList : List (List UInt8) := []
deriving DecidableEq, Repr

/-- `PktEnterPermissionReq`. -/
structure PktEnterPermissionReq where
  accountName : List UInt8 := []
  sessionKey : List UInt8 := []
deriving DecidableEq, Repr

/-- `PktEnterPermissionAck_Result`. The field of the message may hold other numbers, too. -/
inductive CheckResult
  | ok
  | keyInvalid
  | unnamed (value : Word)
deriving DecidableEq, Repr

namespace PacketType

/-- The descriptor of a message type. -/
def descriptor : PacketType → Descriptor
  | pktGameLoginReq => ⟨ascii "C2SPacket", ascii "PktGameLoginReq"⟩
  | pktRoleListAck => ⟨ascii "C2SPacket", ascii "PktRoleListAck"⟩
  | pktRegisterReq => ⟨ascii "S2SPacket", ascii "PktRegisterReq"⟩
  | pktRegisterAck => ⟨ascii "S2SPacket", ascii "PktRegisterAck"⟩
  | pktServerSync => ⟨ascii "S2SPacket", ascii "PktServerSync"⟩
  | pktEnterPermissionReq => ⟨ascii "S2SPacket", ascii "PktEnterPermissionReq"⟩
  | pktEnterPermissionAck => ⟨ascii "S2SPacket", ascii "PktEnterPermissionAck"⟩

/-- The fields of a message: those of the structure of its name, `server_info` of a
    `PktRegisterAck`, and `check_result` of a `PktEnterPermissionAck`. -/
def Fields : PacketType → Type
  | pktGameLoginReq => PktGameLoginReq
  | pktRoleListAck => PktRoleListAck
  | pktRegisterReq => Unit
  | pktRegisterAck => Word
  | pktServerSync => PktServerSync
  | pktEnterPermissionReq => PktEnterPermissionReq
  | pktEnterPermissionAck => CheckResult

/-- No packet name names two message types. -/
theorem eq_of_named {t t' : PacketType} {packetName : List UInt8}
    (h : t.descriptor.Named packetName) (h' : t'.descriptor.Named packetName) : t = t' := by
  have hdistinct : ∀ t t' : PacketType, t ≠ t' →
      t.descriptor.name ≠ t'.descriptor.name ∧ t.descriptor.name ≠ t'.descriptor.fullName ∧
      t.descriptor.fullName ≠ t'.descriptor.fullName := by
    intro t t'
    cases t <;> cases t' <;> decide
  by_contra hne
  obtain ⟨hnn, hnf, hff⟩ := hdistinct t t' hne
  rcases h with h | h <;> rcases h' with h' | h'
  · exact hnn (h.trans h'.symm)
  · exact hnf (h.trans h'.symm)
  · exact (hdistinct t' t (Ne.symm hne)).2.1 (h'.trans h.symm)
  · exact hff (h.trans h'.symm)

end PacketType

/-- A message with its type. -/
structure PacketMsg where
  type : PacketType
  fields : type.Fields

/-- The platform of a server, and what it is linked with: zlib, and the generated code that
    reads a message from a buffer and writes it into one. -/
structure Env where
  build : Build
  host : Endian
  adler32 : List UInt8 → UInt32
  heap : ℕ → UInt8
  parse : (t : PacketType) → List UInt8 → ℕ → ℤ → Option t.Fields
  serialize : PacketMsg → List UInt8

/-- What the constructors of the packets use of a message. -/
def Env.message (env : Env) (msg : PacketMsg) : Message :=
  ⟨msg.type.descriptor.name, env.serialize msg⟩

/-- The generated code reads a message back where it has been written. -/
def Env.Reads (env : Env) (msg : PacketMsg) : Prop :=
  ∀ buffer ptr, read buffer ptr (env.serialize msg).length = .ok (env.serialize msg) →
    env.parse msg.type buffer ptr (env.serialize msg).length = some msg.fields

/-- The packet has the name of a message type, and a message of that type can be read from it. -/
def Dispatch.Holds (packet : Dispatch) (env : Env) (t : PacketType) (msg : t.Fields) : Prop :=
  t.descriptor.Named packet.packetName ∧
    env.parse t packet.buffer packet.packetMsg packet.msgSize = some msg

/-- It is handed to the handler of this type, if there is no second one. -/
theorem Dispatch.Holds.deliverPacket {σ : Type} {env : Env} {packet : Dispatch}
    {callBacks : List (CallBack PacketType.Fields σ)} (it : CallBack PacketType.Fields σ)
    {msg : it.packetType.Fields} (h : packet.Holds env it.packetType msg)
    (hnodup : (callBacks.map CallBack.packetType).Nodup) (hit : it ∈ callBacks) (s : σ) :
    PacketDispatcher.deliverPacket env.build PacketType.descriptor env.parse callBacks packet s =
      it.run packet.channelIndex packet.ownerInfo msg s := by
  refine PacketDispatcher.deliverPacket_of_named env.build PacketType.descriptor env.parse hit h.1
    ?_ h.2 s
  intro it' hit' hnamed
  exact List.inj_on_of_nodup_map hnodup hit' hit (PacketType.eq_of_named hnamed h.1)

/-- A debug build returns exactly if there is a handler for the packet, it can read the message, and
    it returns. -/
theorem PacketDispatcher.deliverPacket_debug_iff {σ : Type} {env : Env} (hdebug : env.build = .debug)
    {callBacks : List (CallBack PacketType.Fields σ)}
    (hnodup : (callBacks.map CallBack.packetType).Nodup) (packet : Dispatch) (s : σ) :
    (∃ s', deliverPacket env.build PacketType.descriptor env.parse callBacks packet s = .ok s') ↔
      ∃ it ∈ callBacks, ∃ msg, packet.Holds env it.packetType msg ∧
        ∃ s', it.run packet.channelIndex packet.ownerInfo msg s = .ok s' := by
  constructor
  · rintro ⟨s', h⟩
    rw [hdebug] at h
    obtain ⟨it, hit, msg, hnamed, hmsg, hrun⟩ :=
      deliverPacket_debug PacketType.descriptor env.parse h
    exact ⟨it, hit, msg, ⟨hnamed, hmsg⟩, s', hrun⟩
  · rintro ⟨it, hit, msg, hholds, s', hrun⟩
    exact ⟨s', (hholds.deliverPacket it hnodup hit s).trans hrun⟩

/-! ### Short messages -/

/-- An element of a string field, where the length takes one byte. -/
def stringElem (number : UInt8) (s : List UInt8) : List UInt8 :=
  (number * 8 + 2) :: s.length.toUInt8 :: s

/-- A string field that is not repeated: an empty one is left out. -/
def stringField (number : UInt8) (s : List UInt8) : List UInt8 :=
  if s = [] then [] else stringElem number s

/-- The fields of a message, with their tags. -/
def fieldsOf : ℕ → List UInt8 → List (UInt8 × List UInt8)
  | fuel + 1, tag :: size :: rest =>
    (tag, rest.take size.toNat) :: fieldsOf fuel (rest.drop size.toNat)
  | _, _ => []

/-- The last value of a field. -/
def fieldOf (number : UInt8) (bytes : List UInt8) : List UInt8 :=
  (((fieldsOf bytes.length bytes).filter (·.1 = number * 8 + 2)).getLast?.map Prod.snd).getD []

/-- A field takes two bytes besides its value. -/
def fieldSize (field : UInt8 × List UInt8) : ℕ := field.2.length + 2

theorem sum_fieldsOf_le (fuel : ℕ) (bytes : List UInt8) :
    ((fieldsOf fuel bytes).map fieldSize).sum ≤ bytes.length := by
  induction fuel generalizing bytes with
  | zero => exact Nat.zero_le _
  | succ fuel ih =>
    match bytes with
    | [] => exact Nat.zero_le _
    | [_] => exact Nat.zero_le _
    | tag :: size :: rest =>
      have hrest := ih (rest.drop size.toNat)
      rw [fieldsOf, List.map_cons, List.sum_cons, fieldSize, List.length_take]
      rw [List.length_drop] at hrest
      simp only [List.length_cons]
      omega

/-- What is read of a field takes no more than all fields of its number. -/
theorem length_stringField_le (number : UInt8) (bytes : List UInt8) :
    (stringField number (fieldOf number bytes)).length ≤
      (((fieldsOf bytes.length bytes).filter (·.1 = number * 8 + 2)).map fieldSize).sum := by
  rw [fieldOf]
  cases hlast : ((fieldsOf bytes.length bytes).filter (·.1 = number * 8 + 2)).getLast? with
  | none => exact Nat.zero_le _
  | some field =>
    have hmem := List.mem_map_of_mem (f := fieldSize) (List.mem_of_getLast? hlast)
    refine le_trans ?_ (List.le_sum_of_mem hmem)
    change (stringField number field.2).length ≤ field.2.length + 2
    rw [stringField]
    split
    · exact Nat.zero_le _
    · exact le_rfl

/-- What two fields take of a message. -/
theorem sum_filter_add_sum_filter_le {tag tag' : UInt8} (hne : tag ≠ tag')
    (fields : List (UInt8 × List UInt8)) :
    ((fields.filter (·.1 = tag)).map fieldSize).sum +
      ((fields.filter (·.1 = tag')).map fieldSize).sum ≤ (fields.map fieldSize).sum := by
  induction fields with
  | nil => exact le_rfl
  | cons field fields ih =>
    rw [List.map_cons, List.sum_cons]
    by_cases htag : field.1 = tag
    · have htag' : ¬ field.1 = tag' := htag ▸ hne
      rw [List.filter_cons_of_pos (by simpa using htag), List.map_cons, List.sum_cons,
        List.filter_cons_of_neg (by simpa using htag')]
      omega
    · rw [List.filter_cons_of_neg (by simpa using htag)]
      by_cases htag' : field.1 = tag'
      · rw [List.filter_cons_of_pos (by simpa using htag'), List.map_cons, List.sum_cons]
        omega
      · rw [List.filter_cons_of_neg (by simpa using htag')]
        omega

/-- Two fields that are read of a message are together no longer than the message. -/
theorem length_stringFields_le (bytes : List UInt8) :
    (stringField 1 (fieldOf 1 bytes)).length + (stringField 2 (fieldOf 2 bytes)).length ≤
      bytes.length := by
  have h1 := length_stringField_le 1 bytes
  have h2 := length_stringField_le 2 bytes
  have hboth := sum_filter_add_sum_filter_le (show (1 * 8 + 2 : UInt8) ≠ 2 * 8 + 2 by decide)
    (fieldsOf bytes.length bytes)
  have hall := sum_fieldsOf_le bytes.length bytes
  omega

/-- The body of a message with short names. -/
def shortBody : PacketMsg → List UInt8
  | ⟨.pktGameLoginReq, (req : PktGameLoginReq)⟩ =>
    stringField 1 req.accountName ++ stringField 2 req.sessionKey ++ stringField 3 req.ipAddress
  | ⟨.pktEnterPermissionReq, (req : PktEnterPermissionReq)⟩ =>
    stringField 1 req.accountName ++ stringField 2 req.sessionKey
  | ⟨.pktRoleListAck, (ack : PktRoleListAck)⟩ => (ack.roleNameList.map (stringElem 1)).flatten
  | ⟨.pktEnterPermissionAck, CheckResult.keyInvalid⟩ => [8, 1]
  | _ => []

/-- What is read from it. -/
def shortFields : (t : PacketType) → List UInt8 → Option t.Fields
  | .pktGameLoginReq, bytes =>
    some (⟨fieldOf 1 bytes, fieldOf 2 bytes, fieldOf 3 bytes⟩ : PktGameLoginReq)
  | .pktEnterPermissionReq, bytes =>
    some (⟨fieldOf 1 bytes, fieldOf 2 bytes⟩ : PktEnterPermissionReq)
  | .pktRoleListAck, bytes =>
    some (⟨(fieldsOf bytes.length bytes).map Prod.snd⟩ : PktRoleListAck)
  | .pktEnterPermissionAck, bytes =>
    if bytes = [] then some CheckResult.ok
    else if bytes = [8, 1] then some CheckResult.keyInvalid
    else none
  | .pktRegisterReq, [] => some ()
  | .pktServerSync, [] => some (⟨.add, []⟩ : PktServerSync)
  | _, _ => none

/-- An environment whose messages have short names. -/
def shortEnv : Env where
  build := .debug
  host := .little
  adler32 := Adler32.adler32
  heap := fun _ => 0
  serialize := shortBody
  parse := fun t buffer packetMsg msgSize => shortFields t (slice buffer packetMsg msgSize.toNat)

theorem shortEnv_reads {msg : PacketMsg} (h : shortFields msg.type (shortBody msg) = some msg.fields) :
    shortEnv.Reads msg := by
  intro buffer ptr hread
  have hroom := read_ok_iff.mp ⟨_, hread⟩
  rw [read_ok hroom] at hread
  have hslice : slice buffer ptr (shortBody msg).length = shortBody msg := Except.ok.inj hread
  change shortFields msg.type (slice buffer ptr (shortBody msg).length) = some msg.fields
  rw [hslice, h]

end TerraX
