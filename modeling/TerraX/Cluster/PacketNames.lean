import TerraX.Client.PacketCorruption
import TerraX.Net.PacketDispatcher
import TerraX.SrvLib.NetEvents

/-!
# The handler that a packet reaches

Both constructors of packets write the short name of the message type; a dispatcher looks the
name up among the short and the full names of the types that were registered, and takes the
first one that its hash map finds. So a message reaches the handler of its own type, in every
order of the map, exactly if no other registered type has its short name for a name.

## Main definitions

- `Dispatch.Decoded` — a message as any receiver of it hands it to the dispatcher

## Main results

- `delivered_to_type_iff` — any registry, any order, both packet classes
- `delivered_to_other_package` — two packages with a type of the same short name
-/

namespace TerraX

open Bytes Memory PacketDispatcher

/-- A packet with a message is handed to the dispatcher: by a server, from another server; by a
    client, from its gate; by a gate, from a client. -/
inductive Dispatch.Decoded (build : Build) (adler32 : List UInt8 → UInt32) (heap : ℕ → UInt8)
    (host : Endian) (msg : Message) : Dispatch → Prop
  | server {n : ℕ} {pkt rcv : PacketS} {channel : NetChannel} {packetName : List UInt8}
      {packet : Dispatch} (hpkt : PacketS.BuiltFrom build adler32 heap host msg n pkt)
      (hframe : IsFrame pkt.sentBytes)
      (hvalid : (PacketS.ofFrame pkt.sentBytes).isValid adler32 = .ok (rcv, true))
      (hname : rcv.getPacketName = .ok packetName)
      (hpacket : rcv.onMessage channel packetName = .ok packet) :
      Decoded build adler32 heap host msg packet
  | client {pkt : PacketC} {channel : NetChannel} {ownerInfo : Word} {packet : Dispatch}
      (hpkt : PacketC.BuiltFrom build adler32 heap msg pkt)
      (hpacket : (PacketC.ofFrame pkt.buffer).onMessage channel ownerInfo = .ok packet) :
      Decoded build adler32 heap host msg packet
  | gate {pkt : PacketC} {heap' : ℕ → UInt8} {channel : NetChannel} {ownerInfo : Word}
      {packet : Dispatch} (hpkt : PacketC.BuiltFrom build adler32 heap msg pkt)
      (hpacket : (PacketC.ofClientFrame heap' pkt.buffer).onMessage channel ownerInfo = .ok packet) :
      Decoded build adler32 heap host msg packet

/-- The dispatcher is given the name and the body of a message. -/
structure Dispatch.Shows (packet : Dispatch) (msg : Message) : Prop where
  name : packet.packetName = msg.name
  size : packet.msgSize = msg.body.length
  body : read packet.buffer packet.packetMsg msg.body.length = .ok msg.body

section Decoding

variable {build : Build} {adler32 : List UInt8 → UInt32} {heap : ℕ → UInt8} {host : Endian}
  {msg : Message} (hname : msg.name.length ≤ 254) (hbody : msg.body.length ≤ maxMsgSize)

/-- A server packet that carries a message. -/
theorem PacketS.Carries.shows {rcv : PacketS} {owner : Word} {dests : List Word}
    (h : rcv.Carries host msg owner dests) {channel : NetChannel} {packet : Dispatch}
    (hpacket : rcv.onMessage channel msg.name = .ok packet) : packet.Shows msg := by
  obtain ⟨ptr, hptr, hsize, hread⟩ := h.body
  rw [PacketS.onMessage, h.owner, ok_bind, hptr, ok_bind, hsize, ok_bind] at hpacket
  cases hpacket
  exact ⟨rfl, rfl, hread⟩

include hname hbody

/-- A client packet whose buffer holds a message. -/
theorem Message.At.onMessage {pkt : PacketC}
    (h : msg.At pkt.buffer (PacketC.headerSize + pkt.offset))
    (hsize : pkt.dataSize = msg.payload.length + 10) (channel : NetChannel) (ownerInfo : Word) :
    ∃ packet, pkt.onMessage channel ownerInfo = .ok packet ∧ packet.Shows msg := by
  have hlen := msg.payload_length
  have hroom := h.room
  unfold maxMsgSize maxPacketSize maxPacketTagSize maxAppendDataSize maxAoiObjCount at hbody
  have hname' : pkt.getPacketName = .ok msg.name := h.packetNameAt_eq hname
  have hptr : pkt.getPacketMsg = .ok (PacketC.headerSize + pkt.offset + (msg.name.length + 2)) :=
    h.packetMsgAt_eq hname
  have hmsg : pkt.getMsgSize = .ok msg.body.length := by
    apply h.msgSizeAt_eq hname
    · simp only [PacketC.headerSize, hsize]
      omega
    · unfold maxPacketSize
      omega
  have hread : read pkt.buffer (PacketC.headerSize + pkt.offset + (msg.name.length + 2))
      msg.body.length = .ok msg.body := by
    rw [read_ok (by omega), h.slice_body]
  refine ⟨channel.onMessage ownerInfo msg.name pkt.buffer
    (PacketC.headerSize + pkt.offset + (msg.name.length + 2)) msg.body.length, ?_, rfl, rfl, hread⟩
  rw [PacketC.onMessage, hname', ok_bind, hptr, ok_bind, hmsg, ok_bind]
  rfl

/-- What a client makes of a client packet. -/
theorem PacketC.BuiltFrom.onMessage_client {pkt : PacketC}
    (h : pkt.BuiltFrom build adler32 heap msg) (channel : NetChannel) (ownerInfo : Word) :
    ∃ packet, (PacketC.ofFrame pkt.buffer).onMessage channel ownerInfo = .ok packet ∧
      packet.Shows msg := by
  obtain ⟨owner, rfl⟩ := h.row hname hbody
  exact (msg.at_clientRow adler32 owner).onMessage hname hbody
    (clientRow_length adler32 owner msg.payload) channel ownerInfo

/-- What a gate makes of it: the frame stands two bytes further on. -/
theorem PacketC.BuiltFrom.onMessage_gate {pkt : PacketC}
    (h : pkt.BuiltFrom build adler32 heap msg) (heap' : ℕ → UInt8) (channel : NetChannel)
    (ownerInfo : Word) :
    ∃ packet, (PacketC.ofClientFrame heap' pkt.buffer).onMessage channel ownerInfo = .ok packet ∧
      packet.Shows msg := by
  obtain ⟨owner, rfl⟩ := h.row hname hbody
  have hlen := clientRow_length adler32 owner msg.payload
  have hat : msg.At (PacketC.ofClientFrame heap' (clientRow adler32 owner msg.payload)).buffer
      (PacketC.headerSize + 2) := by
    constructor
    · intro off len hle
      have hshift : PacketC.headerSize + 2 + off = PacketC.headerSize + off + 2 := by omega
      have hheader : PacketC.headerSize = 6 := rfl
      rw [hshift, PacketC.slice_ofClientFrame heap' _ (by omega)]
      exact slice_payload_clientRow adler32 owner msg.payload hle
    · rw [PacketC.ofClientFrame_buffer_length, hlen, PacketC.headerSize]
      omega
  exact hat.onMessage hname hbody hlen channel ownerInfo

/-- Every receiver shows the dispatcher the message that was sent. -/
theorem Dispatch.Decoded.shows {packet : Dispatch}
    (h : packet.Decoded build adler32 heap host msg) : packet.Shows msg := by
  cases h with
  | server hpkt hframe hvalid hpacketName hpacket =>
    obtain ⟨owner, dests, hcarries, -⟩ := hpkt.forwarded hname hbody hframe hvalid
    cases hpacketName.symm.trans hcarries.name
    exact hcarries.shows hpacket
  | @client pkt channel ownerInfo packet hpkt hpacket =>
    obtain ⟨packet', hpacket', hshows⟩ := hpkt.onMessage_client hname hbody channel ownerInfo
    cases hpacket.symm.trans hpacket'
    exact hshows
  | @gate pkt heap' channel ownerInfo packet hpkt hpacket =>
    obtain ⟨packet', hpacket', hshows⟩ := hpkt.onMessage_gate hname hbody heap' channel ownerInfo
    cases hpacket.symm.trans hpacket'
    exact hshows

/-- There is a packet with the message. -/
theorem Dispatch.exists_decoded (build : Build) (adler32 : List UInt8 → UInt32) (heap : ℕ → UInt8)
    (host : Endian) : ∃ packet : Dispatch, packet.Decoded build adler32 heap host msg := by
  obtain ⟨owner, hbuilt⟩ := PacketC.ofMessage_eq hname hbody build adler32 heap
  obtain ⟨packet, hpacket, -⟩ :=
    (PacketC.BuiltFrom.ofMessage hbuilt).onMessage_client hname hbody ⟨.connected, 0⟩ 0
  exact ⟨packet, .client (.ofMessage hbuilt) hpacket⟩

end Decoding

/-! ### The handler -/

section Handlers

variable {δ : Type} {Fields : δ → Type} (build : Build) (descriptor : δ → Descriptor)
  (parse : (t : δ) → List UInt8 → ℕ → ℤ → Option (Fields t))

/-- The entries of a map with one handler for each type. -/
def entries {σ : Type} (handler : (t : δ) → UInt16 → Word → Fields t → σ → Except Fault σ)
    (types : List δ) : List (CallBack Fields σ) :=
  types.map fun t => ⟨t, handler t⟩

@[simp] theorem map_packetType_entries {σ : Type}
    (handler : (t : δ) → UInt16 → Word → Fields t → σ → Except Fault σ) (types : List δ) :
    (entries handler types).map CallBack.packetType = types := by
  rw [entries, List.map_map]
  exact List.map_id _

/-- Where no other type is named by the packet, the handler of the type runs. -/
theorem deliverPacket_entries {σ : Type}
    (handler : (t : δ) → UInt16 → Word → Fields t → σ → Except Fault σ) {types : List δ} {t : δ}
    (ht : t ∈ types) {packet : Dispatch} (hnamed : (descriptor t).Named packet.packetName)
    (honly : ∀ t' ∈ types, (descriptor t').Named packet.packetName → t' = t) {msg : Fields t}
    (hmsg : parse t packet.buffer packet.packetMsg packet.msgSize = some msg)
    {order : List (CallBack Fields σ)} (horder : order.Perm (entries handler types)) (s : σ) :
    deliverPacket build descriptor parse order packet s =
      handler t packet.channelIndex packet.ownerInfo msg s := by
  have hmem : (⟨t, handler t⟩ : CallBack Fields σ) ∈ order :=
    horder.mem_iff.mpr (List.mem_map_of_mem ht)
  apply deliverPacket_of_named build descriptor parse hmem hnamed _ hmsg
  intro it hit hnamed'
  obtain ⟨t', ht', rfl⟩ := List.mem_map.mp (horder.mem_iff.mp hit)
  cases honly t' ht' hnamed'
  rfl

/-- A map that finds another type first, which is also named by the packet. What runs is not the
    handler that logs `t`. -/
theorem deliverPacket_log_ne {t t' : δ} (hne : t' ≠ t) {packet : Dispatch}
    (hnamed : (descriptor t').Named packet.packetName) (rest : List (CallBack Fields (List δ))) :
    deliverPacket build descriptor parse (⟨t', fun _ _ _ log => .ok (t' :: log)⟩ :: rest) packet [] ≠
      .ok [t] := by
  have hfound : decide ((descriptor t').Named packet.packetName) = true := decide_eq_true hnamed
  rw [deliverPacket, List.find?_cons, hfound]
  show deliver build parse ⟨t', fun _ _ _ log => .ok (t' :: log)⟩ packet [] ≠ .ok [t]
  intro hlog
  unfold deliver at hlog
  cases hmsg : parse t' packet.buffer packet.packetMsg packet.msgSize with
  | some msg =>
    rw [hmsg] at hlog
    cases hlog
    exact hne rfl
  | none =>
    rw [hmsg] at hlog
    cases build <;> cases hlog

end Handlers

/-- Any set of registered types, any order in which the hash map goes through them, and a message
    of one of these types that the generated code can read back. In a packet of either class, with
    the decoded name, it makes exactly the handler of its own type run, once, with whatever state
    and handlers there are, if and only if no other registered type has the short name that the
    packet carries, be it as its short or as its full name. -/
theorem delivered_to_type_iff {δ : Type} [DecidableEq δ] {Fields : δ → Type} (build : Build)
    (adler32 : List UInt8 → UInt32) (heap : ℕ → UInt8) (host : Endian) (descriptor : δ → Descriptor)
    (parse : (t : δ) → List UInt8 → ℕ → ℤ → Option (Fields t))
    (serialize : (t : δ) → Fields t → List UInt8) (types : List δ) (hdistinct : types.Nodup) {t : δ}
    (ht : t ∈ types) (msg : Fields t)
    (hparse : ∀ buffer ptr, read buffer ptr (serialize t msg).length = .ok (serialize t msg) →
      parse t buffer ptr (serialize t msg).length = some msg)
    (hname : (descriptor t).name.length + 1 ≤ 0xFF)
    (hbody : (serialize t msg).length ≤ maxMsgSize) :
    (∀ packet : Dispatch,
      packet.Decoded build adler32 heap host ⟨(descriptor t).name, serialize t msg⟩ →
      ∀ (σ : Type) (handler : (t : δ) → UInt16 → Word → Fields t → σ → Except Fault σ)
        (callBacks order : List (CallBack Fields σ)) (s : σ),
        (entries handler types).foldlM (regPacketHandler build) [] = .ok callBacks →
        order.Perm callBacks →
        deliverPacket build descriptor parse order packet s =
          handler t packet.channelIndex packet.ownerInfo msg s) ↔
      ∀ t' ∈ types, (descriptor t').Named (descriptor t).name → t' = t := by
  have hname : (descriptor t).name.length ≤ 254 := by omega
  have hregistered : ∀ {σ : Type}
      (handler : (t : δ) → UInt16 → Word → Fields t → σ → Except Fault σ),
      (entries handler types).foldlM (regPacketHandler build) [] = .ok (entries handler types) := by
    intro σ handler
    apply @regPacketHandler_all _ _ _ build _ []
    rw [List.nil_append, map_packetType_entries]
    exact hdistinct
  constructor
  · intro hdelivers t' ht' hnamed
    by_contra hne
    obtain ⟨packet, hdecoded⟩ := @Dispatch.exists_decoded ⟨(descriptor t).name, serialize t msg⟩
      hname hbody build adler32 heap host
    have hshows := hdecoded.shows hname hbody
    -- the handlers log their types, and the map finds the other type first
    let log : (t : δ) → UInt16 → Word → Fields t → List δ → Except Fault (List δ) :=
      fun t _ _ _ log => .ok (t :: log)
    have horder : (entries log (t' :: types.erase t')).Perm (entries log types) :=
      (List.perm_cons_erase ht').symm.map _
    have hrun := hdelivers packet hdecoded (List δ) log _ _ [] (hregistered log) horder
    apply deliverPacket_log_ne build descriptor parse hne _ _ hrun
    rw [hshows.name]
    exact hnamed
  · intro honly packet hdecoded σ handler callBacks order s hcallBacks horder
    have hshows := hdecoded.shows hname hbody
    cases (hregistered handler).symm.trans hcallBacks
    apply deliverPacket_entries build descriptor parse handler ht _ _ _ horder s
    · exact .inl hshows.name.symm
    · intro t' ht' hnamed
      apply honly t' ht'
      rwa [hshows.name] at hnamed
    · rw [hshows.size]
      exact hparse _ _ hshows.body

/-- A handler that logs the type it was registered for, and the message. -/
def logMessage (t : Bool) (_ : UInt16) (_ : Word) (body : List UInt8)
    (log : List (Bool × List UInt8)) : Except Fault (List (Bool × List UInt8)) :=
  .ok ((t, body) :: log)

/-- Two of the types that a gate registers, one of each package. -/
theorem delivered_to_type_iff_twoPackages :
    ∃ packet : Dispatch, packet.Decoded .debug Adler32.adler32 (fun _ => 0) .little
        ⟨ascii "PktRegisterAck", [8, 1]⟩ ∧
      deliverPacket .debug
          (fun t => if t then ⟨ascii "S2SPacket", ascii "PktRegisterAck"⟩
            else ⟨ascii "C2SPacket", ascii "PktGameLoginReq"⟩)
          (fun _ buffer ptr size => some (slice buffer ptr size.toNat))
          (entries logMessage [false, true]) packet [] = .ok [(true, [8, 1])] := by
  obtain ⟨packet, hdecoded⟩ := @Dispatch.exists_decoded ⟨ascii "PktRegisterAck", [8, 1]⟩ (by decide)
    (by decide) .debug Adler32.adler32 (fun _ => 0) .little
  have hregistered : (entries logMessage [true, false]).foldlM (regPacketHandler .debug) [] =
      .ok (entries logMessage [true, false]) :=
    @regPacketHandler_all _ _ _ .debug _ [] _ (by decide)
  have hiff := @delivered_to_type_iff Bool _ (fun _ => List UInt8) .debug Adler32.adler32 (fun _ => 0)
    .little (fun t => if t then ⟨ascii "S2SPacket", ascii "PktRegisterAck"⟩
      else ⟨ascii "C2SPacket", ascii "PktGameLoginReq"⟩)
    (fun _ buffer ptr size => some (slice buffer ptr size.toNat)) (fun _ body => body) [true, false]
    (by decide) true (by decide) [8, 1] (by
      intro buffer ptr hread
      rw [read_ok (read_ok_iff.mp ⟨_, hread⟩)] at hread
      exact congrArg some (Except.ok.inj hread)) (by decide) (by decide)
  refine ⟨packet, hdecoded, hiff.mpr (by decide) packet hdecoded _ logMessage _ _ [] hregistered ?_⟩
  exact (List.Perm.swap true false []).map _

/-- A handler that logs the type it was registered for. -/
def logType (t : Bool) (_ : UInt16) (_ : Word) (_ : Unit) (log : List Bool) : Except Fault (List Bool) :=
  .ok (t :: log)

/-- A type of the same short name in the package of the clients and in that of the servers, both
    without fields. Where the map finds the second one first, a packet of the first one makes the
    handler of the second one run. -/
theorem delivered_to_other_package :
    ∃ packet : Dispatch, packet.Decoded .release Adler32.adler32 (fun _ => 0) .little
        ⟨ascii "PktHeartbeat", []⟩ ∧
      (entries logType [true, false]).foldlM (regPacketHandler .release) [] =
        .ok (entries logType [true, false]) ∧
      (entries logType [false, true]).Perm (entries logType [true, false]) ∧
      deliverPacket .release
          (fun t => if t then ⟨ascii "C2SPacket", ascii "PktHeartbeat"⟩
            else ⟨ascii "S2SPacket", ascii "PktHeartbeat"⟩)
          (fun _ _ _ size => if size = 0 then some () else none)
          (entries logType [false, true]) packet [] = .ok [false] := by
  obtain ⟨pkt, packet, hpkt, hpacket, hlog⟩ : ∃ (pkt : PacketC) (packet : Dispatch),
      PacketC.ofMessage .release Adler32.adler32 (fun _ => 0) ⟨ascii "PktHeartbeat", []⟩ = .ok pkt ∧
      (PacketC.ofFrame pkt.buffer).onMessage ⟨.connected, 0⟩ 0 = .ok packet ∧
      deliverPacket .release
          (fun t => if t then ⟨ascii "C2SPacket", ascii "PktHeartbeat"⟩
            else ⟨ascii "S2SPacket", ascii "PktHeartbeat"⟩)
          (fun _ _ _ size => if size = 0 then some () else none)
          (entries logType [false, true]) packet [] = .ok [false] := ⟨_, _, rfl, rfl, rfl⟩
  refine ⟨packet, .client (.ofMessage hpkt) hpacket, ?_, ?_, hlog⟩
  · exact @regPacketHandler_all _ _ _ .release _ [] _ (by decide)
  · exact (List.Perm.swap true false []).map _

end TerraX
