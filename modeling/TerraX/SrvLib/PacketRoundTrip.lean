import TerraX.Net.PacketLayout
import TerraX.SrvLib.PacketProcessor

/-!
# From sender to receiver

What a server builds with `PacketS(msg, n)`, `SetOwner` and `AppendDestination` is one
frame, and the receiver reads from it what the sender put in.

## Main definitions

- `Message.At` — a message stands in a buffer behind a header
- `PacketS.Carries` — what a receiver reads from a packet

## Main results

- `readMessage_frame` — `ReadMessage` cuts off a frame in front of any stream
- `sentBytes_round_trip` — what was put in comes out again
- `sendPacketByChannel_eq`, `sendPacketByChannel_carries` — what `SendPacketByChannel` sends
-/

namespace TerraX

open Bytes Memory Framing

/-- Whatever follows a frame, `ReadMessage` queues its packet and reads on behind it. -/
theorem readMessage_frame (build : Build) (heap : ℕ → UInt8) {frame : List UInt8}
    (h : IsFrame frame) (tail : List UInt8) (queueRead : List Packet) :
    readMessage build heap false (frame ++ tail) queueRead =
      readMessage build heap false tail (queueRead ++ [.s (.ofFrame frame)]) := by
  have hnext : packetSplitter.next (frame ++ tail) = some frame.length :=
    packetSplitter.stable tail (packetSplitter_isFrame.mpr h)
  have hfits : frame.length + Packet.extraSize false ≤ maxPacketSize := h.2.1
  rw [readMessage_of_some build heap false hnext, List.take_left, List.drop_left, readPacket_eq,
    check_of build hfits]
  rfl

/-! ### The accessors on a buffer that holds a message -/

/-- The payload of a message stands in a buffer, right behind a header. -/
structure Message.At (msg : Message) (buffer : List UInt8) (header : ℕ) : Prop where
  slice_eq : ∀ {off len : ℕ}, off + len ≤ msg.payload.length →
    slice buffer (header + off) len = slice msg.payload off len
  room : header + msg.payload.length ≤ buffer.length

namespace Message.At

variable {msg : Message} {buffer : List UInt8} {header : ℕ} (h : msg.At buffer header)
  (hname : msg.name.length ≤ 254)
include h

/-- The body stands where the message pointer points. -/
theorem slice_body : slice buffer (header + (msg.name.length + 2)) msg.body.length = msg.body := by
  have hlen := msg.payload_length
  have hsplit : msg.payload =
      UInt8.ofNat (msg.name.length + 1) :: (msg.name ++ [0]) ++ (msg.body ++ []) := by
    simp [Message.payload]
  rw [h.slice_eq (by omega), hsplit]
  exact slice_behind (by simp) rfl

include hname

theorem nameLenField_eq : nameLenField buffer header = msg.name.length + 1 := by
  have hlen := msg.payload_length
  have hbyte : slice msg.payload 0 1 = [UInt8.ofNat (msg.name.length + 1)] := rfl
  have hat : slice buffer (header + 0) 1 = slice msg.payload 0 1 := h.slice_eq (by omega)
  rw [Nat.add_zero, hbyte] at hat
  rw [nameLenField, hat, decodeBE, List.foldl_cons, List.foldl_nil, UInt8.toNat_ofNat']
  omega

theorem packetNameAt_eq : packetNameAt buffer header = .ok msg.name := by
  have hlen := msg.payload_length
  have hroom := h.room
  have hfield := h.nameLenField_eq hname
  have hslice : slice buffer (header + 1) msg.name.length = msg.name := by
    rw [h.slice_eq (by omega)]
    exact slice_append_middle [UInt8.ofNat (msg.name.length + 1)] msg.name (0 :: msg.body)
  rw [TerraX.packetNameAt_eq (by omega) (by omega), hfield, Nat.add_sub_cancel, hslice]

theorem packetMsgAt_eq : packetMsgAt buffer header = .ok (header + (msg.name.length + 2)) := by
  have hlen := msg.payload_length
  have hroom := h.room
  rw [TerraX.packetMsgAt_eq (by omega), h.nameLenField_eq hname]
  congr 1
  omega

theorem msgSizeAt_eq {size : ℤ} (hsize : size = msg.payload.length + 4)
    (hmax : msg.payload.length ≤ maxPacketSize) :
    msgSizeAt buffer header size = .ok msg.body.length := by
  unfold maxPacketSize at hmax
  have hlen := msg.payload_length
  have hroom := h.room
  rw [TerraX.msgSizeAt_eq (by omega) (by omega) (by omega), h.nameLenField_eq hname, hsize]
  congr 1
  omega

end Message.At

/-- A row holds the message behind its header of 8 bytes. -/
theorem Message.at_serverLayout (msg : Message) {size data owner sum dests : List UInt8}
    (hs : size.length = 2) (hd : data.length = 2) (ho : owner.length = 4) :
    msg.At (serverLayout size data owner msg.payload sum dests) 8 where
  slice_eq h := slice_payload hs hd ho h
  room := by
    simp only [serverLayout, List.length_append]
    omega

/-! ### From sender to receiver -/

/-- A row whose size field counts its bytes is a frame. -/
theorem isFrame_serverLayout {size data owner payload sum dests : List UInt8}
    (hs : size.length = 2) (hd : data.length = 2) (ho : owner.length = 4) (hc : sum.length = 4)
    (hsize : decodeBE size = payload.length + 12 + dests.length)
    (hmax : payload.length + 12 + dests.length ≤ maxPacketSize) :
    IsFrame (serverLayout size data owner payload sum dests) := by
  have hlen : (serverLayout size data owner payload sum dests).length =
      payload.length + 12 + dests.length := serverLayout_length hs hd ho hc
  have hfirst : slice (serverLayout size data owner payload sum dests) 0 2 = size := by
    rw [serverLayout, slice_append_left hs.ge, ← hs, slice_zero_length]
  refine ⟨by omega, by omega, ?_⟩
  rw [hfirst, hsize, hlen]

/-- What a receiver reads from a packet. -/
structure PacketS.Carries (pkt : PacketS) (host : Endian) (msg : Message) (owner : Word)
    (dests : List Word) : Prop where
  name : pkt.getPacketName = .ok msg.name
  body : ∃ ptr, pkt.getPacketMsg = .ok ptr ∧ pkt.getMsgSize = .ok msg.body.length ∧
    read pkt.buffer ptr msg.body.length = .ok msg.body
  owner : pkt.getOwnerInfo = .ok owner
  dests : ∀ build, pkt.destinations build host = .ok dests

/-- A row with a message in it is a frame that passes `is_valid`, and the receiver reads
    from it what the row was built from. -/
theorem carries_serverLayout (adler32 : List UInt8 → UInt32) (host : Endian) {msg : Message}
    (owner : Word) {dests : List Word} (hname : msg.name.length ≤ 254)
    (hmax : msg.payload.length + 12 + 4 * dests.length ≤ maxPacketSize) {frame : List UInt8}
    (hframe : frame = serverLayout (encodeBE 2 (msg.payload.length + 12 + 4 * dests.length))
      (encodeBE 2 (msg.payload.length + 10)) (encodeBE 4 owner.toNat) msg.payload
      (encodeBE 4 (adler32 msg.payload).toNat) (destBytes host dests)) :
    IsFrame frame ∧ ∃ rcv, (PacketS.ofFrame frame).isValid adler32 = .ok (rcv, true) ∧
      rcv.Carries host msg owner dests := by
  have hlt : maxPacketSize < 256 ^ 2 := by decide
  have hdests : (destBytes host dests).length = 4 * dests.length := destBytes_length host dests
  have hlen : frame.length = msg.payload.length + 12 + 4 * dests.length := by
    rw [hframe, serverLayout_length (encodeBE_length _ _) (encodeBE_length _ _) (encodeBE_length _ _)
      (encodeBE_length _ _), hdests]
  have hsize : decodeBE (encodeBE 2 (msg.payload.length + 12 + 4 * dests.length)) =
      msg.payload.length + 12 + 4 * dests.length := decodeBE_encodeBE_of_lt (by omega)
  have hdata : decodeBE (encodeBE 2 (msg.payload.length + 10)) = msg.payload.length + 10 :=
    decodeBE_encodeBE_of_lt (by omega)
  refine ⟨?_, { PacketS.ofFrame frame with dataSize := msg.payload.length + 10 }, ?_, ?_⟩
  · rw [hframe]
    exact isFrame_serverLayout (encodeBE_length _ _) (encodeBE_length _ _) (encodeBE_length _ _)
      (encodeBE_length _ _) (by rw [hsize, hdests]) (by omega)
  · rw [hframe]
    exact PacketS.isValid_serverLayout adler32 (encodeBE_length _ _) (encodeBE_length _ _)
      (encodeBE_length _ _) (encodeBE_length _ _) hdata (by omega) (ofNat_decodeBE _)
  · -- only the buffer and the two sizes of the packet matter
    generalize hrcv : ({ PacketS.ofFrame frame with dataSize := msg.payload.length + 10 } :
      PacketS) = rcv
    have hbuf : rcv.buffer = serverLayout
        (encodeBE 2 (msg.payload.length + 12 + 4 * dests.length))
        (encodeBE 2 (msg.payload.length + 10)) (encodeBE 4 owner.toNat) msg.payload
        (encodeBE 4 (adler32 msg.payload).toNat) (destBytes host dests) := by
      rw [← hrcv, ← hframe]
      rfl
    have hdataSize : rcv.dataSize = msg.payload.length + 10 := by rw [← hrcv]
    have hpacketSize : rcv.packetSize = rcv.buffer.length := by rw [← hrcv]; rfl
    have hbufLen : rcv.buffer.length = msg.payload.length + 12 + 4 * dests.length := by
      rw [hbuf, ← hframe, hlen]
    have hpayload := msg.payload_length
    have hat : msg.At rcv.buffer PacketS.headerSize := by
      rw [hbuf]
      exact msg.at_serverLayout (encodeBE_length _ _) (encodeBE_length _ _) (encodeBE_length _ _)
    refine ⟨hat.packetNameAt_eq hname, ⟨8 + (msg.name.length + 2), hat.packetMsgAt_eq hname,
      hat.msgSizeAt_eq hname ?_ (by omega), ?_⟩, ?_, fun build => ?_⟩
    · rw [hdataSize, PacketS.headerSize]
      omega
    · rw [read_ok (by omega)]
      exact congrArg Except.ok hat.slice_body
    · rw [PacketS.getOwnerInfo_serverLayout hbuf (encodeBE_length _ _) (encodeBE_length _ _)
        (encodeBE_length _ _), ofNat_decodeBE]
    · exact PacketS.destinations_serverLayout build host hbuf (encodeBE_length _ _)
        (encodeBE_length _ _) (encodeBE_length _ _) (encodeBE_length _ _) hdataSize hpacketSize
        (by omega)

/-- What the sender of a message with `n` receivers builds: of all calls of
    `AppendDestination` the first `n` succeed and the others are refused and change
    nothing. The bytes that are sent are then one frame, cut off by `ReadMessage`
    whatever follows, and its receiver finds it valid and reads the name, the body, the
    owner and the appended destinations from it. -/
theorem sentBytes_round_trip (adler32 : List UInt8 → UInt32) (heap : ℕ → UInt8) (host : Endian)
    (msg : Message) (n : ℕ) (owner : Word) (dests : List Word) (hname : msg.name.length ≤ 254)
    (hbody : msg.body.length ≤ maxMsgSize) (hn : n ≤ maxAoiObjCount) :
    ∃ built owned pkt,
      PacketS.ofMessage .release adler32 heap msg n = .ok built ∧
      built.setOwner owner = .ok owned ∧
      owned.appendAll .release host dests = .ok (pkt,
        List.replicate (min n dests.length) true ++ List.replicate (dests.length - n) false) ∧
      owned.appendAll .release host (dests.take n) =
        .ok (pkt, List.replicate (min n dests.length) true) ∧
      pkt.sentBytes.length = pkt.getPacketSize ∧
      IsFrame pkt.sentBytes ∧
      (∀ build heap tail queueRead,
        readMessage build heap false (pkt.sentBytes ++ tail) queueRead =
          readMessage build heap false tail (queueRead ++ [.s (.ofFrame pkt.sentBytes)])) ∧
      ∃ rcv, (PacketS.ofFrame pkt.sentBytes).isValid adler32 = .ok (rcv, true) ∧
        rcv.Carries host msg owner (dests.take n) := by
  have hlen := msg.payload_length
  obtain ⟨built, owner₀, room, hbuilt, h₀, hroom⟩ :=
    PacketS.ofMessage_holds .release adler32 heap n hname fun _ => hbody
  obtain ⟨owned, howned, h₁⟩ := h₀.setOwner owner
  obtain ⟨pkt, room', h₂, hall, htake⟩ := h₁.appendAll host hroom dests
  rw [List.nil_append] at h₂
  -- the room that the constants leave is enough for all destinations that are appended
  have hmax : msg.payload.length + 12 + 4 * (dests.take n).length ≤ maxPacketSize := by
    simp only [maxMsgSize, maxPacketSize, maxPacketTagSize, maxAppendDataSize, maxAoiObjCount]
      at hbody hn ⊢
    rw [List.length_take]
    omega
  have hsize : pkt.packetSize = msg.payload.length + 12 + 4 * (dests.take n).length := by
    rw [h₂.packetSize, destBytes_length]
  have hrow : pkt.sentBytes = serverLayout
      (encodeBE 2 (msg.payload.length + 12 + 4 * (dests.take n).length))
      (encodeBE 2 (msg.payload.length + 10)) (encodeBE 4 owner.toNat) msg.payload
      (encodeBE 4 (adler32 msg.payload).toNat) (destBytes host (dests.take n)) := by
    rw [h₂.sentBytes, hsize, h₂.dataSize]
  obtain ⟨hframe, hrcv⟩ := carries_serverLayout adler32 host owner hname hmax hrow
  refine ⟨built, owned, pkt, hbuilt, howned, hall, htake, ?_, hframe, ?_, hrcv⟩
  · rw [h₂.sentBytes, h₂.row_length, PacketS.getPacketSize]
  · intro build heap tail queueRead
    exact readMessage_frame build heap hframe tail queueRead

/-- Three destinations for a packet with room for two. -/
theorem sentBytes_round_trip_twoReceivers :
    ∃ pkt rcv, (∃ built owned,
      PacketS.ofMessage .release Adler32.adler32 (fun _ => 0) ⟨[80], [8, 1]⟩ 2 = .ok built ∧
      built.setOwner 7 = .ok owned ∧
      owned.appendAll .release .little [1, 2, 3] = .ok (pkt, [true, true, false])) ∧
      (PacketS.ofFrame pkt.sentBytes).isValid Adler32.adler32 = .ok (rcv, true) ∧
      rcv.Carries .little ⟨[80], [8, 1]⟩ 7 [1, 2] := by
  obtain ⟨built, owned, pkt, hbuilt, howned, hall, -, -, -, -, rcv, hvalid, hcarries⟩ :=
    sentBytes_round_trip Adler32.adler32 (fun _ => 0) .little ⟨[80], [8, 1]⟩ 2 7 [1, 2, 3]
      (by decide) (by decide) (by decide)
  exact ⟨pkt, rcv, ⟨built, owned, hbuilt, howned, hall⟩, hvalid, hcarries⟩

/-- What `SendPacketByChannel` sends. -/
theorem sendPacketByChannel_eq (build : Build) (adler32 : List UInt8 → UInt32) (heap : ℕ → UInt8)
    (host : Endian) {msg : Message} (dest owner : Word) (hname : msg.name.length ≤ 254)
    (hbody : build = .debug → msg.body.length ≤ maxMsgSize) :
    sendPacketByChannel build adler32 heap host dest owner msg =
      .ok (some (serverLayout (encodeBE 2 (msg.payload.length + 12 + 4 * [dest].length))
        (encodeBE 2 (msg.payload.length + 10)) (encodeBE 4 owner.toNat) msg.payload
        (encodeBE 4 (adler32 msg.payload).toNat) (destBytes host [dest]))) := by
  have hlen := msg.payload_length
  obtain ⟨built, owner₀, room, hbuilt, h₀, hroom⟩ :=
    PacketS.ofMessage_holds build adler32 heap 1 hname hbody
  obtain ⟨appended, happended, h₁⟩ := h₀.appendDestination build host (by omega) dest
  obtain ⟨owned, howned, h₂⟩ := h₁.setOwner owner
  have hsize : owned.packetSize = msg.payload.length + 12 + 4 * [dest].length := by
    rw [h₂.packetSize]
    simp
  have hdests : destBytes host [dest] = [] ++ encodeHost host 4 dest.toNat := by
    simp [destBytes]
  rw [sendPacketByChannel, hbuilt, ok_bind, happended, ok_bind]
  simp only [if_true, howned, ok_bind, pure_eq_ok]
  rw [h₂.sentBytes, hsize, h₂.dataSize, hdests]

/-- It is one frame that carries the message to its one destination. -/
theorem sendPacketByChannel_carries (build : Build) (adler32 : List UInt8 → UInt32)
    (heap : ℕ → UInt8) (host : Endian) {msg : Message} (dest owner : Word)
    (hname : msg.name.length ≤ 254) (hbody : msg.body.length ≤ maxMsgSize) :
    ∃ frame, sendPacketByChannel build adler32 heap host dest owner msg = .ok (some frame) ∧
      IsFrame frame ∧ ∃ rcv, (PacketS.ofFrame frame).isValid adler32 = .ok (rcv, true) ∧
        rcv.Carries host msg owner [dest] := by
  have hlen := msg.payload_length
  have hmax : msg.payload.length + 12 + 4 * [dest].length ≤ maxPacketSize := by
    simp only [maxMsgSize, maxPacketSize, maxPacketTagSize, maxAppendDataSize, maxAoiObjCount]
      at hbody ⊢
    simp only [List.length_singleton]
    omega
  exact ⟨_, sendPacketByChannel_eq build adler32 heap host dest owner hname fun _ => hbody,
    carries_serverLayout adler32 host owner hname hmax rfl⟩

end TerraX
