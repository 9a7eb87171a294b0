import TerraX.Client.NetManagerClient
import TerraX.GateServer.PacketProcessorGate
import TerraX.Lib.Adler32

/-!
# What a gate sends to its clients

A gate forwards a server packet to a client without encoding it again: it drops the first field
and the destinations. What is left is a packet in the format of clients, and so is what the
gate builds itself with `PacketC(msg)`. The client reads both in the same way.

## Main definitions

- `PacketS.BuiltFrom` — what a server can make of a message
- `NetManagerClient.ReadsAs` — what a client reads from a stream that begins with some bytes

## Main results

- `client_frames` — the bytes for a client are one frame with the message and its owner
-/

namespace TerraX

open Bytes Memory

/-- A packet that was built with `PacketS(msg, n)`, and then changed by `SetOwner` and
    `AppendDestination` in any order. -/
inductive PacketS.BuiltFrom (build : Build) (adler32 : List UInt8 → UInt32) (heap : ℕ → UInt8)
    (host : Endian) (msg : Message) (n : ℕ) : PacketS → Prop
  | ofMessage {pkt : PacketS} (h : PacketS.ofMessage build adler32 heap msg n = .ok pkt) :
      BuiltFrom build adler32 heap host msg n pkt
  | setOwner {pkt pkt' : PacketS} (owner : Word) (hpkt : BuiltFrom build adler32 heap host msg n pkt)
      (h : pkt.setOwner owner = .ok pkt') : BuiltFrom build adler32 heap host msg n pkt'
  | appendDestination {pkt pkt' : PacketS} (dest : Word) (appended : Bool)
      (hpkt : BuiltFrom build adler32 heap host msg n pkt)
      (h : pkt.appendDestination build host dest = .ok (pkt', appended)) :
      BuiltFrom build adler32 heap host msg n pkt'

section Server

variable {build : Build} {adler32 : List UInt8 → UInt32} {heap : ℕ → UInt8} {host : Endian}
  {msg : Message} {n : ℕ} (hname : msg.name.length ≤ 254) (hbody : msg.body.length ≤ maxMsgSize)
include hname hbody

/-- Such a packet is a row with some owner and some destinations. -/
theorem PacketS.BuiltFrom.holds {pkt : PacketS}
    (h : pkt.BuiltFrom build adler32 heap host msg n) :
    ∃ (owner : Word) (dests : List Word) (room : List UInt8),
      pkt.Holds (encodeBE 4 owner.toNat) msg.payload (encodeBE 4 (adler32 msg.payload).toNat)
        (destBytes host dests) room := by
  induction h with
  | ofMessage h =>
    obtain ⟨pkt', owner, room, hok, hholds, -⟩ :=
      PacketS.ofMessage_holds build adler32 heap n hname fun _ => hbody
    cases h.symm.trans hok
    -- nothing has written the owner yet: it is what the heap had there
    refine ⟨UInt32.ofNat (decodeBE owner), [], room, ?_⟩
    rw [encodeBE_ofNat_decodeBE hholds.owner_length]
    exact hholds
  | setOwner owner hpkt h ih =>
    obtain ⟨owner₀, dests, room, hholds⟩ := ih
    obtain ⟨pkt', hok, hholds'⟩ := hholds.setOwner owner
    cases h.symm.trans hok
    exact ⟨owner, dests, room, hholds'⟩
  | @appendDestination pkt pkt' dest appended hpkt h ih =>
    obtain ⟨owner, dests, room, hholds⟩ := ih
    by_cases hroom : 4 ≤ room.length
    · obtain ⟨pkt₁, hok, hholds'⟩ := hholds.appendDestination build host hroom dest
      cases h.symm.trans hok
      have hdests : destBytes host dests ++ encodeHost host 4 dest.toNat =
          destBytes host (dests ++ [dest]) := by
        simp [destBytes]
      rw [hdests] at hholds'
      exact ⟨owner, dests ++ [dest], room.drop 4, hholds'⟩
    · have hsame : pkt' = pkt := by
        cases build with
        | release =>
          cases h.symm.trans (hholds.appendDestination_refused host (by omega) dest)
          rfl
        | debug =>
          have hfull : pkt.capacity < pkt.packetSize + 4 := by
            rw [PacketS.capacity, hholds.buffer, List.length_append, hholds.row_length]
            omega
          rw [PacketS.appendDestination, if_pos hfull] at h
          cases h
      rw [hsame]
      exact ⟨owner, dests, room, hholds⟩

/-- A gate that accepts such a packet reads from it what the server has put in, and forwards
    the row of a client packet. -/
theorem PacketS.BuiltFrom.forwarded {pkt rcv : PacketS}
    (h : pkt.BuiltFrom build adler32 heap host msg n) (hframe : IsFrame pkt.sentBytes)
    (hvalid : (PacketS.ofFrame pkt.sentBytes).isValid adler32 = .ok (rcv, true)) :
    ∃ owner dests, rcv.Carries host msg owner dests ∧
      read rcv.buffer 2 rcv.dataSize = .ok (clientRow adler32 owner msg.payload) := by
  obtain ⟨owner, dests, room, hholds⟩ := h.holds hname hbody
  have hsize : pkt.packetSize = msg.payload.length + 12 + 4 * dests.length := by
    rw [hholds.packetSize, destBytes_length]
  have hrow := hholds.sentBytes
  have hlen : pkt.sentBytes.length = pkt.packetSize := by rw [hrow, hholds.row_length]
  obtain ⟨-, hmax, -⟩ := hframe
  rw [hsize, hholds.dataSize] at hrow
  obtain ⟨-, rcv', hvalid', hcarries⟩ :=
    carries_serverLayout adler32 host owner hname (by omega) hrow
  cases hvalid.symm.trans hvalid'
  obtain ⟨⟨-, -, hend⟩, -, rfl⟩ := (PacketS.isValid_true_iff adler32 hmax).mp hvalid
  refine ⟨owner, dests, hcarries, ?_⟩
  have hfield : dataSizeField pkt.sentBytes = msg.payload.length + 10 := by
    rw [dataSizeField, hrow, slice_data (encodeBE_length _ _) (encodeBE_length _ _),
      decodeBE_encodeBE_of_lt]
    unfold maxPacketSize at hmax
    omega
  simp only [PacketS.ofFrame] at hend ⊢
  rw [hfield] at hend ⊢
  rw [read_ok (by omega), hrow, slice_serverLayout_eq_clientRow adler32 owner msg.payload
    (encodeBE_length _ _)]

/-- `PacketC(msg)` builds the row of a client packet, with whatever the heap had for the owner. -/
theorem PacketC.ofMessage_eq (build : Build) (adler32 : List UInt8 → UInt32) (heap : ℕ → UInt8) :
    ∃ owner, PacketC.ofMessage build adler32 heap msg =
      .ok ⟨clientRow adler32 owner msg.payload, 0, msg.payload.length + 10⟩ := by
  have hsize : PacketC.headerSize + msg.totalDataSize + 4 = msg.payload.length + 10 := by
    rw [Message.totalDataSize_eq hname, PacketC.headerSize]
    omega
  generalize hblock : newBlock heap (msg.payload.length + 10) = block
  have hlen : block.length = msg.payload.length + 10 := by rw [← hblock, newBlock_length]
  -- behind the size the block has room for the owner, and for payload and checksum
  obtain ⟨dest, room, hcut, hdest⟩ := exists_cut (block.drop 2) (k := 4)
    (by rw [List.length_drop]; omega)
  have hroom : room.length = msg.payload.length + 4 := by
    have h := congrArg List.length hcut
    rw [List.length_drop, List.length_append] at h
    omega
  have hfirst : write ([] ++ block) 0 (encodeBE 2 (msg.payload.length + 10)) =
      .ok ([] ++ encodeBE 2 (msg.payload.length + 10) ++ block.drop 2) :=
    write_append rfl (by rw [encodeBE_length]; omega)
  simp only [List.nil_append] at hfirst
  have hrest : writeMessage adler32 (encodeBE 2 (msg.payload.length + 10) ++ dest ++ room) 6 6 msg =
      .ok (encodeBE 2 (msg.payload.length + 10) ++ dest ++ msg.payload ++
        encodeBE 4 (adler32 msg.payload).toNat ++ room.drop (msg.payload.length + 4)) :=
    writeMessage_eq adler32 hname (by simp [hdest]) (by omega)
  refine ⟨UInt32.ofNat (decodeBE dest), ?_⟩
  rw [PacketC.ofMessage, check_of build hbody, ok_bind, check_of build (by omega), ok_bind]
  dsimp only
  rw [hsize, hblock, hfirst, ok_bind, hcut, ← List.append_assoc, PacketC.headerSize]
  simp only [Nat.reduceAdd]
  rw [hrest, List.drop_eq_nil_of_le (by omega), List.append_nil, clientRow,
    encodeBE_ofNat_decodeBE hdest]
  simp only [ok_bind, pure_eq_ok, List.append_assoc]

omit hname hbody in
/-- `SetOwner` makes it the row with that owner. -/
theorem PacketC.setOwner_clientRow (adler32 : List UInt8 → UInt32) (owner owner' : Word)
    (payload : List UInt8) (dataSize : ℕ) :
    PacketC.setOwner ⟨clientRow adler32 owner payload, 0, dataSize⟩ owner' =
      .ok ⟨clientRow adler32 owner' payload, 0, dataSize⟩ := by
  have howner : write (clientRow adler32 owner payload) 2 (encodeBE 4 owner'.toNat) =
      .ok (clientRow adler32 owner' payload) :=
    write_middle (encodeBE_length _ _).symm (by simp only [encodeBE_length])
  simp only [PacketC.setOwner, Nat.zero_add, howner, ok_bind, pure_eq_ok]

/-- What the gate builds itself for a client is the row of a client packet, too. -/
theorem sendPacket2Client_eq (build : Build) (adler32 : List UInt8 → UInt32) (heap : ℕ → UInt8)
    (owner : Word) :
    sendPacket2Client build adler32 heap owner msg = .ok (clientRow adler32 owner msg.payload) := by
  obtain ⟨owner₀, hbuilt⟩ := PacketC.ofMessage_eq hname hbody build adler32 heap
  rw [sendPacket2Client, hbuilt, ok_bind, PacketC.setOwner_clientRow adler32]
  rfl

end Server

/-! ### What the client reads -/

/-- The client cuts the bytes off its stream, whatever follows them; it finds them valid, and
    reads the message and the owner from them. Behind the body there is the checksum, and nothing
    else. -/
structure NetManagerClient.ReadsAs (adler32 : List UInt8 → UInt32) (bytes : List UInt8)
    (msg : Message) (owner : Word) : Prop where
  cut : ∀ build heap tail pktQueue, readMessage build heap (bytes ++ tail) pktQueue =
    readMessage build heap tail (pktQueue ++ [.ofFrame bytes])
  valid : (PacketC.ofFrame bytes).isValid adler32 = .ok true
  name : (PacketC.ofFrame bytes).getPacketName = .ok msg.name
  body : ∃ ptr, (PacketC.ofFrame bytes).getPacketMsg = .ok ptr ∧
    (PacketC.ofFrame bytes).getMsgSize = .ok msg.body.length ∧
    read bytes ptr msg.body.length = .ok msg.body ∧ ptr + msg.body.length + 4 = bytes.length
  owner : (PacketC.ofFrame bytes).getOwnerInfo = .ok owner

/-- A client row holds the message behind its header of 6 bytes. -/
theorem Message.at_clientRow (msg : Message) (adler32 : List UInt8 → UInt32) (owner : Word) :
    msg.At (clientRow adler32 owner msg.payload) 6 where
  slice_eq h := slice_payload_clientRow adler32 owner msg.payload h
  room := by
    rw [clientRow_length]
    omega

theorem NetManagerClient.readsAs_clientRow (adler32 : List UInt8 → UInt32) {msg : Message}
    (owner : Word) (hname : msg.name.length ≤ 254)
    (hmax : msg.payload.length + 10 ≤ maxPacketSize) :
    ReadsAs adler32 (clientRow adler32 owner msg.payload) msg owner := by
  have hpayload := msg.payload_length
  have hlen := clientRow_length adler32 owner msg.payload
  have hframe := isFrame_clientRow adler32 owner msg.payload hmax
  have hat := msg.at_clientRow adler32 owner
  refine ⟨fun build heap => readMessage_frame build heap hframe, ?_, hat.packetNameAt_eq hname,
    ⟨_, hat.packetMsgAt_eq hname, hat.msgSizeAt_eq hname ?_ (by omega), ?_, by omega⟩, ?_⟩
  · have hsum : slice (clientRow adler32 owner msg.payload) 6 msg.payload.length = msg.payload :=
      (hat.slice_eq (Nat.zero_add _).le).trans (slice_zero_length _)
    have hptr : msg.payload.length + 10 - 4 = 6 + msg.payload.length := by omega
    refine (PacketC.isValid_true_iff adler32 (by simp [PacketC.ofFrame])
      (by simp [PacketC.ofFrame]) (by simp only [PacketC.ofFrame]; omega)).mpr ⟨?_, ?_⟩
    · simp only [PacketC.ofFrame]
      omega
    · simp only [PacketC.ofFrame, PacketC.headerSize, Nat.add_zero, hlen, hptr, Nat.reduceAdd]
      rw [slice_sum_clientRow, Nat.add_sub_cancel, hsum, ofNat_decodeBE]
  · simp only [PacketC.ofFrame, PacketC.headerSize, hlen]
    omega
  · rw [read_ok (by omega), hat.slice_body]
  · simp only [PacketC.getOwnerInfo, PacketC.ofFrame, Nat.zero_add]
    rw [read_ok (by omega), slice_dest_clientRow, ok_bind, ofNat_decodeBE]
    rfl

/-- The bytes for a client, of every message that keeps the assertions of the constructors: those
    of a packet of any server with any owner and destinations, when a gate has accepted it, and
    those of a packet of the gate itself. The client reads one frame with the message and the
    owner from them, and they do not depend on the destinations. -/
theorem client_frames (build : Build) (adler32 : List UInt8 → UInt32) (heap : ℕ → UInt8)
    (host : Endian) (msg : Message) (hname : msg.name.length + 1 ≤ 0xFF)
    (hbody : msg.body.length ≤ maxMsgSize) :
    (∀ n pkt rcv, PacketS.BuiltFrom build adler32 heap host msg n pkt → IsFrame pkt.sentBytes →
      (PacketS.ofFrame pkt.sentBytes).isValid adler32 = .ok (rcv, true) →
      ∃ owner dests, rcv.Carries host msg owner dests ∧
        read rcv.buffer 2 rcv.dataSize = .ok (clientRow adler32 owner msg.payload) ∧
        NetManagerClient.ReadsAs adler32 (clientRow adler32 owner msg.payload) msg owner) ∧
    ∀ owner, sendPacket2Client build adler32 heap owner msg =
        .ok (clientRow adler32 owner msg.payload) ∧
      NetManagerClient.ReadsAs adler32 (clientRow adler32 owner msg.payload) msg owner := by
  have hpayload := msg.payload_length
  have hname : msg.name.length ≤ 254 := by omega
  have hmax : msg.payload.length + 10 ≤ maxPacketSize := by
    simp only [maxMsgSize, maxPacketSize, maxPacketTagSize, maxAppendDataSize, maxAoiObjCount]
      at hbody ⊢
    omega
  constructor
  · intro n pkt rcv h hframe hvalid
    obtain ⟨owner, dests, hcarries, hread⟩ := h.forwarded hname hbody hframe hvalid
    exact ⟨owner, dests, hcarries, hread,
      NetManagerClient.readsAs_clientRow adler32 owner hname hmax⟩
  · intro owner
    exact ⟨sendPacket2Client_eq hname hbody build adler32 heap owner,
      NetManagerClient.readsAs_clientRow adler32 owner hname hmax⟩

/-- A packet with two destinations, and one that the gate builds itself. -/
theorem client_frames_twoDests :
    (∃ pkt rcv, PacketS.BuiltFrom .release Adler32.adler32 (fun _ => 0) .little ⟨[80], [8, 1]⟩ 2 pkt ∧
      pkt.sentBytes = [0, 25, 0, 15, 0, 0, 0, 7, 2, 80, 0, 8, 1, 1, 96, 0, 92,
        1, 0, 0, 0, 2, 0, 0, 0] ∧
      (PacketS.ofFrame pkt.sentBytes).isValid Adler32.adler32 = .ok (rcv, true) ∧
      ∃ owner, read rcv.buffer 2 rcv.dataSize =
          .ok (clientRow Adler32.adler32 owner (Message.payload ⟨[80], [8, 1]⟩)) ∧
        NetManagerClient.ReadsAs Adler32.adler32
          (clientRow Adler32.adler32 owner (Message.payload ⟨[80], [8, 1]⟩)) ⟨[80], [8, 1]⟩ owner) ∧
    NetManagerClient.ReadsAs Adler32.adler32
      (clientRow Adler32.adler32 9 (Message.payload ⟨[80], [8, 1]⟩)) ⟨[80], [8, 1]⟩ 9 := by
  obtain ⟨hforwarded, hdirect⟩ := client_frames .release Adler32.adler32 (fun _ => 0) .little
    ⟨[80], [8, 1]⟩ (by decide) (by decide)
  obtain ⟨built, owned, one, two, hbuilt, howned, hone, htwo, hsent⟩ : ∃ built owned one two : PacketS,
      PacketS.ofMessage .release Adler32.adler32 (fun _ => 0) ⟨[80], [8, 1]⟩ 2 = .ok built ∧
      built.setOwner 7 = .ok owned ∧
      owned.appendDestination .release .little 1 = .ok (one, true) ∧
      one.appendDestination .release .little 2 = .ok (two, true) ∧
      two.sentBytes = [0, 25, 0, 15, 0, 0, 0, 7, 2, 80, 0, 8, 1, 1, 96, 0, 92,
        1, 0, 0, 0, 2, 0, 0, 0] := ⟨_, _, _, _, rfl, rfl, rfl, rfl, rfl⟩
  have hpkt : PacketS.BuiltFrom .release Adler32.adler32 (fun _ => 0) .little ⟨[80], [8, 1]⟩ 2 two :=
    ((PacketS.BuiltFrom.ofMessage hbuilt).setOwner 7 howned).appendDestination 1 true hone
      |>.appendDestination 2 true htwo
  have hframe : IsFrame two.sentBytes := by
    rw [hsent]
    decide
  obtain ⟨rcv, hvalid⟩ : ∃ rcv, (PacketS.ofFrame two.sentBytes).isValid Adler32.adler32 =
      .ok (rcv, true) := by
    rw [hsent]
    exact ⟨_, rfl⟩
  obtain ⟨owner, dests, -, hread, hreads⟩ := hforwarded 2 two rcv hpkt hframe hvalid
  exact ⟨⟨two, rcv, hpkt, hsent, hvalid, owner, hread, hreads⟩, (hdirect 9).2⟩

end TerraX
