import TerraX.GateServer.PacketProcessorGate
import TerraX.SrvLib.PacketRoundTrip

/-!
# Relaying the packets of clients

The gate does not encode a relayed packet again. It read the frame of the client to
offset 2 of a larger buffer, and the owner and the destination it writes make a server
row of that buffer.

## Main results

- `Gate.forwardPacketOnFrontEnd_eq` — the row that is written to the back end
- `relay_round_trip` — what the next server reads from it
-/

namespace TerraX

open Bytes Memory Framing

/-- The row that the gate makes of a frame: the size field and the destination are new, the
    owner replaces the destination of the client, and all else is as it was. -/
def relayedRow (host : Endian) (frame : List UInt8) (owner dest : Word) : List UInt8 :=
  serverLayout (encodeBE 2 (frame.length + PacketC.exDataSize)) (slice frame 0 2)
    (encodeBE 4 owner.toNat) (slice frame 6 (frame.length - 10)) (slice frame (frame.length - 4) 4)
    (destBytes host [dest])

section Row

variable {frame : List UInt8} (h : 10 ≤ frame.length)

include h

/-- A frame of a client in parts: size, destination, payload and checksum. -/
theorem client_frame_parts :
    frame = slice frame 0 2 ++ (slice frame 2 4 ++ (slice frame 6 (frame.length - 10) ++
      slice frame (frame.length - 4) 4)) := by
  have hend : frame.length - 4 = 6 + (frame.length - 10) := by omega
  have hlen : 2 + (4 + (frame.length - 10 + 4)) = frame.length := by omega
  rw [hend, slice_append_slice, slice_append_slice frame 2 4, slice_append_slice frame 0 2, hlen,
    slice_zero_length]

theorem relayedRow_length (host : Endian) (owner dest : Word) :
    (relayedRow host frame owner dest).length = frame.length + 6 := by
  have hpayload : (slice frame 6 (frame.length - 10)).length = frame.length - 10 :=
    slice_length (by omega)
  rw [relayedRow, serverLayout_length (encodeBE_length _ _) (slice_length (by omega))
    (encodeBE_length _ _) (slice_length (by omega)), hpayload, destBytes_length,
    List.length_singleton]
  omega

/-- The two stores of the gate make the row of the buffer. -/
theorem relayed_buffer (heap : ℕ → UInt8) (host : Endian) (owner dest : Word) :
    ∃ owned, (PacketC.ofClientFrame heap frame).setOwner owner = .ok owned ∧
      owned.appendDestination host dest =
        .ok ⟨relayedRow host frame owner dest, 2, frame.length⟩ := by
  let size := encodeBE 2 (frame.length + PacketC.exDataSize)
  let payload := slice frame 6 (frame.length - 10)
  let sum := slice frame (frame.length - 4) 4
  let tail := (newBlock heap (frame.length + PacketC.exDataSize)).drop (frame.length + 2)
  have htail : tail.length = 4 := by
    simp only [tail, List.length_drop, newBlock_length, PacketC.exDataSize]
    omega
  have hpayload : payload.length = frame.length - 10 := slice_length (by omega)
  have hsum : sum.length = 4 := slice_length (by omega)
  have hdata : (slice frame 0 2).length = 2 := slice_length (by omega)
  have hbuf : (PacketC.ofClientFrame heap frame).buffer =
      size ++ slice frame 0 2 ++ (slice frame 2 4 ++ (payload ++ (sum ++ tail))) := by
    calc (PacketC.ofClientFrame heap frame).buffer
        = size ++ (frame ++ tail) := rfl
      _ = size ++ (slice frame 0 2 ++ (slice frame 2 4 ++ (payload ++ sum)) ++ tail) :=
          congrArg (fun f => size ++ (f ++ tail)) (client_frame_parts h)
      _ = size ++ slice frame 0 2 ++ (slice frame 2 4 ++ (payload ++ (sum ++ tail))) := by
          simp only [List.append_assoc]
  -- The owner goes over the destination of the client, the new destination into the tail.
  have howner : write (PacketC.ofClientFrame heap frame).buffer (2 + 2) (encodeBE 4 owner.toNat) =
      .ok (size ++ slice frame 0 2 ++ (encodeBE 4 owner.toNat ++ (payload ++ (sum ++ tail)))) := by
    rw [hbuf]
    exact write_middle (by simp [size, hdata]) (by rw [encodeBE_length, slice_length (by omega)])
  have hdest : write (size ++ slice frame 0 2 ++ encodeBE 4 owner.toNat ++ payload ++ sum ++
      (tail ++ [])) (frame.length + 2) (encodeHost host 4 dest.toNat) =
        .ok (size ++ slice frame 0 2 ++ encodeBE 4 owner.toNat ++ payload ++ sum ++
          (encodeHost host 4 dest.toNat ++ [])) := by
    refine write_middle ?_ (by rw [encodeHost_length, htail])
    simp only [List.length_append, hdata, hpayload, hsum, encodeBE_length, size]
    omega
  simp only [List.append_assoc, List.append_nil] at howner hdest
  refine ⟨⟨size ++ (slice frame 0 2 ++ (encodeBE 4 owner.toNat ++ (payload ++ (sum ++ tail)))), 2,
    frame.length⟩, ?_, ?_⟩
  · change (write (PacketC.ofClientFrame heap frame).buffer (2 + 2) _ >>= _) = _
    rw [howner]
    rfl
  · have hcapacity : (size ++ (slice frame 0 2 ++ (encodeBE 4 owner.toNat ++
        (payload ++ (sum ++ tail))))).length = frame.length + 6 := by
      simp only [List.length_append, hdata, hpayload, hsum, htail, encodeBE_length, size]
      omega
    have hroom : ¬ frame.length = frame.length + 6 := by omega
    have hoff : frame.length + 6 - 4 = frame.length + 2 := rfl
    rw [PacketC.appendDestination, PacketC.capacity]
    dsimp only
    rw [hcapacity, if_neg hroom, hoff, hdest]
    simp only [ok_bind, pure_eq_ok, relayedRow, serverLayout, destBytes, List.flatMap_cons,
      List.flatMap_nil, List.append_nil, size, payload, sum]

/-- Behind the owner the row has the bytes of the frame, two bytes further on. -/
theorem slice_relayedRow (host : Endian) (owner dest : Word) {off len : ℕ} (hoff : 6 ≤ off)
    (hlen : off + len ≤ frame.length) :
    slice (relayedRow host frame owner dest) (off + 2) len = slice frame off len := by
  have hdata : (slice frame 0 2).length = 2 := slice_length (by omega)
  have hend : frame.length - 4 = 6 + (frame.length - 10) := by omega
  have hlen6 : frame.length - 10 + 4 = frame.length - 6 := by omega
  have hmove : 6 + (off - 6) = off := by omega
  have hrow : relayedRow host frame owner dest =
      encodeBE 2 (frame.length + PacketC.exDataSize) ++ slice frame 0 2 ++
        encodeBE 4 owner.toNat ++ (slice frame 6 (frame.length - 6) ++ destBytes host [dest]) := by
    rw [← hlen6, ← slice_append_slice frame 6, ← hend]
    simp only [relayedRow, serverLayout, List.append_assoc]
  rw [hrow, slice_skip (off - 6) (by simp [hdata]; omega),
    slice_append_left (by rw [slice_length (by omega)]; omega), slice_slice (by omega), hmove]

end Row

/-- The destination that a client asks for. -/
def clientDest (frame : List UInt8) : Word := UInt32.ofNat (decodeBE (slice frame 2 4))

theorem PacketC.getCltDestination_ofClientFrame (heap : ℕ → UInt8) {frame : List UInt8}
    (h : 10 ≤ frame.length) :
    (ofClientFrame heap frame).getCltDestination = .ok (clientDest frame) := by
  have hslice : slice (ofClientFrame heap frame).buffer (2 + 2) 4 = slice frame 2 4 :=
    slice_ofClientFrame heap 2 (by omega)
  have hroom : 2 + 2 + 4 ≤ (ofClientFrame heap frame).buffer.length := by
    rw [ofClientFrame_buffer_length]
    omega
  change (read (ofClientFrame heap frame).buffer (2 + 2) 4 >>= _) = _
  rw [read_ok hroom, hslice]
  rfl

/-- The check of `is_valid` on a frame of a client, in terms of the frame. -/
theorem PacketC.ofClientFrame_isValid_iff (adler32 : List UInt8 → UInt32) (heap : ℕ → UInt8)
    {frame : List UInt8} (hmax : frame.length ≤ maxPacketSize) :
    (ofClientFrame heap frame).isValid adler32 = .ok true ↔ 10 ≤ frame.length ∧
      UInt32.ofNat (decodeBE (slice frame (frame.length - 4) 4)) =
        adler32 (slice frame 6 (frame.length - 10)) := by
  have hbuf := ofClientFrame_buffer_length heap frame
  rw [isValid_true_iff adler32 (by simp [ofClientFrame]) (by rw [hbuf]; simp [ofClientFrame])
    (by omega)]
  refine and_congr_right fun h => ?_
  have h10 : 10 ≤ frame.length := h
  have hoff : frame.length + 2 - 4 = frame.length - 4 + 2 := by omega
  have hstored : slice (ofClientFrame heap frame).buffer (frame.length + 2 - 4) 4 =
      slice frame (frame.length - 4) 4 := by
    rw [hoff]
    exact slice_ofClientFrame heap _ (by omega)
  have hsummed : slice (ofClientFrame heap frame).buffer 8 (frame.length - 10) =
      slice frame 6 (frame.length - 10) := slice_ofClientFrame heap 6 (by omega)
  change UInt32.ofNat (decodeBE (slice _ (frame.length + 2 - 4) 4)) =
    adler32 (slice _ 8 (frame.length - 10)) ↔ _
  rw [hstored, hsummed]

namespace Gate

variable (build : Build) (heap : ℕ → UInt8) (host : Endian) {gate : Gate}
  {front back : NetChannel} {guest : Guest} {frame : List UInt8}

/-- A packet for a server of another type becomes a row, which is written to the back end if this
    is connected. -/
theorem forwardPacketOnFrontEnd_relay (h : 10 ≤ frame.length)
    (hguest : gate.guests front.getPeerInfo = some guest)
    (htype : PeerInfo.getPeerType (clientDest frame) ≠ .gateserver) :
    gate.forwardPacketOnFrontEnd build host front (.ofClientFrame heap frame) =
      .ok (match gate.backEnd with
        | none => []
        | some back => if back.sendMsg then [.sendBackEnd (relayedRow host frame guest.ownerInfo
            (guest.getDestPeerInfo (PeerInfo.getPeerType (clientDest frame))))] else []) := by
  obtain ⟨owned, howned, hrelayed⟩ := relayed_buffer h heap host guest.ownerInfo
    (guest.getDestPeerInfo (PeerInfo.getPeerType (clientDest frame)))
  have htype' : ¬ PeerType.gateserver = (PeerInfo.parse (clientDest frame)).peerType :=
    fun heq => htype heq.symm
  rw [forwardPacketOnFrontEnd, PacketC.getCltDestination_ofClientFrame heap h, ok_bind]
  dsimp only
  rw [hguest]
  dsimp only
  rw [howned, ok_bind, if_neg htype']
  change (owned.appendDestination host (guest.getDestPeerInfo
    (PeerInfo.getPeerType (clientDest frame))) >>= _) = _
  rw [hrelayed, ok_bind]
  cases gate.backEnd with
  | none => rfl
  | some back => rfl

/-- For every guest the gate writes one row to its back end: the owner is the guest, and the
    destination is the one the guest has for the type that the client asked for. -/
theorem forwardPacketOnFrontEnd_eq (h : 10 ≤ frame.length)
    (hguest : gate.guests front.getPeerInfo = some guest) (hback : gate.backEnd = some back)
    (hconn : back.connState = .connected)
    (htype : PeerInfo.getPeerType (clientDest frame) ≠ .gateserver) :
    gate.forwardPacketOnFrontEnd build host front (.ofClientFrame heap frame) =
      .ok [.sendBackEnd (relayedRow host frame guest.ownerInfo
        (guest.getDestPeerInfo (PeerInfo.getPeerType (clientDest frame))))] := by
  have hsend : back.sendMsg = true := by rw [NetChannel.sendMsg, hconn]; rfl
  rw [forwardPacketOnFrontEnd_relay build heap host h hguest htype, hback]
  simp only [hsend, if_true]

/-- A packet for the gate is handed to a handler, with the guest as its owner. -/
theorem forwardPacketOnFrontEnd_own (h : 10 ≤ frame.length)
    (hguest : gate.guests front.getPeerInfo = some guest)
    (htype : PeerInfo.getPeerType (clientDest frame) = .gateserver) :
    gate.forwardPacketOnFrontEnd build host front (.ofClientFrame heap frame) =
      ((PacketC.ofClientFrame heap frame).setOwner guest.ownerInfo >>= fun pktC =>
        pktC.onMessage front guest.ownerInfo >>= fun packet => .ok [.dispatch packet]) := by
  have htype' : PeerType.gateserver = (PeerInfo.parse (clientDest frame)).peerType := htype.symm
  rw [forwardPacketOnFrontEnd, PacketC.getCltDestination_ofClientFrame heap h, ok_bind]
  dsimp only
  rw [hguest]
  dsimp only
  simp only [if_pos htype', PacketC.onMessage, bind_assoc, pure_eq_ok, ok_bind]

end Gate

/-! ### The next server -/

section NextServer

variable (heap : ℕ → UInt8) (host : Endian) {frame : List UInt8} (owner dest : Word)

/-- The name length of the row is that of the frame. -/
theorem nameLenField_relayedRow (h : 10 ≤ frame.length) :
    nameLenField (relayedRow host frame owner dest) 8 = nameLenField frame 6 := by
  have hslice : slice (relayedRow host frame owner dest) (6 + 2) 1 = slice frame 6 1 :=
    slice_relayedRow h host owner dest le_rfl (by omega)
  rw [nameLenField, nameLenField, ← hslice]

theorem nameLenField_ofClientFrame (h : 10 ≤ frame.length) :
    nameLenField (PacketC.ofClientFrame heap frame).buffer 8 = nameLenField frame 6 := by
  have hslice : slice (PacketC.ofClientFrame heap frame).buffer (6 + 2) 1 = slice frame 6 1 :=
    PacketC.slice_ofClientFrame heap 6 (by omega)
  rw [nameLenField, nameLenField, ← hslice]

/-- Two buffers with the same bytes in the name field have the same name. -/
theorem packetNameAt_congr {buffer buffer' : List UInt8} {header n : ℕ}
    (hn : nameLenField buffer header = n) (hn' : nameLenField buffer' header = n)
    (hhead : header + 1 ≤ buffer.length) (hhead' : header + 1 ≤ buffer'.length)
    (hfit : header + n ≤ buffer.length) (hfit' : header + n ≤ buffer'.length)
    (hname : slice buffer (header + 1) (n - 1) = slice buffer' (header + 1) (n - 1)) :
    packetNameAt buffer header = packetNameAt buffer' header := by
  subst hn
  by_cases hz : nameLenField buffer header = 0
  · rw [packetNameAt_zero hhead hz, packetNameAt_zero hhead' (hn'.trans hz)]
  · rw [packetNameAt_eq (by omega) hfit, packetNameAt_eq (by omega) (by omega), hn', hname]

/-- The name that the gate saw is the name in the row, if it ends inside the frame. -/
theorem getPacketName_relayedRow (h : 10 ≤ frame.length)
    (hname : nameLenField frame 6 + 6 ≤ frame.length) :
    packetNameAt (relayedRow host frame owner dest) 8 =
      (PacketC.ofClientFrame heap frame).getPacketName := by
  have hrow := relayedRow_length h host owner dest
  have hbuf := PacketC.ofClientFrame_buffer_length heap frame
  have hend : 7 + (nameLenField frame 6 - 1) ≤ frame.length := by omega
  refine packetNameAt_congr (nameLenField_relayedRow host owner dest h)
    (nameLenField_ofClientFrame heap h) (by omega) (by omega) (by omega) (by omega) ?_
  exact (slice_relayedRow h host owner dest (by omega) hend).trans
    (PacketC.slice_ofClientFrame heap 7 hend).symm

/-- The row is a frame that passes `is_valid` at the next server. -/
theorem isValid_relayedRow (adler32 : List UInt8 → UInt32) (hframe : IsFrame frame)
    (hmax : frame.length + PacketC.exDataSize ≤ maxPacketSize)
    (hvalid : (PacketC.ofClientFrame heap frame).isValid adler32 = .ok true) :
    IsFrame (relayedRow host frame owner dest) ∧
      (PacketS.ofFrame (relayedRow host frame owner dest)).isValid adler32 =
        .ok (⟨relayedRow host frame owner dest, frame.length, frame.length + 6⟩, true) := by
  obtain ⟨h, hsum⟩ := (PacketC.ofClientFrame_isValid_iff adler32 heap hframe.2.1).mp hvalid
  have hex : PacketC.exDataSize = 6 := rfl
  have hlt : maxPacketSize < 256 ^ 2 := by decide
  have hrow := relayedRow_length h host owner dest
  have hpayload : (slice frame 6 (frame.length - 10)).length = frame.length - 10 :=
    slice_length (by omega)
  have hdests : (destBytes host [dest]).length = 4 := destBytes_length host [dest]
  have hs := encodeBE_length 2 (frame.length + PacketC.exDataSize)
  have hd : (slice frame 0 2).length = 2 := slice_length (by omega)
  have ho := encodeBE_length 4 owner.toNat
  have hc : (slice frame (frame.length - 4) 4).length = 4 := slice_length (by omega)
  have hsize : decodeBE (encodeBE 2 (frame.length + PacketC.exDataSize)) = frame.length + 6 :=
    decodeBE_encodeBE_of_lt (by omega)
  have hdata : decodeBE (slice frame 0 2) = (slice frame 6 (frame.length - 10)).length + 10 := by
    rw [hframe.2.2, hpayload]
    omega
  constructor
  · exact isFrame_serverLayout hs hd ho hc (by omega) (by omega)
  · have hcheck : (PacketS.ofFrame (relayedRow host frame owner dest)).isValid adler32 =
        .ok ({ PacketS.ofFrame (relayedRow host frame owner dest) with
          dataSize := (slice frame 6 (frame.length - 10)).length + 10 }, true) :=
      PacketS.isValid_serverLayout adler32 hs hd ho hc hdata (by omega) hsum
    rw [hcheck]
    simp only [PacketS.ofFrame, hrow, hpayload, Nat.sub_add_cancel h]

/-- The row is cut off as a frame, unless it is too long: then it stays unread, with all that
    follows it. -/
theorem readMessage_relayedRow (adler32 : List UInt8 → UInt32) (hframe : IsFrame frame)
    (hvalid : (PacketC.ofClientFrame heap frame).isValid adler32 = .ok true) (build : Build)
    (heap' : ℕ → UInt8) (tail : List UInt8) (queueRead : List Packet) :
    readMessage build heap' false (relayedRow host frame owner dest ++ tail) queueRead =
      if frame.length + PacketC.exDataSize ≤ maxPacketSize then
        readMessage build heap' false tail
          (queueRead ++ [.s (.ofFrame (relayedRow host frame owner dest))])
      else .ok (relayedRow host frame owner dest ++ tail, queueRead, .invalidLength) := by
  obtain ⟨h10, -⟩ := (PacketC.ofClientFrame_isValid_iff adler32 heap hframe.2.1).mp hvalid
  by_cases hfits : frame.length + PacketC.exDataSize ≤ maxPacketSize
  · rw [if_pos hfits]
    exact readMessage_frame build heap'
      (isValid_relayedRow heap host owner dest adler32 hframe hfits hvalid).1 tail queueRead
  · rw [if_neg hfits]
    have hmax := hframe.2.1
    have hlt : maxPacketSize + 6 < 256 ^ 2 := by decide
    have hex : PacketC.exDataSize = 6 := rfl
    have htake (tail : List UInt8) : (encodeBE 2 (frame.length + PacketC.exDataSize) ++ tail).take 2 =
        encodeBE 2 (frame.length + PacketC.exDataSize) := List.take_left' (encodeBE_length _ _)
    refine readMessage_invalidLength build heap' false ?_ (Or.inl ?_) queueRead
    · simp only [minMsgLength, List.length_append, relayedRow_length h10]
      omega
    · rw [relayedRow, serverLayout, List.append_assoc, htake, decodeBE_encodeBE_of_lt (by omega)]
      omega

end NextServer

/-- The relay of the gate is transparent for everything but the address. For every frame of
    a client that passes `is_valid` at the gate, hostile or not, the bytes that the gate
    writes are one frame for the next server: `ReadMessage` cuts it off whatever follows,
    it passes `is_valid`, and name, message and size are those of the packet that the gate
    sends. They are also those of the packet as the gate received it; for the name this
    needs that it ends inside the frame, since the gate puts the destination behind it. The
    owner is the avatar of the guest, or the guest where it has none, and the only
    destination is the one that the guest has for the type the client asked for. -/
theorem relay_round_trip (build : Build) (adler32 : List UInt8 → UInt32) (heap : ℕ → UInt8)
    (host : Endian) (gate : Gate) (front back : NetChannel) (guest : Guest) (frame : List UInt8)
    (hframe : IsFrame frame) (hmax : frame.length + PacketC.exDataSize ≤ maxPacketSize)
    (hvalid : (PacketC.ofClientFrame heap frame).isValid adler32 = .ok true)
    (hguest : gate.guests front.getPeerInfo = some guest) (hback : gate.backEnd = some back)
    (hconn : back.connState = .connected)
    (htype : PeerInfo.getPeerType (clientDest frame) ≠ .gateserver) :
    ∃ (owned relayed : PacketC) (rcv : PacketS),
      (PacketC.ofClientFrame heap frame).setOwner guest.ownerInfo = .ok owned ∧
      owned.appendDestination host
        (guest.getDestPeerInfo (PeerInfo.getPeerType (clientDest frame))) = .ok relayed ∧
      gate.forwardPacketOnFrontEnd build host front (.ofClientFrame heap frame) =
        .ok [.sendBackEnd relayed.buffer] ∧
      relayed.buffer.length = frame.length + PacketC.exDataSize ∧
      (∀ build heap tail queueRead,
        readMessage build heap false (relayed.buffer ++ tail) queueRead =
          readMessage build heap false tail (queueRead ++ [.s (.ofFrame relayed.buffer)])) ∧
      (PacketS.ofFrame relayed.buffer).isValid adler32 = .ok (rcv, true) ∧
      (rcv.getPacketName = relayed.getPacketName ∧ rcv.getPacketMsg = relayed.getPacketMsg ∧
        rcv.getMsgSize = relayed.getMsgSize) ∧
      (rcv.getPacketMsg = (PacketC.ofClientFrame heap frame).getPacketMsg ∧
        rcv.getMsgSize = (PacketC.ofClientFrame heap frame).getMsgSize ∧
        slice rcv.buffer 8 (frame.length - 6) = slice frame 6 (frame.length - 6) ∧
        (nameLenField frame 6 + 6 ≤ frame.length →
          rcv.getPacketName = (PacketC.ofClientFrame heap frame).getPacketName)) ∧
      rcv.getOwnerInfo =
        .ok (if guest.currentAvatarId ≠ 0 then guest.currentAvatarId else guest.guestId) ∧
      ∀ build, rcv.destinations build host =
        .ok [guest.getDestPeerInfo (PeerInfo.getPeerType (clientDest frame))] := by
  obtain ⟨h, -⟩ := (PacketC.ofClientFrame_isValid_iff adler32 heap hframe.2.1).mp hvalid
  obtain ⟨owned, howned, hrelayed⟩ := relayed_buffer h heap host guest.ownerInfo
    (guest.getDestPeerInfo (PeerInfo.getPeerType (clientDest frame)))
  obtain ⟨hrow, hrcv⟩ := isValid_relayedRow heap host guest.ownerInfo
    (guest.getDestPeerInfo (PeerInfo.getPeerType (clientDest frame))) adler32 hframe hmax hvalid
  have hlen := relayedRow_length h host guest.ownerInfo
    (guest.getDestPeerInfo (PeerInfo.getPeerType (clientDest frame)))
  have hbuf := PacketC.ofClientFrame_buffer_length heap frame
  -- a server packet leaves its first field out of its data size, and its header is two bytes longer
  have hsize : ∀ row : List UInt8,
      PacketS.getMsgSize ⟨row, frame.length, frame.length + 6⟩ =
        PacketC.getMsgSize ⟨row, 2, frame.length⟩ := by
    intro row
    have heq : (frame.length : ℤ) + 2 - 8 = frame.length - 6 := by omega
    change msgSizeAt row 8 ((frame.length : ℤ) + 2 - 8) = msgSizeAt row 8 (frame.length - 6)
    rw [heq]
  refine ⟨owned, _, _, howned, hrelayed, ?_, relayedRow_length h host _ _, ?_, hrcv,
    ⟨rfl, rfl, ?_⟩, ⟨?_, ?_, ?_, ?_⟩, ?_, fun build => ?_⟩
  · exact Gate.forwardPacketOnFrontEnd_eq build heap host h hguest hback hconn htype
  · intro build heap tail queueRead
    exact readMessage_frame build heap hrow tail queueRead
  · exact hsize _
  · change packetMsgAt (relayedRow host frame _ _) 8 =
      packetMsgAt (PacketC.ofClientFrame heap frame).buffer 8
    rw [packetMsgAt_eq (by omega), packetMsgAt_eq (by omega), nameLenField_relayedRow host _ _ h,
      nameLenField_ofClientFrame heap h]
  · rw [hsize]
    change msgSizeAt (relayedRow host frame _ _) 8 (frame.length - 6) =
      msgSizeAt (PacketC.ofClientFrame heap frame).buffer 8 (frame.length - 6)
    rw [msgSizeAt, msgSizeAt, nameLenAt_eq (by omega), nameLenAt_eq (by omega),
      nameLenField_relayedRow host _ _ h, nameLenField_ofClientFrame heap h]
  · exact slice_relayedRow h host _ _ le_rfl (by omega)
  · exact getPacketName_relayedRow heap host _ _ h
  · rw [PacketS.getOwnerInfo_serverLayout rfl (encodeBE_length _ _) (slice_length (by omega))
      (encodeBE_length _ _), ofNat_decodeBE, Guest.ownerInfo]
    by_cases ha : guest.currentAvatarId = 0
    · rw [if_pos ha, if_neg (fun hne => hne ha)]
    · rw [if_neg ha, if_pos ha]
  · refine PacketS.destinations_serverLayout build host rfl (encodeBE_length _ _)
      (slice_length (by omega)) (encodeBE_length _ _) (slice_length (by omega)) ?_ hlen.symm
      (hlen.trans_le hmax)
    rw [slice_length (by omega)]
    exact (Nat.sub_add_cancel h).symm

/-- A guest without an avatar sends an empty message to the center. -/
theorem relay_round_trip_toCenter :
    ∃ relayed rcv,
      Gate.forwardPacketOnFrontEnd .debug .little
        ⟨some { connState := .connected }, fun _ => some (.new 0x03010002 0x02000000)⟩ {}
        (.ofClientFrame (fun _ => 0) [0, 12, 2, 0, 0, 0, 1, 0, 0, 4, 0, 2]) =
          .ok [.sendBackEnd relayed] ∧
      (PacketS.ofFrame relayed).isValid Adler32.adler32 = .ok (rcv, true) ∧
      rcv.getOwnerInfo = .ok 0x03010002 ∧ rcv.destinations .debug .little = .ok [0x02000000] := by
  obtain ⟨owned, relayed, rcv, -, -, hforward, -, -, hvalid, -, -, howner, hdests⟩ :=
    relay_round_trip .debug Adler32.adler32 (fun _ => 0) .little
      ⟨some { connState := .connected }, fun _ => some (.new 0x03010002 0x02000000)⟩ {}
      { connState := .connected } (.new 0x03010002 0x02000000)
      [0, 12, 2, 0, 0, 0, 1, 0, 0, 4, 0, 2] (by decide) (by decide) rfl rfl rfl rfl (by decide)
  exact ⟨relayed.buffer, rcv, hforward, hvalid, howner, hdests .debug⟩

end TerraX
