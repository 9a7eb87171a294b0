import TerraX.Net.PacketSafety

/-!
# The layout of a server packet

A server packet is six byte strings in a row. The constructor and
`AppendDestination` build such a row by stores at computed offsets, and the
accessors of a receiver take it apart again. Both sides are related to the row
here, whatever its payload is.

## Main definitions

- `serverLayout` — the row
- `clientRow` — the row of a client packet
- `Message.payload` — name length, name and body, as they stand in the row
- `PacketS.Holds` — a packet whose buffer is a row, followed by free room
- `PacketS.appendAll` — a sequence of `AppendDestination` calls

## Main results

- `PacketS.isValid_serverLayout` — the check on a row
- `PacketS.destinations_serverLayout` — the destinations of a row
- `slice_serverLayout_eq_clientRow` — the client packet inside a server packet
- `PacketS.ofMessage_holds`, `PacketS.appendAll_holds` — what a sender builds
-/

namespace TerraX

open Bytes Memory

/-- The parts of a server packet in a row. -/
def serverLayout (size data owner payload sum dests : List UInt8) : List UInt8 :=
  size ++ (data ++ (owner ++ (payload ++ (sum ++ dests))))

section Layout

variable {size data owner payload sum dests : List UInt8}

theorem serverLayout_length (hs : size.length = 2) (hd : data.length = 2) (ho : owner.length = 4)
    (hc : sum.length = 4) :
    (serverLayout size data owner payload sum dests).length =
      payload.length + 12 + dests.length := by
  simp only [serverLayout, List.length_append]
  omega

theorem slice_data (hs : size.length = 2) (hd : data.length = 2) :
    slice (serverLayout size data owner payload sum dests) 2 2 = data :=
  slice_behind hs.symm hd.symm

theorem slice_owner (hs : size.length = 2) (hd : data.length = 2) (ho : owner.length = 4) :
    slice (serverLayout size data owner payload sum dests) 4 4 = owner := by
  rw [serverLayout, slice_skip 2 (by omega)]
  exact slice_behind hd.symm ho.symm

/-- Reading inside the payload. -/
theorem slice_payload (hs : size.length = 2) (hd : data.length = 2) (ho : owner.length = 4)
    {off len : ℕ} (h : off + len ≤ payload.length) :
    slice (serverLayout size data owner payload sum dests) (8 + off) len =
      slice payload off len := by
  rw [serverLayout, slice_skip (6 + off) (by omega),
    slice_skip (4 + off) (by omega), slice_skip off (by omega),
    slice_append_left h]

theorem slice_sum (hs : size.length = 2) (hd : data.length = 2) (ho : owner.length = 4)
    (hc : sum.length = 4) :
    slice (serverLayout size data owner payload sum dests) (8 + payload.length) 4 = sum := by
  rw [serverLayout, slice_skip (6 + payload.length) (by omega),
    slice_skip (4 + payload.length) (by omega), slice_skip payload.length (by omega)]
  exact slice_behind rfl hc.symm

/-- Reading inside the destinations. -/
theorem slice_dests (hs : size.length = 2) (hd : data.length = 2) (ho : owner.length = 4)
    (hc : sum.length = 4) {off len : ℕ} :
    slice (serverLayout size data owner payload sum dests) (12 + payload.length + off) len =
      slice dests off len := by
  rw [serverLayout, slice_skip (10 + payload.length + off) (by omega),
    slice_skip (8 + payload.length + off) (by omega),
    slice_skip (4 + payload.length + off) (by omega),
    slice_skip (4 + off) (by omega), slice_skip off (by omega)]

/-- The check of `is_valid` on a row whose data field announces what the row holds. -/
theorem PacketS.isValid_serverLayout (adler32 : List UInt8 → UInt32) (hs : size.length = 2)
    (hd : data.length = 2) (ho : owner.length = 4) (hc : sum.length = 4)
    (hdata : decodeBE data = payload.length + 10)
    (hmax : payload.length + 12 + dests.length ≤ maxPacketSize)
    (hsum : UInt32.ofNat (decodeBE sum) = adler32 payload) :
    (ofFrame (serverLayout size data owner payload sum dests)).isValid adler32 =
      .ok ({ ofFrame (serverLayout size data owner payload sum dests) with
        dataSize := payload.length + 10 }, true) := by
  have hlen : (serverLayout size data owner payload sum dests).length =
      payload.length + 12 + dests.length := serverLayout_length hs hd ho hc
  have hfield : dataSizeField (serverLayout size data owner payload sum dests) =
      payload.length + 10 := by
    rw [dataSizeField, slice_data hs hd, hdata]
  have hpay : slice (serverLayout size data owner payload sum dests) 8 payload.length = payload :=
    (slice_payload hs hd ho (Nat.zero_add _).le).trans (slice_zero_length payload)
  have hstored : slice (serverLayout size data owner payload sum dests) (8 + payload.length) 4 =
      sum := slice_sum hs hd ho hc
  refine (isValid_true_iff adler32 (by simp only [ofFrame]; omega)).mpr ⟨?_, ?_, ?_⟩
  · simp only [ofFrame, hfield]
    omega
  · have hptr : payload.length + 10 - 2 = 8 + payload.length := by omega
    simp only [ofFrame, hfield, hptr, hstored, hsum, Nat.add_sub_cancel, headerSize, Nat.reduceAdd,
      hpay]
  · simp only [ofFrame, hfield]

theorem PacketS.getOwnerInfo_serverLayout {pkt : PacketS}
    (hbuf : pkt.buffer = serverLayout size data owner payload sum dests) (hs : size.length = 2)
    (hd : data.length = 2) (ho : owner.length = 4) :
    pkt.getOwnerInfo = .ok (UInt32.ofNat (decodeBE owner)) := by
  have hroom : 2 + 2 + 4 ≤ pkt.buffer.length := by
    rw [hbuf]
    simp only [serverLayout, List.length_append]
    omega
  rw [getOwnerInfo, read_ok hroom, hbuf]
  simp only [Nat.reduceAdd, slice_owner hs hd ho]
  rfl

end Layout

/-! ### Destinations -/

/-- The bytes of a destination list. -/
def destBytes (host : Endian) (dests : List Word) : List UInt8 :=
  dests.flatMap fun dest => encodeHost host 4 dest.toNat

@[simp] theorem destBytes_length (host : Endian) (dests : List Word) :
    (destBytes host dests).length = 4 * dests.length := by
  induction dests with
  | nil => rfl
  | cons dest dests ih =>
    rw [destBytes, List.flatMap_cons, List.length_append, encodeHost_length, List.length_cons]
    rw [destBytes] at ih
    omega

theorem ofNat_decodeHost (host : Endian) (w : Word) :
    UInt32.ofNat (decodeHost host (encodeHost host 4 w.toNat)) = w := by
  have hw := w.toNat_lt
  apply UInt32.toNat_inj.mp
  rw [UInt32.toNat_ofNat', decodeHost_encodeHost]
  omega

theorem ofNat_decodeBE (w : Word) : UInt32.ofNat (decodeBE (encodeBE 4 w.toNat)) = w :=
  ofNat_decodeHost .big w

/-- Four bytes are the encoding of the word that they stand for. -/
theorem encodeBE_ofNat_decodeBE {bs : List UInt8} (h : bs.length = 4) :
    encodeBE 4 (UInt32.ofNat (decodeBE bs)).toNat = bs := by
  have hlt := decodeBE_lt bs
  rw [h] at hlt
  have hword : (UInt32.ofNat (decodeBE bs)).toNat = decodeBE bs := UInt32.toNat_ofNat_of_lt hlt
  rw [hword, ← h, encodeBE_decodeBE]

/-- Entry by entry, the destination bytes read back as the list. -/
theorem slice_destBytes (host : Endian) {dests : List Word} {i : ℕ} (h : i < dests.length) :
    slice (destBytes host dests) (4 * i) 4 = encodeHost host 4 (dests[i]).toNat := by
  induction dests generalizing i with
  | nil => simp at h
  | cons dest dests ih =>
    have hsplit : destBytes host (dest :: dests) =
        encodeHost host 4 dest.toNat ++ destBytes host dests := rfl
    rw [hsplit]
    cases i with
    | zero =>
      have hwhole := slice_zero_length (encodeHost host 4 dest.toNat)
      rw [encodeHost_length] at hwhole
      rw [slice_append_left (by simp)]
      exact hwhole
    | succ i =>
      rw [slice_skip (4 * i) (by rw [encodeHost_length]; omega),
        ih (by simpa using h)]
      rfl

/-- The destinations of a row that ends behind them. -/
theorem PacketS.destinations_serverLayout {size data owner payload sum : List UInt8}
    (build : Build) (host : Endian) {pkt : PacketS} {dests : List Word}
    (hbuf : pkt.buffer = serverLayout size data owner payload sum (destBytes host dests))
    (hs : size.length = 2) (hd : data.length = 2) (ho : owner.length = 4) (hc : sum.length = 4)
    (hdata : pkt.dataSize = payload.length + 10) (hsize : pkt.packetSize = pkt.buffer.length)
    (hmax : pkt.buffer.length ≤ maxPacketSize) :
    pkt.destinations build host = .ok dests := by
  unfold maxPacketSize at hmax
  have hlen : pkt.buffer.length = payload.length + 12 + (destBytes host dests).length := by
    rw [hbuf]
    exact serverLayout_length hs hd ho hc
  rw [destBytes_length] at hlen
  have hcount : (pkt.packetSize - (pkt.dataSize + 2)) / 4 = dests.length := by omega
  rw [destinations, getAllDestination_eq build (by omega) (by omega) (by omega), hcount]
  refine mapM_range_ok fun i hi => ?_
  have hoff : pkt.dataSize + 2 + 4 * i = 12 + payload.length + 4 * i := by omega
  rw [destinationAt, read_ok (by omega), hoff, hbuf, slice_dests hs hd ho hc,
    slice_destBytes host hi, ok_bind, ofNat_decodeHost]
  rfl

/-! ### Client packets -/

/-- A frame of a client with a given destination and payload, and the right checksum. -/
def clientRow (adler32 : List UInt8 → UInt32) (dest : Word) (payload : List UInt8) : List UInt8 :=
  encodeBE 2 (payload.length + 10) ++
    (encodeBE 4 dest.toNat ++ (payload ++ encodeBE 4 (adler32 payload).toNat))

section ClientRow

variable (adler32 : List UInt8 → UInt32) (dest : Word) (payload : List UInt8)

theorem clientRow_length : (clientRow adler32 dest payload).length = payload.length + 10 := by
  simp only [clientRow, List.length_append, encodeBE_length]
  omega

theorem slice_size_clientRow :
    slice (clientRow adler32 dest payload) 0 2 = encodeBE 2 (payload.length + 10) := by
  rw [clientRow, slice_append_left (by rw [encodeBE_length])]
  exact slice_zero_length _

theorem slice_dest_clientRow :
    slice (clientRow adler32 dest payload) 2 4 = encodeBE 4 dest.toNat :=
  slice_behind (encodeBE_length _ _).symm (encodeBE_length _ _).symm

theorem slice_payload_clientRow {off len : ℕ} (h : off + len ≤ payload.length) :
    slice (clientRow adler32 dest payload) (6 + off) len = slice payload off len := by
  rw [clientRow, slice_skip (4 + off) (by rw [encodeBE_length]; omega),
    slice_skip off (by rw [encodeBE_length]), slice_append_left h]

theorem slice_sum_clientRow :
    slice (clientRow adler32 dest payload) (6 + payload.length) 4 =
      encodeBE 4 (adler32 payload).toNat := by
  rw [clientRow, slice_skip (4 + payload.length) (by rw [encodeBE_length]; omega),
    slice_skip payload.length (by rw [encodeBE_length]), slice_skip 0 (Nat.add_zero _).symm]
  have hwhole := slice_zero_length (encodeBE 4 (adler32 payload).toNat)
  rwa [encodeBE_length] at hwhole

/-- It is what is left of a server packet without its first field and its destinations. -/
theorem slice_serverLayout_eq_clientRow {size dests : List UInt8} (hs : size.length = 2) :
    slice (serverLayout size (encodeBE 2 (payload.length + 10)) (encodeBE 4 dest.toNat) payload
      (encodeBE 4 (adler32 payload).toNat) dests) 2 (payload.length + 10) =
      clientRow adler32 dest payload := by
  have hsplit : serverLayout size (encodeBE 2 (payload.length + 10)) (encodeBE 4 dest.toNat) payload
      (encodeBE 4 (adler32 payload).toNat) dests =
      size ++ (clientRow adler32 dest payload ++ dests) := by
    simp only [serverLayout, clientRow, List.append_assoc]
  rw [hsplit, slice_behind hs.symm (clientRow_length adler32 dest payload).symm]

theorem isFrame_clientRow (hmax : payload.length + 10 ≤ maxPacketSize) :
    IsFrame (clientRow adler32 dest payload) := by
  have hlt : maxPacketSize < 256 ^ 2 := by decide
  have hlen := clientRow_length adler32 dest payload
  refine ⟨by omega, by omega, ?_⟩
  rw [slice_size_clientRow, hlen, decodeBE_encodeBE_of_lt (by omega)]

end ClientRow

/-! ### What a sender builds -/

/-- Name length, name, terminating zero and body: the bytes the checksum covers. -/
def Message.payload (msg : Message) : List UInt8 :=
  UInt8.ofNat (msg.name.length + 1) :: (msg.name ++ 0 :: msg.body)

theorem Message.payload_length (msg : Message) :
    msg.payload.length = msg.name.length + msg.body.length + 2 := by
  simp only [payload, List.length_cons, List.length_append]
  omega

theorem Message.nameLen_eq {msg : Message} (h : msg.name.length ≤ 254) :
    msg.nameLen = msg.name.length + 1 := Nat.mod_eq_of_lt (by omega)

theorem Message.totalDataSize_eq {msg : Message} (h : msg.name.length ≤ 254) :
    msg.totalDataSize = msg.payload.length := by
  rw [totalDataSize, nameLen_eq h, payload_length]
  omega

/-- The stores behind a header put payload and checksum there. -/
theorem writeMessage_eq (adler32 : List UInt8 → UInt32) {done room : List UInt8} {header : ℕ}
    {msg : Message} (hname : msg.name.length ≤ 254) (hheader : header = done.length)
    (hroom : msg.payload.length + 4 ≤ room.length) :
    writeMessage adler32 (done ++ room) header header msg =
      .ok (done ++ msg.payload ++ encodeBE 4 (adler32 msg.payload).toNat ++
        room.drop (msg.payload.length + 4)) := by
  have hlen := msg.payload_length
  have hpayload : done ++ [UInt8.ofNat (msg.name.length + 1)] ++ (msg.name ++ [0]) ++ msg.body =
      done ++ msg.payload := by simp [Message.payload]
  have htake : (msg.name ++ [0]).take (msg.name.length + 1) = msg.name ++ [0] :=
    List.take_of_length_le (by simp)
  have hsum : read (done ++ msg.payload ++ room.drop msg.payload.length) header
      msg.payload.length = .ok msg.payload := by
    rw [List.append_assoc, read_ok (by simp only [List.length_append]; omega), hheader,
      slice_append_middle]
  have hdrop : 1 + (msg.name.length + 1) + msg.body.length = msg.payload.length := by omega
  rw [writeMessage, Message.nameLen_eq hname, Message.totalDataSize_eq hname, htake]
  dsimp only
  -- each store lies right behind what the stores before it have initialised
  rw [write_append hheader (by simp only [List.length_singleton]; omega), ok_bind,
    write_append (by simp [hheader]) (by simp; omega), ok_bind,
    write_append (by simp [hheader]; omega) (by simp; omega), ok_bind]
  simp only [List.drop_drop, List.length_append, List.length_singleton]
  rw [hpayload, hdrop, hsum, ok_bind,
    write_append (by simp [hheader]; omega) (by simp; omega), encodeBE_length, List.drop_drop]

/-- The buffer of a packet is a row with free room behind it, and the sizes of the packet
    are those of the row. -/
structure PacketS.Holds (pkt : PacketS) (owner payload sum dests room : List UInt8) : Prop where
  buffer : pkt.buffer =
    serverLayout (encodeBE 2 pkt.packetSize) (encodeBE 2 pkt.dataSize) owner payload sum dests ++
      room
  owner_length : owner.length = 4
  sum_length : sum.length = 4
  dataSize : pkt.dataSize = payload.length + 10
  packetSize : pkt.packetSize = payload.length + 12 + dests.length

namespace PacketS

variable {pkt : PacketS} {owner payload sum dests room : List UInt8}

theorem Holds.row_length (h : pkt.Holds owner payload sum dests room) :
    (serverLayout (encodeBE 2 pkt.packetSize) (encodeBE 2 pkt.dataSize) owner payload sum
      dests).length = pkt.packetSize := by
  rw [h.packetSize]
  exact serverLayout_length (encodeBE_length _ _) (encodeBE_length _ _) h.owner_length h.sum_length

/-- What is sent is the row without the room. -/
theorem Holds.sentBytes (h : pkt.Holds owner payload sum dests room) :
    pkt.sentBytes = serverLayout (encodeBE 2 pkt.packetSize) (encodeBE 2 pkt.dataSize) owner payload
      sum dests := by
  rw [PacketS.sentBytes, getPacketSize, h.buffer, slice_append_left (by rw [h.row_length]; omega)]
  have hwhole := slice_zero_length (serverLayout (encodeBE 2 pkt.packetSize)
    (encodeBE 2 pkt.dataSize) owner payload sum dests)
  rwa [h.row_length] at hwhole

/-- The constructor leaves room for its receivers. -/
theorem ofMessage_holds (build : Build) (adler32 : List UInt8 → UInt32) (heap : ℕ → UInt8)
    {msg : Message} (n : ℕ) (hname : msg.name.length ≤ 254)
    (hbody : build = .debug → msg.body.length ≤ maxMsgSize) :
    ∃ pkt owner room, ofMessage build adler32 heap msg n = .ok pkt ∧
      pkt.Holds owner msg.payload (encodeBE 4 (adler32 msg.payload).toNat) [] room ∧
      room.length = 4 * n := by
  have hpacket : headerSize + msg.totalDataSize + 4 = msg.payload.length + 12 := by
    rw [Message.totalDataSize_eq hname, headerSize]
    omega
  have hdata : msg.payload.length + 12 - 2 = msg.payload.length + 10 := rfl
  have hsize : 2 + (msg.payload.length + 10) + 4 * n = msg.payload.length + 12 + 4 * n := by omega
  generalize hblock : newBlock heap (msg.payload.length + 12 + 4 * n) = block
  have hlen : block.length = msg.payload.length + 12 + 4 * n := by
    rw [← hblock, newBlock_length]
  -- the bytes that the owner will take stay as they are
  obtain ⟨owner, body, hcut, howner⟩ := exists_cut (block.drop 4) (k := 4)
    (by rw [List.length_drop]; omega)
  have hbodyLen : body.length = msg.payload.length + 4 + 4 * n := by
    have h := congrArg List.length hcut
    rw [List.length_drop, List.length_append] at h
    omega
  have hfirst : write ([] ++ block) 0 (encodeBE 2 (msg.payload.length + 12)) =
      .ok ([] ++ encodeBE 2 (msg.payload.length + 12) ++ block.drop 2) :=
    write_append rfl (by rw [encodeBE_length]; omega)
  simp only [List.nil_append] at hfirst
  have hsecond : write (encodeBE 2 (msg.payload.length + 12) ++ block.drop 2) 2
      (encodeBE 2 (msg.payload.length + 10)) =
        .ok (encodeBE 2 (msg.payload.length + 12) ++ encodeBE 2 (msg.payload.length + 10) ++
          owner ++ body) := by
    rw [write_append (by simp) (by simp; omega), encodeBE_length, List.drop_drop, hcut,
      List.append_assoc _ owner]
  have hrest : writeMessage adler32 (encodeBE 2 (msg.payload.length + 12) ++
      encodeBE 2 (msg.payload.length + 10) ++ owner ++ body) 8 8 msg =
        .ok (encodeBE 2 (msg.payload.length + 12) ++ encodeBE 2 (msg.payload.length + 10) ++ owner ++
          msg.payload ++ encodeBE 4 (adler32 msg.payload).toNat ++
          body.drop (msg.payload.length + 4)) :=
    writeMessage_eq adler32 hname (by simp [howner]) (by omega)
  refine ⟨⟨serverLayout (encodeBE 2 (msg.payload.length + 12)) (encodeBE 2 (msg.payload.length + 10))
      owner msg.payload (encodeBE 4 (adler32 msg.payload).toNat) [] ++
      body.drop (msg.payload.length + 4), msg.payload.length + 10, msg.payload.length + 12⟩, owner,
    body.drop (msg.payload.length + 4), ?_, ⟨rfl, howner, encodeBE_length _ _, rfl, rfl⟩,
    by rw [List.length_drop]; omega⟩
  rw [ofMessage, check_of_debug hbody, ok_bind, check_of build (by omega), ok_bind]
  dsimp only
  rw [hpacket, hdata, hsize, hblock, hfirst, ok_bind, hsecond, ok_bind, headerSize]
  simp only [Nat.reduceAdd]
  rw [hrest, ok_bind]
  simp only [serverLayout, List.append_assoc, List.nil_append, pure_eq_ok]

/-- `SetOwner` replaces the owner and nothing else. -/
theorem Holds.setOwner (h : pkt.Holds owner payload sum dests room) (w : Word) :
    ∃ pkt', pkt.setOwner w = .ok pkt' ∧ pkt'.Holds (encodeBE 4 w.toNat) payload sum dests room := by
  have hwrite : write (encodeBE 2 pkt.packetSize ++ encodeBE 2 pkt.dataSize ++
      (owner ++ (payload ++ (sum ++ dests) ++ room))) (2 + 2) (encodeBE 4 w.toNat) =
        .ok (encodeBE 2 pkt.packetSize ++ encodeBE 2 pkt.dataSize ++
          (encodeBE 4 w.toNat ++ (payload ++ (sum ++ dests) ++ room))) :=
    write_middle (by simp) (by simp [h.owner_length])
  refine ⟨⟨serverLayout (encodeBE 2 pkt.packetSize) (encodeBE 2 pkt.dataSize)
    (encodeBE 4 w.toNat) payload sum dests ++ room, pkt.dataSize, pkt.packetSize⟩, ?_,
    ⟨rfl, encodeBE_length _ _, h.sum_length, h.dataSize, h.packetSize⟩⟩
  rw [PacketS.setOwner, h.buffer]
  simp only [serverLayout, List.append_assoc] at hwrite ⊢
  rw [hwrite]
  rfl

/-- A packet with room takes one more destination. -/
theorem Holds.appendDestination (build : Build) (host : Endian)
    (h : pkt.Holds owner payload sum dests room) (hroom : 4 ≤ room.length) (dest : Word) :
    ∃ pkt', pkt.appendDestination build host dest = .ok (pkt', true) ∧
      pkt'.Holds owner payload sum (dests ++ encodeHost host 4 dest.toNat) (room.drop 4) := by
  have hrow := h.row_length
  have hfits : ¬ pkt.capacity < pkt.packetSize + 4 := by
    rw [capacity, h.buffer, List.length_append, hrow]
    omega
  have hdest : write pkt.buffer pkt.packetSize (encodeHost host 4 dest.toNat) =
      .ok (serverLayout (encodeBE 2 pkt.packetSize) (encodeBE 2 pkt.dataSize) owner payload sum
        dests ++ encodeHost host 4 dest.toNat ++ room.drop 4) := by
    rw [h.buffer, write_append hrow.symm (by rwa [encodeHost_length]), encodeHost_length]
  have hsize (tail : List UInt8) : write ([] ++ (encodeBE 2 pkt.packetSize ++ tail)) 0
      (encodeBE 2 (pkt.packetSize + 4)) = .ok ([] ++ (encodeBE 2 (pkt.packetSize + 4) ++ tail)) :=
    write_middle rfl (by simp)
  simp only [List.nil_append] at hsize
  refine ⟨⟨serverLayout (encodeBE 2 (pkt.packetSize + 4)) (encodeBE 2 pkt.dataSize) owner payload sum
    (dests ++ encodeHost host 4 dest.toNat) ++ room.drop 4, pkt.dataSize, pkt.packetSize + 4⟩, ?_,
    ⟨rfl, h.owner_length, h.sum_length, h.dataSize, ?_⟩⟩
  · rw [PacketS.appendDestination, if_neg hfits, hdest]
    simp only [serverLayout, List.append_assoc, ok_bind]
    rw [hsize]
    rfl
  · rw [h.packetSize, List.length_append, encodeHost_length, ← Nat.add_assoc]

/-- A packet without room refuses it, and stays as it is where assertions are compiled out. -/
theorem Holds.appendDestination_refused (host : Endian)
    (h : pkt.Holds owner payload sum dests room) (hroom : room.length < 4) (dest : Word) :
    pkt.appendDestination .release host dest = .ok (pkt, false) := by
  have hfull : pkt.capacity < pkt.packetSize + 4 := by
    rw [capacity, h.buffer, List.length_append, h.row_length]
    omega
  rw [PacketS.appendDestination, if_pos hfull]
  rfl

/-- A sequence of `AppendDestination` calls, with what each of them returned. -/
def appendAll (build : Build) (host : Endian) (pkt : PacketS) :
    List Word → Except Fault (PacketS × List Bool)
  | [] => .ok (pkt, [])
  | dest :: dests => do
    let (pkt, appended) ← pkt.appendDestination build host dest
    let (pkt, flags) ← appendAll build host pkt dests
    return (pkt, appended :: flags)

theorem appendAll_cons {build : Build} {host : Endian} {pkt₁ pkt₂ : PacketS} {d : Word}
    {ds : List Word} {appended : Bool} {flags : List Bool}
    (hd : pkt.appendDestination build host d = .ok (pkt₁, appended))
    (hds : pkt₁.appendAll build host ds = .ok (pkt₂, flags)) :
    pkt.appendAll build host (d :: ds) = .ok (pkt₂, appended :: flags) := by
  rw [appendAll, hd, ok_bind]
  simp only [hds, ok_bind, pure_eq_ok]

/-- A full packet refuses every call. -/
theorem Holds.appendAll_refused (host : Endian) (h : pkt.Holds owner payload sum dests room)
    (hroom : room.length < 4) (ds : List Word) :
    pkt.appendAll .release host ds = .ok (pkt, List.replicate ds.length false) := by
  induction ds with
  | nil => rfl
  | cons d ds ih => exact appendAll_cons (h.appendDestination_refused host hroom d) ih

/-- A packet with room for `n` destinations takes the first `n` and refuses the rest. -/
theorem Holds.appendAll (host : Endian) {n : ℕ} (h : pkt.Holds owner payload sum dests room)
    (hroom : room.length = 4 * n) (ds : List Word) :
    ∃ pkt' room', pkt'.Holds owner payload sum (dests ++ destBytes host (ds.take n)) room' ∧
      pkt.appendAll .release host ds = .ok (pkt', List.replicate (min n ds.length) true ++
        List.replicate (ds.length - n) false) ∧
      pkt.appendAll .release host (ds.take n) =
        .ok (pkt', List.replicate (min n ds.length) true) := by
  induction ds generalizing pkt dests room n with
  | nil => exact ⟨pkt, room, by simpa [destBytes] using h, by simp [PacketS.appendAll]⟩
  | cons d ds ih =>
    cases n with
    | zero =>
      refine ⟨pkt, room, by simpa [destBytes] using h, ?_, by simp [PacketS.appendAll]⟩
      rw [h.appendAll_refused host (by omega)]
      simp
    | succ n =>
      obtain ⟨pkt₁, happend, h₁⟩ := h.appendDestination .release host (by omega) d
      obtain ⟨pkt₂, room₂, h₂, hall, htake⟩ := ih (n := n) h₁ (by rw [List.length_drop]; omega)
      have hmin : min (n + 1) (ds.length + 1) = min n ds.length + 1 := by omega
      have hsub : ds.length + 1 - (n + 1) = ds.length - n := by omega
      refine ⟨pkt₂, room₂, ?_, ?_, ?_⟩
      · rw [List.take_succ_cons, destBytes, List.flatMap_cons, ← List.append_assoc]
        exact h₂
      · rw [List.length_cons, hmin, hsub, List.replicate_succ]
        exact appendAll_cons happend hall
      · rw [List.take_succ_cons, List.length_cons, hmin, List.replicate_succ]
        exact appendAll_cons happend htake

end PacketS

end TerraX
