import TerraX.Client.ClientFrames

/-!
# Bytes that change on the way

The checksum covers name length, name and body, and stands behind them. This file says what
`is_valid` makes of a packet that reaches its receiver whole and not as it was built: one byte
of the part that the checksum covers, or of the checksum itself, is always noticed; the owner
and the destinations are not covered, and any bytes there are accepted. `adler32` is zlib's.

## Main definitions

- `Intact` — the checksum behind a range of a frame is that of the range
- `PacketC.BuiltFrom` — what a client or a gate can make of a message

## Main results

- `single_byte_detected` — both classes, on every end of a connection
-/

namespace TerraX

open Bytes Memory

/-- The four bytes behind the `len` bytes at `header` are the checksum of these bytes. -/
def Intact (frame : List UInt8) (header len : ℕ) : Prop :=
  UInt32.ofNat (decodeBE (slice frame (header + len) 4)) = Adler32.adler32 (slice frame header len)

instance (frame : List UInt8) (header len : ℕ) : Decidable (Intact frame header len) := by
  unfold Intact
  infer_instance

/-- Bytes outside of the range and its checksum play no role. -/
theorem intact_congr {frame frame' : List UInt8} {header len : ℕ}
    (h : ∀ i, header ≤ i → i < header + len + 4 → frame'[i]? = frame[i]?) :
    Intact frame' header len ↔ Intact frame header len := by
  have hdata : slice frame' header len = slice frame header len := by
    apply slice_congr
    intro i hlow hhigh
    exact h i hlow (by omega)
  have hsum : slice frame' (header + len) 4 = slice frame (header + len) 4 := by
    apply slice_congr
    intro i hlow hhigh
    exact h i (by omega) hhigh
  rw [Intact, Intact, hdata, hsum]

/-- A byte of the range that changes is noticed: the stored checksum stays, and the one that is
    computed changes. -/
theorem Intact.not_set_data {frame : List UInt8} {header len i : ℕ} {b : UInt8}
    (h : Intact frame header len) (hroom : header + len ≤ frame.length) (hlow : header ≤ i)
    (hhigh : i < header + len) (hne : frame[i]? ≠ some b) : ¬ Intact (frame.set i b) header len := by
  intro hset
  have hpos : i - header < (slice frame header len).length := by
    rw [slice_length hroom]
    omega
  have hchanged : b ≠ (slice frame header len)[i - header] := by
    intro heq
    apply hne
    rw [heq, ← List.getElem?_eq_getElem hpos, getElem?_slice, if_pos (by omega)]
    congr 1
    omega
  apply Adler32.adler32_set_ne hpos hchanged
  unfold Intact at h hset
  rw [slice_set_outside frame b (.inl hhigh), slice_set_inside frame len b hlow] at hset
  rw [← hset, h]

/-- A byte of the checksum that changes is noticed: the stored checksum changes, and the one that
    is computed stays. -/
theorem Intact.not_set_sum {frame : List UInt8} {header len i : ℕ} {b : UInt8}
    (h : Intact frame header len) (hroom : header + len + 4 ≤ frame.length) (hlow : header + len ≤ i)
    (hhigh : i < header + len + 4) (hne : frame[i]? ≠ some b) :
    ¬ Intact (frame.set i b) header len := by
  intro hset
  have hlen : (slice frame (header + len) 4).length = 4 := slice_length hroom
  unfold Intact at h hset
  rw [slice_set_outside frame b (.inr hlow), slice_set_inside frame 4 b hlow, ← h] at hset
  -- the four bytes determine the word, so they would be the bytes that stood there before
  have hsame : (slice frame (header + len) 4).set (i - (header + len)) b =
      slice frame (header + len) 4 := by
    have hset4 : ((slice frame (header + len) 4).set (i - (header + len)) b).length = 4 := by
      rw [List.length_set, hlen]
    rw [← encodeBE_ofNat_decodeBE hset4, hset, encodeBE_ofNat_decodeBE hlen]
  have hbyte := congrArg (·[i - (header + len)]?) hsame
  simp only [List.getElem?_set, getElem?_slice, hlen] at hbyte
  rw [if_pos trivial, if_pos (by omega), if_pos (by omega)] at hbyte
  apply hne
  rw [hbyte]
  congr 1
  omega

/-- Every change of a single byte of the range or of its checksum is noticed. -/
theorem Intact.not_set {frame : List UInt8} {header len i : ℕ} {b : UInt8}
    (h : Intact frame header len) (hroom : header + len + 4 ≤ frame.length) (hlow : header ≤ i)
    (hhigh : i < header + len + 4) (hne : frame[i]? ≠ some b) :
    ¬ Intact (frame.set i b) header len := by
  by_cases hdata : i < header + len
  · exact h.not_set_data (by omega) hlow hdata hne
  · exact h.not_set_sum hroom (by omega) hhigh hne

/-! ### Server packets -/

/-- A server frame of `len` covered bytes, with any owner and destinations: the receiver accepts it
    exactly if it is intact. -/
theorem PacketS.isValid_ofFrame {frame : List UInt8} {len : ℕ}
    (hfield : dataSizeField frame = len + 10) (hroom : headerSize + len + 4 ≤ frame.length) :
    (ofFrame frame).isValid Adler32.adler32 =
      .ok ({ ofFrame frame with dataSize := len + 10 }, decide (Intact frame headerSize len)) := by
  have hheader : headerSize = 8 := rfl
  have hptr : len + 10 - 2 = headerSize + len := by omega
  have hfield' : dataSizeField (ofFrame frame).buffer = len + 10 := hfield
  rw [isValid_eq_ok Adler32.adler32 (by simp only [ofFrame] at hfield' ⊢; omega), hfield', hptr,
    Nat.add_sub_cancel]
  rfl

section

variable {build : Build} {heap : ℕ → UInt8} {host : Endian} {msg : Message} {n : ℕ}
  (hname : msg.name.length ≤ 254) (hbody : msg.body.length ≤ maxMsgSize)
include hname hbody

/-- What is sent of such a packet announces its payload, holds it, and is intact. -/
theorem PacketS.BuiltFrom.intact {pkt : PacketS}
    (h : pkt.BuiltFrom build Adler32.adler32 heap host msg n) :
    dataSizeField pkt.sentBytes = msg.payload.length + 10 ∧
      headerSize + msg.payload.length + 4 ≤ pkt.sentBytes.length ∧
      Intact pkt.sentBytes headerSize msg.payload.length := by
  obtain ⟨owner, dests, room, hholds⟩ := h.holds hname hbody
  have hlen : pkt.sentBytes.length = pkt.packetSize := by rw [hholds.sentBytes, hholds.row_length]
  have hsize := hholds.packetSize
  have hlt := msg.payload_length
  unfold maxMsgSize maxPacketSize maxPacketTagSize maxAppendDataSize maxAoiObjCount at hbody
  refine ⟨?_, by simp only [headerSize]; omega, ?_⟩
  · rw [dataSizeField, hholds.sentBytes, slice_data (encodeBE_length _ _) (encodeBE_length _ _),
      hholds.dataSize, decodeBE_encodeBE_of_lt]
    omega
  · have hpay : slice pkt.sentBytes headerSize msg.payload.length = msg.payload := by
      rw [hholds.sentBytes]
      exact (slice_payload (encodeBE_length _ _) (encodeBE_length _ _) (encodeBE_length _ _)
        (Nat.zero_add _).le).trans (slice_zero_length _)
    have hsum : slice pkt.sentBytes (headerSize + msg.payload.length) 4 =
        encodeBE 4 (Adler32.adler32 msg.payload).toNat := by
      rw [hholds.sentBytes]
      exact slice_sum (encodeBE_length _ _) (encodeBE_length _ _) (encodeBE_length _ _)
        (encodeBE_length _ _)
    rw [Intact, hpay, hsum, ofNat_decodeBE]

end

/-! ### Client packets -/

/-- A packet that was built with `PacketC(msg)`, and then changed by `SetOwner`. -/
inductive PacketC.BuiltFrom (build : Build) (adler32 : List UInt8 → UInt32) (heap : ℕ → UInt8)
    (msg : Message) : PacketC → Prop
  | ofMessage {pkt : PacketC} (h : PacketC.ofMessage build adler32 heap msg = .ok pkt) :
      BuiltFrom build adler32 heap msg pkt
  | setOwner {pkt pkt' : PacketC} (owner : Word) (hpkt : BuiltFrom build adler32 heap msg pkt)
      (h : pkt.setOwner owner = .ok pkt') : BuiltFrom build adler32 heap msg pkt'

/-- A client frame of `len` covered bytes: the client accepts it exactly if it is intact. -/
theorem PacketC.isValid_ofFrame {frame : List UInt8} {len : ℕ}
    (hlen : frame.length = headerSize + len + 4) (hmax : frame.length ≤ maxPacketSize) :
    (ofFrame frame).isValid Adler32.adler32 = .ok (decide (Intact frame headerSize len)) := by
  have hheader : headerSize = 6 := rfl
  have hptr : (ofFrame frame).dataSize + (ofFrame frame).offset - 4 = headerSize + len := by
    simp only [ofFrame]
    omega
  have hsub : (ofFrame frame).dataSize - 10 = len := by
    simp only [ofFrame]
    omega
  rw [isValid_eq_ok Adler32.adler32 (by simp [ofFrame]) (by simp only [ofFrame]; omega)
    (by simp only [ofFrame]; omega), hptr, hsub]
  rfl

/-- So does the gate, which keeps the frame two bytes further on. -/
theorem PacketC.isValid_ofClientFrame (heap : ℕ → UInt8) {frame : List UInt8} {len : ℕ}
    (hlen : frame.length = headerSize + len + 4) (hmax : frame.length ≤ maxPacketSize) :
    (ofClientFrame heap frame).isValid Adler32.adler32 =
      .ok (decide (Intact frame headerSize len)) := by
  have hheader : headerSize = 6 := rfl
  have hbuf := ofClientFrame_buffer_length heap frame
  have hptr : (ofClientFrame heap frame).dataSize + (ofClientFrame heap frame).offset - 4 =
      headerSize + len + 2 := by
    simp only [ofClientFrame]
    omega
  have hsub : (ofClientFrame heap frame).dataSize - 10 = len := by
    simp only [ofClientFrame]
    omega
  have hoff : headerSize + (ofClientFrame heap frame).offset = headerSize + 2 := rfl
  rw [isValid_eq_ok Adler32.adler32 (by rw [hbuf]; simp [ofClientFrame]) (by omega)
    (by simp only [ofClientFrame]; omega),
    hptr, hsub, hoff, slice_ofClientFrame heap _ (by omega), slice_ofClientFrame heap _ (by omega)]
  rfl

section

variable {build : Build} {heap : ℕ → UInt8} {msg : Message} (hname : msg.name.length ≤ 254)
  (hbody : msg.body.length ≤ maxMsgSize)
include hname hbody

/-- Such a packet is the row of a client packet. -/
theorem PacketC.BuiltFrom.row {adler32 : List UInt8 → UInt32} {pkt : PacketC}
    (h : pkt.BuiltFrom build adler32 heap msg) :
    ∃ owner, pkt = ⟨clientRow adler32 owner msg.payload, 0, msg.payload.length + 10⟩ := by
  induction h with
  | ofMessage h =>
    obtain ⟨owner, hbuilt⟩ := PacketC.ofMessage_eq hname hbody build adler32 heap
    cases h.symm.trans hbuilt
    exact ⟨owner, rfl⟩
  | setOwner owner hpkt h ih =>
    obtain ⟨owner₀, rfl⟩ := ih
    cases h.symm.trans (PacketC.setOwner_clientRow adler32 owner₀ owner _ _)
    exact ⟨owner, rfl⟩

/-- It fills its buffer, and is intact. -/
theorem PacketC.BuiltFrom.intact {pkt : PacketC}
    (h : pkt.BuiltFrom build Adler32.adler32 heap msg) :
    pkt.buffer.length = headerSize + msg.payload.length + 4 ∧ pkt.buffer.length ≤ maxPacketSize ∧
      Intact pkt.buffer headerSize msg.payload.length := by
  obtain ⟨owner, rfl⟩ := h.row hname hbody
  have hlen := clientRow_length Adler32.adler32 owner msg.payload
  have hpayload := msg.payload_length
  unfold maxMsgSize maxPacketSize maxPacketTagSize maxAppendDataSize maxAoiObjCount at hbody
  have hpay : slice (clientRow Adler32.adler32 owner msg.payload) headerSize msg.payload.length =
      msg.payload :=
    (slice_payload_clientRow Adler32.adler32 owner msg.payload (Nat.zero_add _).le).trans
      (slice_zero_length _)
  have hsum : slice (clientRow Adler32.adler32 owner msg.payload) (headerSize + msg.payload.length) 4 =
      encodeBE 4 (Adler32.adler32 msg.payload).toNat :=
    slice_sum_clientRow Adler32.adler32 owner msg.payload
  refine ⟨by simp only [headerSize, hlen]; omega, by simp only [hlen, maxPacketSize]; omega, ?_⟩
  rw [Intact, hpay, hsum, ofNat_decodeBE]

end

/-! ### Frames with other bytes -/

/-- A byte of payload or sum that changes is detected. -/
theorem PacketS.isValid_set {row : List UInt8} {n : ℕ} (hfield : dataSizeField row = n + 10)
    (hroom : PacketS.headerSize + n + 4 ≤ row.length) (hintact : Intact row PacketS.headerSize n)
    {i : ℕ} {b : UInt8} (hlow : PacketS.headerSize ≤ i) (hhigh : i < PacketS.headerSize + n + 4)
    (hne : row[i]? ≠ some b) :
    ∃ rcv, (PacketS.ofFrame (row.set i b)).isValid Adler32.adler32 = .ok (rcv, false) := by
  have hheader : PacketS.headerSize = 8 := rfl
  -- the field with the data size lies in front of the byte that changes
  have hfield' : dataSizeField (row.set i b) = n + 10 := by
    rw [dataSizeField, slice_set_outside row b (.inr (by omega))]
    exact hfield
  have hroom' : PacketS.headerSize + n + 4 ≤ (row.set i b).length := by
    rw [List.length_set]
    exact hroom
  rw [PacketS.isValid_ofFrame hfield' hroom',
    decide_eq_false (hintact.not_set hroom hlow hhigh hne)]
  exact ⟨_, rfl⟩

/-- A frame with the same data size, payload and sum is accepted, too. -/
theorem PacketS.isValid_of_agree {row frame : List UInt8} {n : ℕ}
    (hfield : dataSizeField row = n + 10) (hroom : PacketS.headerSize + n + 4 ≤ row.length)
    (hintact : Intact row PacketS.headerSize n) (hlen : frame.length = row.length)
    (hagree : ∀ i, (i < 2 + 2 ∨ PacketS.headerSize ≤ i) → i < PacketS.headerSize + n + 4 →
      frame[i]? = row[i]?) :
    ∃ rcv, (PacketS.ofFrame frame).isValid Adler32.adler32 = .ok (rcv, true) := by
  have hheader : PacketS.headerSize = 8 := rfl
  have hfield' : dataSizeField frame = n + 10 := by
    have hslice : slice frame 2 2 = slice row 2 2 := by
      apply slice_congr
      intro i _ hi
      exact hagree i (.inl (by omega)) (by omega)
    rw [dataSizeField, hslice]
    exact hfield
  have hintact' : Intact frame PacketS.headerSize n := by
    apply (intact_congr _).mpr hintact
    intro i hlow hhigh
    exact hagree i (.inr hlow) hhigh
  rw [PacketS.isValid_ofFrame hfield' (by omega), decide_eq_true hintact']
  exact ⟨_, rfl⟩

/-- Client and servers judge a frame of the client alike. -/
theorem PacketC.isValid_both {frame : List UInt8} {n : ℕ} {fine : Bool}
    (hlen : frame.length = PacketC.headerSize + n + 4) (hmax : frame.length ≤ maxPacketSize)
    (hfine : decide (Intact frame PacketC.headerSize n) = fine) :
    (PacketC.ofFrame frame).isValid Adler32.adler32 = .ok fine ∧
      ∀ heap, (PacketC.ofClientFrame heap frame).isValid Adler32.adler32 = .ok fine := by
  rw [PacketC.isValid_ofFrame hlen hmax, hfine]
  refine ⟨rfl, fun heap => ?_⟩
  rw [PacketC.isValid_ofClientFrame heap hlen hmax, hfine]

/-- Every message that keeps the assertions of the constructors, in a packet of either class that
    its receiver gets whole. Whatever single byte from the name length to the end of the checksum
    is replaced by another one, `is_valid` returns false. Whatever stands in place of the owner,
    and of the destinations of a server packet, it returns true. Packets of clients are checked
    by the gate, packets of gates by the client. -/
theorem single_byte_detected (build : Build) (heap : ℕ → UInt8) (host : Endian) (msg : Message)
    (hname : msg.name.length + 1 ≤ 0xFF) (hbody : msg.body.length ≤ maxMsgSize) :
    (∀ n pkt, PacketS.BuiltFrom build Adler32.adler32 heap host msg n pkt →
      (∀ i b, PacketS.headerSize ≤ i → i < PacketS.headerSize + msg.totalDataSize + 4 →
        pkt.sentBytes[i]? ≠ some b →
        ∃ rcv, (PacketS.ofFrame (pkt.sentBytes.set i b)).isValid Adler32.adler32 =
          .ok (rcv, false)) ∧
      ∀ frame : List UInt8, frame.length = pkt.sentBytes.length →
        (∀ i, (i < 2 + 2 ∨ PacketS.headerSize ≤ i) →
          i < PacketS.headerSize + msg.totalDataSize + 4 → frame[i]? = pkt.sentBytes[i]?) →
        ∃ rcv, (PacketS.ofFrame frame).isValid Adler32.adler32 = .ok (rcv, true)) ∧
    ∀ pkt, PacketC.BuiltFrom build Adler32.adler32 heap msg pkt →
      (∀ i b, PacketC.headerSize ≤ i → i < PacketC.headerSize + msg.totalDataSize + 4 →
        pkt.buffer[i]? ≠ some b →
        (PacketC.ofFrame (pkt.buffer.set i b)).isValid Adler32.adler32 = .ok false ∧
        ∀ heap', (PacketC.ofClientFrame heap' (pkt.buffer.set i b)).isValid Adler32.adler32 =
          .ok false) ∧
      ∀ frame : List UInt8, frame.length = pkt.buffer.length →
        (∀ i, (i < 2 ∨ PacketC.headerSize ≤ i) → frame[i]? = pkt.buffer[i]?) →
        (PacketC.ofFrame frame).isValid Adler32.adler32 = .ok true ∧
        ∀ heap', (PacketC.ofClientFrame heap' frame).isValid Adler32.adler32 = .ok true := by
  have hname : msg.name.length ≤ 254 := by omega
  rw [Message.totalDataSize_eq hname]
  constructor
  · intro n pkt h
    obtain ⟨hfield, hroom, hintact⟩ := h.intact hname hbody
    constructor
    · intro i b hlow hhigh hne
      exact PacketS.isValid_set hfield hroom hintact hlow hhigh hne
    · intro frame hlen hagree
      exact PacketS.isValid_of_agree hfield hroom hintact hlen hagree
  · intro pkt h
    obtain ⟨hlen, hmax, hintact⟩ := h.intact hname hbody
    constructor
    · intro i b hlow hhigh hne
      have hlen' : (pkt.buffer.set i b).length = pkt.buffer.length := List.length_set ..
      have hnot := hintact.not_set hlen.ge hlow hhigh hne
      exact PacketC.isValid_both (hlen'.trans hlen) (hlen'.trans_le hmax) (decide_eq_false hnot)
    · intro frame hframe hagree
      have hintact' : Intact frame PacketC.headerSize msg.payload.length := by
        apply (intact_congr _).mpr hintact
        intro i hlow _
        exact hagree i (.inr hlow)
      exact PacketC.isValid_both (hframe.trans hlen) (hframe.trans_le hmax) (decide_eq_true hintact')

/-- A body byte and a checksum byte of a server packet with a destination, a name byte of a client
    packet; and an owner of its own in both. -/
theorem single_byte_detected_oneDest :
    (∃ pkt, PacketS.BuiltFrom .release Adler32.adler32 (fun _ => 0) .little ⟨[80], [8, 1]⟩ 1 pkt ∧
      pkt.sentBytes = [0, 21, 0, 15, 0, 0, 0, 0, 2, 80, 0, 8, 1, 1, 96, 0, 92, 7, 0, 0, 0] ∧
      (∃ rcv, (PacketS.ofFrame (pkt.sentBytes.set 12 2)).isValid Adler32.adler32 =
        .ok (rcv, false)) ∧
      (∃ rcv, (PacketS.ofFrame (pkt.sentBytes.set 16 93)).isValid Adler32.adler32 =
        .ok (rcv, false)) ∧
      ∃ rcv, (PacketS.ofFrame [0, 21, 0, 15, 9, 9, 9, 9, 2, 80, 0, 8, 1, 1, 96, 0, 92,
        6, 6, 6, 6]).isValid Adler32.adler32 = .ok (rcv, true)) ∧
    ∃ pkt, PacketC.BuiltFrom .release Adler32.adler32 (fun _ => 0) ⟨[80], [8, 1]⟩ pkt ∧
      (PacketC.ofFrame (pkt.buffer.set 7 81)).isValid Adler32.adler32 = .ok false ∧
      (PacketC.ofClientFrame (fun _ => 0) [0, 15, 9, 9, 9, 9, 2, 80, 0, 8, 1, 1, 96, 0, 92]).isValid
        Adler32.adler32 = .ok true := by
  obtain ⟨hserver, hclient⟩ := single_byte_detected .release (fun _ => 0) .little ⟨[80], [8, 1]⟩
    (by decide) (by decide)
  obtain ⟨built, one, hbuilt, hone, hsent⟩ : ∃ built one : PacketS,
      PacketS.ofMessage .release Adler32.adler32 (fun _ => 0) ⟨[80], [8, 1]⟩ 1 = .ok built ∧
      built.appendDestination .release .little 7 = .ok (one, true) ∧
      one.sentBytes = [0, 21, 0, 15, 0, 0, 0, 0, 2, 80, 0, 8, 1, 1, 96, 0, 92, 7, 0, 0, 0] :=
    ⟨_, _, rfl, rfl, rfl⟩
  have hpkt : PacketS.BuiltFrom .release Adler32.adler32 (fun _ => 0) .little ⟨[80], [8, 1]⟩ 1 one :=
    (PacketS.BuiltFrom.ofMessage hbuilt).appendDestination 7 true hone
  obtain ⟨hbytes, hfree⟩ := hserver 1 one hpkt
  obtain ⟨pkt, hbuiltC, hbuffer⟩ : ∃ pkt : PacketC,
      PacketC.ofMessage .release Adler32.adler32 (fun _ => 0) ⟨[80], [8, 1]⟩ = .ok pkt ∧
      pkt.buffer = [0, 15, 0, 0, 0, 0, 2, 80, 0, 8, 1, 1, 96, 0, 92] := ⟨_, rfl, rfl⟩
  obtain ⟨hbytesC, hfreeC⟩ := hclient pkt (.ofMessage hbuiltC)
  refine ⟨⟨one, hpkt, hsent, hbytes 12 2 (by decide) (by decide) (by rw [hsent]; decide),
    hbytes 16 93 (by decide) (by decide) (by rw [hsent]; decide),
    hfree _ (by rw [hsent]; rfl) ?_⟩, pkt, .ofMessage hbuiltC,
    (hbytesC 7 81 (by decide) (by decide) (by rw [hbuffer]; decide)).1,
    (hfreeC _ (by rw [hbuffer]; rfl) ?_).2 (fun _ => 0)⟩
  · rw [hsent]
    intro i hi hlt
    have hagree : ∀ i < 17, (i < 4 ∨ 8 ≤ i) →
        ([0, 21, 0, 15, 9, 9, 9, 9, 2, 80, 0, 8, 1, 1, 96, 0, 92, 6, 6, 6, 6] : List UInt8)[i]? =
          [0, 21, 0, 15, 0, 0, 0, 0, 2, 80, 0, 8, 1, 1, 96, 0, 92, 7, 0, 0, 0][i]? := by decide
    exact hagree i hlt hi
  · rw [hbuffer]
    intro i hi
    have hagree : ∀ i < 15, (i < 2 ∨ 6 ≤ i) →
        ([0, 15, 9, 9, 9, 9, 2, 80, 0, 8, 1, 1, 96, 0, 92] : List UInt8)[i]? =
          [0, 15, 0, 0, 0, 0, 2, 80, 0, 8, 1, 1, 96, 0, 92][i]? := by decide
    by_cases hlt : i < 15
    · exact hagree i hlt hi
    · rw [List.getElem?_eq_none (Nat.le_of_not_lt hlt), List.getElem?_eq_none (Nat.le_of_not_lt hlt)]

end TerraX
