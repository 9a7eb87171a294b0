import TerraX.Lib.Adler32
import TerraX.Net.Packet

/-!
# Which packets are read inside their buffers

`is_valid` and the accessors take lengths from the bytes of a frame. This file
says for which frames they stay inside the buffer.

## Main definitions

- `IsFrame` — the frames a receiver cuts off the stream
- `PacketS.InBounds`, `PacketC.InBounds` — `is_valid` stays inside the buffer
- `PacketS.AccessorsSafe`, `PacketC.AccessorsSafe` — so do the accessors behind it

## Main results

- `isValid_inBounds_iff` — the frames on which `is_valid` stays inside
- `accessors_safe_iff` — the accepted frames on which the accessors do
-/

namespace TerraX

open Bytes Memory

/-- The frames a receiver cuts off its stream: the two bytes in front give the
    length, and the length is a legal one. -/
def IsFrame (frame : List UInt8) : Prop :=
  2 ≤ frame.length ∧ frame.length ≤ maxPacketSize ∧ decodeBE (slice frame 0 2) = frame.length

instance (frame : List UInt8) : Decidable (IsFrame frame) := by
  unfold IsFrame
  infer_instance

/-! ### The checksum -/

theorem decodeBE_slice_lt {w : ℕ} (block : List UInt8) (off : ℕ) :
    decodeBE (slice block off w) < 256 ^ w := by
  have hlen : (slice block off w).length ≤ w := by
    rw [slice, List.length_take]
    exact Nat.min_le_left _ _
  exact (decodeBE_lt _).trans_le (Nat.pow_le_pow_right (by decide) hlen)

theorem checkSumAt_ok_iff (adler32 : List UInt8 → UInt32) {buffer : List UInt8} {header : ℕ}
    {sumSize ptr : ℤ} :
    (∃ b, checkSumAt adler32 buffer header sumSize ptr = .ok b) ↔
      header + uInt (sizeT sumSize) ≤ buffer.length ∧ 0 ≤ ptr ∧ ptr + 4 ≤ buffer.length := by
  refine returns_bind₂_iff.trans ?_
  rw [read_ok_iff, readPtr_ok_iff]
  rfl

/-- Where the summed range and the checksum lie inside, the check compares the two. -/
theorem checkSumAt_eq (adler32 : List UInt8 → UInt32) {buffer : List UInt8} {header : ℕ}
    (sumSize ptr : ℕ) {sumSize' ptr' : ℤ} (hs : sumSize' = sumSize) (hp : ptr' = ptr) (hlt : sumSize < 2 ^ 32)
    (hsum : header + sumSize ≤ buffer.length) (hptr : ptr + 4 ≤ buffer.length) :
    checkSumAt adler32 buffer header sumSize' ptr' =
      .ok (UInt32.ofNat (decodeBE (slice buffer ptr 4)) == adler32 (slice buffer header sumSize)) := by
  have hcut : uInt (sizeT sumSize') = sumSize := by
    have h := uInt_sizeT_of_nonneg (z := sumSize') (by omega) (by omega)
    omega
  rw [checkSumAt, hcut, read_ok hsum, ok_bind, readPtr_ok hp hptr, ok_bind, pure_eq_ok]

/-- `is_valid` stays inside the buffer: the data size it reads exists, the length it
    hands to `adler32` did not wrap, and both ranges it reads lie in the buffer. -/
structure PacketS.InBounds (adler32 : List UInt8 → UInt32) (pkt : PacketS) : Prop where
  returns : ∃ r, pkt.isValid adler32 = .ok r
  noUnderflow : ∀ field, read pkt.buffer 2 2 = .ok field →
    (uInt (sizeT (decodeBE field + 2 - PacketS.headerSize - 4)) : ℤ) =
      decodeBE field + 2 - PacketS.headerSize - 4

@[inherit_doc PacketS.InBounds]
structure PacketC.InBounds (adler32 : List UInt8 → UInt32) (pkt : PacketC) : Prop where
  returns : ∃ b, pkt.isValid adler32 = .ok b
  noUnderflow : (uInt (sizeT ((pkt.dataSize : ℤ) - PacketC.headerSize - 4)) : ℤ) =
    (pkt.dataSize : ℤ) - PacketC.headerSize - 4

/-- The data size a server frame announces. -/
def dataSizeField (frame : List UInt8) : ℕ := decodeBE (slice frame 2 2)

theorem PacketS.isValid_eq (adler32 : List UInt8 → UInt32) {pkt : PacketS}
    (h : 4 ≤ pkt.buffer.length) :
    pkt.isValid adler32 =
      checkSumAt adler32 pkt.buffer headerSize (dataSizeField pkt.buffer + 2 - headerSize - 4)
        (dataSizeField pkt.buffer + 2 - 4) >>=
      fun valid => .ok ({ pkt with dataSize := dataSizeField pkt.buffer }, valid) := by
  rw [isValid, read_ok h]
  rfl

/-- `is_valid` on a server packet returns exactly if its reads lie in the buffer. -/
theorem PacketS.isValid_ok_iff (adler32 : List UInt8 → UInt32) {pkt : PacketS} :
    (∃ r, pkt.isValid adler32 = .ok r) ↔
      4 ≤ pkt.buffer.length ∧
      headerSize + uInt (sizeT (dataSizeField pkt.buffer + 2 - headerSize - 4)) ≤
        pkt.buffer.length ∧
      2 ≤ dataSizeField pkt.buffer ∧ dataSizeField pkt.buffer + 2 ≤ pkt.buffer.length := by
  constructor
  · rintro ⟨r, hr⟩
    obtain ⟨field, hfield, -⟩ := bind_eq_ok.mp hr
    have hlen := read_ok_iff.mp ⟨field, hfield⟩
    rw [isValid_eq adler32 hlen] at hr
    obtain ⟨hsum, hptr⟩ := (checkSumAt_ok_iff adler32).mp (returns_bind_iff.mp ⟨r, hr⟩)
    exact ⟨hlen, hsum, by omega, by omega⟩
  · rintro ⟨hlen, hsum, hptr⟩
    rw [isValid_eq adler32 hlen, returns_bind_iff, checkSumAt_ok_iff]
    exact ⟨hsum, by omega, by omega⟩

/-- A length below the header and the checksum wraps past every buffer. -/
theorem length_lt_of_sum_le {buffer : List UInt8} {header : ℕ} {z : ℤ}
    (hlen : buffer.length ≤ maxPacketSize + 6) (hz : -100 ≤ z)
    (h : header + uInt (sizeT z) ≤ buffer.length) : 0 ≤ z := by
  by_contra hneg
  have hwrap := uInt_sizeT_of_neg (z := z) (by omega) (by omega)
  unfold maxPacketSize at hlen
  omega

/-- The server frames on which `is_valid` returns: the data they announce holds a header
    and a checksum and ends inside the frame. -/
theorem PacketS.returns_iff (adler32 : List UInt8 → UInt32) {pkt : PacketS}
    (hlen : pkt.buffer.length ≤ maxPacketSize) :
    (∃ r, pkt.isValid adler32 = .ok r) ↔ 4 ≤ pkt.buffer.length ∧ 10 ≤ dataSizeField pkt.buffer ∧
      dataSizeField pkt.buffer + 2 ≤ pkt.buffer.length := by
  have hlt : dataSizeField pkt.buffer < 256 ^ 2 := decodeBE_slice_lt _ _
  rw [isValid_ok_iff]
  constructor
  · rintro ⟨hfield, hsum, hptr, hend⟩
    have hnn := length_lt_of_sum_le (by omega) (by simp only [headerSize]; omega) hsum
    simp only [headerSize] at hnn
    exact ⟨hfield, by omega, hend⟩
  · rintro ⟨hfield, hd, hend⟩
    have hcut := uInt_sizeT_of_nonneg
      (z := dataSizeField pkt.buffer + 2 - headerSize - 4)
      (by simp only [headerSize]; omega) (by simp only [headerSize]; omega)
    refine ⟨hfield, ?_, by omega, hend⟩
    simp only [headerSize] at hcut ⊢
    omega

/-- The server frames on which `is_valid` stays inside the buffer. -/
theorem PacketS.inBounds_iff (adler32 : List UInt8 → UInt32) {pkt : PacketS}
    (hlen : pkt.buffer.length ≤ maxPacketSize) :
    pkt.InBounds adler32 ↔ 4 ≤ pkt.buffer.length ∧ 10 ≤ dataSizeField pkt.buffer ∧
      dataSizeField pkt.buffer + 2 ≤ pkt.buffer.length := by
  have hlt : dataSizeField pkt.buffer < 256 ^ 2 := decodeBE_slice_lt _ _
  constructor
  · intro h
    exact (returns_iff adler32 hlen).mp h.returns
  · intro h
    refine ⟨(returns_iff adler32 hlen).mpr h, ?_⟩
    intro field hread
    rw [read_ok h.1] at hread
    cases hread
    exact uInt_sizeT_of_nonneg (z := dataSizeField pkt.buffer + 2 - headerSize - 4)
      (by simp only [headerSize]; omega) (by simp only [headerSize]; omega)

/-- Where it stays inside the buffer, `is_valid` compares the checksums. -/
theorem PacketS.isValid_eq_ok (adler32 : List UInt8 → UInt32) {pkt : PacketS}
    (h : 4 ≤ pkt.buffer.length ∧ 10 ≤ dataSizeField pkt.buffer ∧
      dataSizeField pkt.buffer + 2 ≤ pkt.buffer.length) :
    pkt.isValid adler32 = .ok ({ pkt with dataSize := dataSizeField pkt.buffer },
      UInt32.ofNat (decodeBE (slice pkt.buffer (dataSizeField pkt.buffer - 2) 4)) ==
        adler32 (slice pkt.buffer headerSize (dataSizeField pkt.buffer - 10))) := by
  have hlt : dataSizeField pkt.buffer < 256 ^ 2 := decodeBE_slice_lt _ _
  obtain ⟨h4, hd, hend⟩ := h
  rw [isValid_eq adler32 h4, checkSumAt_eq adler32 (dataSizeField pkt.buffer - 10)
    (dataSizeField pkt.buffer - 2) (by simp only [headerSize]; omega) (by omega)
    (by omega) (by simp only [headerSize]; omega) (by omega), ok_bind]

/-- The server packets `is_valid` accepts, and what it changes in them. -/
theorem PacketS.isValid_true_iff (adler32 : List UInt8 → UInt32) {pkt pkt' : PacketS}
    (hlen : pkt.buffer.length ≤ maxPacketSize) :
    pkt.isValid adler32 = .ok (pkt', true) ↔
      (4 ≤ pkt.buffer.length ∧ 10 ≤ dataSizeField pkt.buffer ∧
        dataSizeField pkt.buffer + 2 ≤ pkt.buffer.length) ∧
      UInt32.ofNat (decodeBE (slice pkt.buffer (dataSizeField pkt.buffer - 2) 4)) =
        adler32 (slice pkt.buffer headerSize (dataSizeField pkt.buffer - 10)) ∧
      pkt' = { pkt with dataSize := dataSizeField pkt.buffer } := by
  constructor
  · intro h
    have hbound := (returns_iff adler32 hlen).mp ⟨_, h⟩
    rw [isValid_eq_ok adler32 hbound] at h
    simp only [Except.ok.injEq, Prod.mk.injEq, beq_iff_eq] at h
    exact ⟨hbound, h.2, h.1.symm⟩
  · rintro ⟨hbound, hsum, rfl⟩
    rw [isValid_eq_ok adler32 hbound, hsum, beq_self_eq_true]

/-- The client frames on which `is_valid` returns, in a buffer with `offset` bytes in
    front of the data. -/
theorem PacketC.returns_iff (adler32 : List UInt8 → UInt32) {pkt : PacketC}
    (hoff : pkt.offset ≤ 2) (hfit : pkt.dataSize + pkt.offset ≤ pkt.buffer.length)
    (hlen : pkt.buffer.length ≤ maxPacketSize + 6) :
    (∃ b, pkt.isValid adler32 = .ok b) ↔ 10 ≤ pkt.dataSize := by
  rw [isValid, checkSumAt_ok_iff]
  constructor
  · rintro ⟨hsum, hptr⟩
    have hnn := length_lt_of_sum_le hlen (by simp only [headerSize]; omega) hsum
    simp only [headerSize] at hnn
    omega
  · intro hd
    unfold maxPacketSize at hlen
    have hcut := uInt_sizeT_of_nonneg (z := (pkt.dataSize : ℤ) - headerSize - 4)
      (by simp only [headerSize]; omega) (by simp only [headerSize]; omega)
    simp only [headerSize] at hcut ⊢
    omega

/-- The client frames on which `is_valid` stays inside the buffer. -/
theorem PacketC.inBounds_iff (adler32 : List UInt8 → UInt32) {pkt : PacketC}
    (hoff : pkt.offset ≤ 2) (hfit : pkt.dataSize + pkt.offset ≤ pkt.buffer.length)
    (hlen : pkt.buffer.length ≤ maxPacketSize + 6) :
    pkt.InBounds adler32 ↔ 10 ≤ pkt.dataSize := by
  constructor
  · intro h
    exact (returns_iff adler32 hoff hfit hlen).mp h.returns
  · intro hd
    unfold maxPacketSize at hlen
    refine ⟨(returns_iff adler32 hoff hfit (by unfold maxPacketSize; omega)).mpr hd, ?_⟩
    exact uInt_sizeT_of_nonneg (z := (pkt.dataSize : ℤ) - headerSize - 4)
      (by simp only [headerSize]; omega) (by simp only [headerSize]; omega)

/-- Where it stays inside the buffer, `is_valid` compares the checksums. -/
theorem PacketC.isValid_eq_ok (adler32 : List UInt8 → UInt32) {pkt : PacketC}
    (hfit : pkt.dataSize + pkt.offset ≤ pkt.buffer.length)
    (hlen : pkt.buffer.length ≤ maxPacketSize + 6) (hd : 10 ≤ pkt.dataSize) :
    pkt.isValid adler32 =
      .ok (UInt32.ofNat (decodeBE (slice pkt.buffer (pkt.dataSize + pkt.offset - 4) 4)) ==
        adler32 (slice pkt.buffer (headerSize + pkt.offset) (pkt.dataSize - 10))) := by
  unfold maxPacketSize at hlen
  exact checkSumAt_eq adler32 _ _ (by simp only [headerSize]; omega) (by omega) (by omega)
    (by simp only [headerSize]; omega) (by omega)

/-- The client packets `is_valid` accepts. -/
theorem PacketC.isValid_true_iff (adler32 : List UInt8 → UInt32) {pkt : PacketC}
    (hoff : pkt.offset ≤ 2) (hfit : pkt.dataSize + pkt.offset ≤ pkt.buffer.length)
    (hlen : pkt.buffer.length ≤ maxPacketSize + 6) :
    pkt.isValid adler32 = .ok true ↔ 10 ≤ pkt.dataSize ∧
      UInt32.ofNat (decodeBE (slice pkt.buffer (pkt.dataSize + pkt.offset - 4) 4)) =
        adler32 (slice pkt.buffer (headerSize + pkt.offset) (pkt.dataSize - 10)) := by
  constructor
  · intro h
    have hd := (returns_iff adler32 hoff hfit hlen).mp ⟨_, h⟩
    rw [isValid_eq_ok adler32 hfit hlen hd] at h
    simp only [Except.ok.injEq, beq_iff_eq] at h
    exact ⟨hd, h⟩
  · rintro ⟨hd, hsum⟩
    rw [isValid_eq_ok adler32 hfit hlen hd, hsum, beq_self_eq_true]

@[simp] theorem PacketC.ofClientFrame_buffer_length (heap : ℕ → UInt8) (frame : List UInt8) :
    (ofClientFrame heap frame).buffer.length = frame.length + 6 := by
  simp only [ofClientFrame, List.length_append, encodeBE_length, List.length_drop,
    newBlock_length, exDataSize]
  omega

/-- The exact frames on which `is_valid` stays inside the buffer of the packet that is
    built from them: on a server link the frame must hold its data size field, and the
    data it announces must hold a header and a checksum and end inside the frame; on
    both ends of a client link the frame must hold a header and a checksum. -/
theorem isValid_inBounds_iff (adler32 : List UInt8 → UInt32) (heap : ℕ → UInt8)
    (frame : List UInt8) (h : IsFrame frame) :
    ((PacketS.ofFrame frame).InBounds adler32 ↔
      4 ≤ frame.length ∧ 10 ≤ dataSizeField frame ∧ dataSizeField frame + 2 ≤ frame.length) ∧
    ((PacketC.ofClientFrame heap frame).InBounds adler32 ↔ 10 ≤ frame.length) ∧
    ((PacketC.ofFrame frame).InBounds adler32 ↔ 10 ≤ frame.length) := by
  obtain ⟨-, hmax, -⟩ := h
  refine ⟨PacketS.inBounds_iff adler32 hmax, ?_, ?_⟩
  · exact PacketC.inBounds_iff adler32 (by simp [PacketC.ofClientFrame])
      (by rw [PacketC.ofClientFrame_buffer_length]; simp [PacketC.ofClientFrame])
      (by rw [PacketC.ofClientFrame_buffer_length]; omega)
  · exact PacketC.inBounds_iff adler32 (by simp [PacketC.ofFrame])
      (by simp [PacketC.ofFrame]) (by simp only [PacketC.ofFrame]; omega)

theorem isValid_inBounds_emptyMessage :
    IsFrame [0, 14, 0, 12, 0, 0, 0, 0, 1, 0, 0, 4, 0, 2] ∧
      (PacketS.ofFrame [0, 14, 0, 12, 0, 0, 0, 0, 1, 0, 0, 4, 0, 2]).InBounds Adler32.adler32 ∧
      (PacketC.ofClientFrame (fun _ => 0) [0, 14, 0, 12, 0, 0, 0, 0, 1, 0, 0, 4, 0, 2]).InBounds
        Adler32.adler32 ∧
      (PacketC.ofFrame [0, 14, 0, 12, 0, 0, 0, 0, 1, 0, 0, 4, 0, 2]).InBounds Adler32.adler32 := by
  have h : IsFrame [0, 14, 0, 12, 0, 0, 0, 0, 1, 0, 0, 4, 0, 2] := by decide
  obtain ⟨hs, hg, hc⟩ := isValid_inBounds_iff Adler32.adler32 (fun _ => 0) _ h
  exact ⟨h, hs.mpr (by decide), hg.mpr (by decide), hc.mpr (by decide)⟩

/-- A frame of two bytes is cut off the stream, and `is_valid` then reads the data size
    behind its end. -/
theorem isValid_twoBytes_outOfBounds :
    IsFrame [0, 2] ∧
      (PacketS.ofFrame [0, 2]).isValid Adler32.adler32 = .error (.outOfBounds 2 2) ∧
      ¬ (PacketS.ofFrame [0, 2]).InBounds Adler32.adler32 := by
  refine ⟨by decide, rfl, fun h => ?_⟩
  obtain ⟨r, hr⟩ := h.returns
  cases hr

/-! ### The accessors -/

/-- What the accessors read behind `header`, where `size` bytes follow the header and the
    checksum is at `checkSum`: the name length counts the terminating zero, the name
    ends before the checksum, and the message has a size and ends where the checksum
    begins. -/
structure AccessorsSafeAt (buffer : List UInt8) (header : ℕ) (size checkSum : ℤ) : Prop where
  nameLen : ∃ n, nameLenAt buffer header = .ok n ∧ 1 ≤ n
  name : ∃ name, packetNameAt buffer header = .ok name ∧ header + 1 + name.length ≤ checkSum
  msg : ∃ ptr n, packetMsgAt buffer header = .ok ptr ∧ msgSizeAt buffer header size = .ok n ∧
    0 ≤ n ∧ ptr + n = checkSum

/-- The stored name length. -/
def nameLenField (buffer : List UInt8) (header : ℕ) : ℕ := decodeBE (slice buffer header 1)

theorem nameLenAt_eq {buffer : List UInt8} {header : ℕ} (h : header + 1 ≤ buffer.length) :
    nameLenAt buffer header = .ok (nameLenField buffer header) := by
  rw [nameLenAt, read_ok h]
  rfl

theorem packetNameAt_eq {buffer : List UInt8} {header : ℕ}
    (hpos : 1 ≤ nameLenField buffer header)
    (hfit : header + nameLenField buffer header ≤ buffer.length) :
    packetNameAt buffer header =
      .ok (slice buffer (header + 1) (nameLenField buffer header - 1)) := by
  have hnn : ¬ ((nameLenField buffer header : ℤ) - 1 < 0) := by omega
  have hcast : ((nameLenField buffer header : ℤ) - 1).toNat = nameLenField buffer header - 1 := by
    omega
  rw [packetNameAt, nameLenAt_eq (by omega), ok_bind, newString, if_neg hnn, hcast,
    read_ok (by omega)]

/-- With a zero name length the name would need a length no string has. -/
theorem packetNameAt_zero {buffer : List UInt8} {header : ℕ} (h : header + 1 ≤ buffer.length)
    (hz : nameLenField buffer header = 0) : packetNameAt buffer header = .error .lengthError := by
  rw [packetNameAt, nameLenAt_eq h, hz]
  rfl

/-- A name that ends behind the buffer is read there. -/
theorem packetNameAt_long {buffer : List UInt8} {header : ℕ} (h : header + 1 ≤ buffer.length)
    (hlong : buffer.length < header + nameLenField buffer header) :
    packetNameAt buffer header =
      .error (.outOfBounds (header + 1 : ℕ) (nameLenField buffer header - 1 : ℕ)) := by
  have hnn : ¬ ((nameLenField buffer header : ℤ) - 1 < 0) := by omega
  have hcast : ((nameLenField buffer header : ℤ) - 1).toNat = nameLenField buffer header - 1 := by
    omega
  rw [packetNameAt, nameLenAt_eq h, ok_bind, newString, if_neg hnn, hcast, read_error (by omega)]

theorem packetMsgAt_eq {buffer : List UInt8} {header : ℕ} (h : header + 1 ≤ buffer.length) :
    packetMsgAt buffer header = .ok (header + 1 + nameLenField buffer header) := by
  rw [packetMsgAt, nameLenAt_eq h]
  rfl

theorem msgSizeAt_eq {buffer : List UInt8} {header : ℕ} {size : ℤ}
    (h : header + 1 ≤ buffer.length) (h0 : 0 ≤ size) (hs : size < 2 ^ 31) :
    msgSizeAt buffer header size = .ok (size - 1 - nameLenField buffer header - 4) := by
  have hlt : nameLenField buffer header < 256 ^ 1 := decodeBE_slice_lt _ _
  rw [msgSizeAt, nameLenAt_eq h, ok_bind, int32_sizeT (by omega) (by omega), pure_eq_ok]

/-- The message is not longer than the data. -/
theorem msgSizeAt_le {buffer : List UInt8} {header : ℕ} {size n : ℤ} (h0 : 0 ≤ size)
    (hs : size < 2 ^ 31) (h : msgSizeAt buffer header size = .ok n) : n ≤ size := by
  obtain ⟨nameLen, hnameLen, -⟩ := bind_eq_ok.mp h
  obtain ⟨byte, hbyte, -⟩ := bind_eq_ok.mp hnameLen
  have hroom : header + 1 ≤ buffer.length := read_ok_iff.mp ⟨byte, hbyte⟩
  rw [msgSizeAt_eq hroom h0 hs] at h
  cases h
  omega

/-- The accessors are safe exactly if the name length counts the terminating zero and
    name and checksum fit behind the header. -/
theorem accessorsSafeAt_iff {buffer : List UInt8} {header : ℕ} {size checkSum : ℤ}
    (hsum : checkSum = header + size - 4) (h0 : 4 ≤ size) (hs : size < 2 ^ 31)
    (hfit : header + size ≤ buffer.length) :
    AccessorsSafeAt buffer header size checkSum ↔
      1 ≤ nameLenField buffer header ∧ nameLenField buffer header + 5 ≤ size := by
  have hhead : header + 1 ≤ buffer.length := by omega
  constructor
  · intro h
    obtain ⟨n, hn, hpos⟩ := h.nameLen
    obtain ⟨ptr, m, -, hm, hm0, -⟩ := h.msg
    rw [nameLenAt_eq hhead] at hn
    rw [msgSizeAt_eq hhead (by omega) hs] at hm
    cases hn
    cases hm
    exact ⟨hpos, by omega⟩
  · rintro ⟨hpos, hle⟩
    refine ⟨⟨_, nameLenAt_eq hhead, hpos⟩, ⟨_, packetNameAt_eq hpos (by omega), ?_⟩,
      ⟨_, _, packetMsgAt_eq hhead, msgSizeAt_eq hhead (by omega) hs, by omega, by omega⟩⟩
    rw [slice_length (by omega)]
    omega

/-- The accessors of a server packet are safe, and its destinations lie inside it. -/
structure PacketS.AccessorsSafe (build : Build) (pkt : PacketS) : Prop where
  nameLen : ∃ n, nameLenAt pkt.buffer headerSize = .ok n ∧ 1 ≤ n
  name : ∃ name, pkt.getPacketName = .ok name ∧
    (headerSize + 1 + name.length : ℤ) ≤ pkt.dataSize + 2 - 4
  msg : ∃ ptr n, pkt.getPacketMsg = .ok ptr ∧ pkt.getMsgSize = .ok n ∧ 0 ≤ n ∧
    ptr + n = (pkt.dataSize : ℤ) + 2 - 4
  dests : ∃ n : ℕ, pkt.getAllDestination build = .ok (pkt.dataSize + 2, (n : ℤ)) ∧
    pkt.dataSize + 2 + 4 * n ≤ pkt.packetSize ∧ pkt.packetSize ≤ pkt.capacity

/-- The accessors of a client packet are safe. -/
structure PacketC.AccessorsSafe (pkt : PacketC) : Prop where
  nameLen : ∃ n, nameLenAt pkt.buffer (headerSize + pkt.offset) = .ok n ∧ 1 ≤ n
  name : ∃ name, pkt.getPacketName = .ok name ∧
    (headerSize + pkt.offset + 1 + name.length : ℤ) ≤ pkt.dataSize + pkt.offset - 4
  msg : ∃ ptr n, pkt.getPacketMsg = .ok ptr ∧ pkt.getMsgSize = .ok n ∧ 0 ≤ n ∧
    ptr + n = (pkt.dataSize : ℤ) + pkt.offset - 4

/-- The destination list of a server packet whose data ends inside the frame. -/
theorem PacketS.getAllDestination_eq (build : Build) {pkt : PacketS} (h0 : 0 < pkt.dataSize)
    (hend : pkt.dataSize + 2 ≤ pkt.packetSize) (hlt : pkt.packetSize < 2 ^ 31) :
    pkt.getAllDestination build =
      .ok (pkt.dataSize + 2, ((pkt.packetSize - (pkt.dataSize + 2)) / 4 : ℕ)) := by
  have hcut : sizeT ((pkt.packetSize : ℤ) - pkt.dataSize - 2) =
      pkt.packetSize - (pkt.dataSize + 2) := by
    have h := sizeT_of_nonneg (z := (pkt.packetSize : ℤ) - pkt.dataSize - 2) (by omega) (by omega)
    omega
  have hint : int32 ((pkt.packetSize - (pkt.dataSize + 2)) / 4 : ℕ) =
      ((pkt.packetSize - (pkt.dataSize + 2)) / 4 : ℕ) := by
    unfold int32
    omega
  rw [getAllDestination, check_of build h0, ok_bind, hcut, hint]
  rfl

theorem PacketS.accessorsSafe_iff (build : Build) {pkt : PacketS} (hd : 10 ≤ pkt.dataSize)
    (hend : pkt.dataSize + 2 ≤ pkt.packetSize) (hsize : pkt.packetSize = pkt.buffer.length)
    (hlen : pkt.buffer.length ≤ maxPacketSize) :
    pkt.AccessorsSafe build ↔
      1 ≤ nameLenField pkt.buffer 8 ∧ nameLenField pkt.buffer 8 + 11 ≤ pkt.dataSize := by
  unfold maxPacketSize at hlen
  have hheader : headerSize = 8 := rfl
  have hat : AccessorsSafeAt pkt.buffer headerSize (pkt.dataSize + 2 - headerSize)
      (pkt.dataSize + 2 - 4) ↔ 1 ≤ nameLenField pkt.buffer headerSize ∧
        nameLenField pkt.buffer headerSize + 5 ≤ (pkt.dataSize : ℤ) + 2 - headerSize :=
    accessorsSafeAt_iff (by omega) (by omega) (by omega) (by omega)
  have hdests : ∃ n : ℕ, pkt.getAllDestination build = .ok (pkt.dataSize + 2, (n : ℤ)) ∧
      pkt.dataSize + 2 + 4 * n ≤ pkt.packetSize ∧ pkt.packetSize ≤ pkt.capacity :=
    ⟨_, getAllDestination_eq build (by omega) hend (by omega), by omega, hsize.le⟩
  have hfields : pkt.AccessorsSafe build ↔
      AccessorsSafeAt pkt.buffer headerSize (pkt.dataSize + 2 - headerSize) (pkt.dataSize + 2 - 4) :=
    ⟨fun h => ⟨h.nameLen, h.name, h.msg⟩, fun h => ⟨h.nameLen, h.name, h.msg, hdests⟩⟩
  rw [hfields, hat, hheader]
  omega

theorem PacketC.accessorsSafe_iff {pkt : PacketC} (hd : 10 ≤ pkt.dataSize)
    (hfit : pkt.dataSize + pkt.offset ≤ pkt.buffer.length)
    (hlen : pkt.buffer.length ≤ maxPacketSize + 6) :
    pkt.AccessorsSafe ↔ 1 ≤ nameLenField pkt.buffer (headerSize + pkt.offset) ∧
      nameLenField pkt.buffer (headerSize + pkt.offset) + 11 ≤ pkt.dataSize := by
  unfold maxPacketSize at hlen
  have hheader : headerSize = 6 := rfl
  have hat : AccessorsSafeAt pkt.buffer (headerSize + pkt.offset) (pkt.dataSize - headerSize)
      (pkt.dataSize + pkt.offset - 4) ↔
        1 ≤ nameLenField pkt.buffer (headerSize + pkt.offset) ∧
        nameLenField pkt.buffer (headerSize + pkt.offset) + 5 ≤ (pkt.dataSize : ℤ) - headerSize :=
    accessorsSafeAt_iff (by omega) (by omega) (by omega) (by omega)
  have hfields : pkt.AccessorsSafe ↔ AccessorsSafeAt pkt.buffer (headerSize + pkt.offset)
      (pkt.dataSize - headerSize) (pkt.dataSize + pkt.offset - 4) :=
    ⟨fun h => ⟨h.nameLen, h.name, h.msg⟩, fun h => ⟨h.nameLen, h.name, h.msg⟩⟩
  rw [hfields, hat, hheader]
  omega

/-- A gate-side packet reads the bytes of its frame two bytes further on. -/
theorem PacketC.slice_ofClientFrame (heap : ℕ → UInt8) {frame : List UInt8} (off : ℕ) {len : ℕ}
    (h : off + len ≤ frame.length) :
    slice (ofClientFrame heap frame).buffer (off + 2) len = slice frame off len := by
  rw [ofClientFrame, slice_append_right (by simp), encodeBE_length, Nat.add_sub_cancel,
    slice_append_left h]

/-- The exact accepted frames on which the accessors are safe: the name length counts the
    terminating zero, and name and checksum fit into the data. -/
theorem accessors_safe_iff (adler32 : List UInt8 → UInt32) (build : Build) (heap : ℕ → UInt8)
    (frame : List UInt8) (hlen : frame.length ≤ maxPacketSize) :
    (∀ pkt, (PacketS.ofFrame frame).isValid adler32 = .ok (pkt, true) →
      (pkt.AccessorsSafe build ↔
        1 ≤ nameLenField frame 8 ∧ nameLenField frame 8 + 11 ≤ dataSizeField frame)) ∧
    ((PacketC.ofClientFrame heap frame).isValid adler32 = .ok true →
      ((PacketC.ofClientFrame heap frame).AccessorsSafe ↔
        1 ≤ nameLenField frame 6 ∧ nameLenField frame 6 + 11 ≤ frame.length)) ∧
    ((PacketC.ofFrame frame).isValid adler32 = .ok true →
      ((PacketC.ofFrame frame).AccessorsSafe ↔
        1 ≤ nameLenField frame 6 ∧ nameLenField frame 6 + 11 ≤ frame.length)) := by
  refine ⟨?_, ?_, ?_⟩
  · intro pkt h
    obtain ⟨⟨h4, hd, hend⟩, -, rfl⟩ := (PacketS.isValid_true_iff adler32 hlen).mp h
    exact PacketS.accessorsSafe_iff build hd hend rfl hlen
  · intro h
    have hbuf := PacketC.ofClientFrame_buffer_length heap frame
    have hd := (PacketC.isValid_true_iff adler32 (by simp [PacketC.ofClientFrame])
      (by rw [hbuf]; simp [PacketC.ofClientFrame]) (by omega)).mp h |>.1
    have hname : nameLenField (PacketC.ofClientFrame heap frame).buffer 8 = nameLenField frame 6 :=
      congrArg decodeBE (PacketC.slice_ofClientFrame heap 6 (by
        simp only [PacketC.ofClientFrame] at hd; omega))
    rw [PacketC.accessorsSafe_iff hd (by rw [hbuf]; simp [PacketC.ofClientFrame]) (by omega)]
    simp only [PacketC.headerSize, PacketC.ofClientFrame] at hname ⊢
    rw [hname]
  · intro h
    have hd := (PacketC.isValid_true_iff adler32 (by simp [PacketC.ofFrame])
      (by simp [PacketC.ofFrame]) (by simp only [PacketC.ofFrame]; omega)).mp h |>.1
    exact PacketC.accessorsSafe_iff hd (by simp [PacketC.ofFrame])
      (by simp only [PacketC.ofFrame]; omega)

theorem accessors_safe_emptyMessage :
    (∃ pkt, (PacketS.ofFrame [0, 14, 0, 12, 0, 0, 0, 0, 1, 0, 0, 4, 0, 2]).isValid
      Adler32.adler32 = .ok (pkt, true) ∧ pkt.AccessorsSafe .debug) ∧
    (PacketC.ofClientFrame (fun _ => 0) [0, 12, 0, 0, 0, 0, 1, 0, 0, 4, 0, 2]).AccessorsSafe ∧
    (PacketC.ofFrame [0, 12, 0, 0, 0, 0, 1, 0, 0, 4, 0, 2]).AccessorsSafe := by
  obtain ⟨hs, -, -⟩ := accessors_safe_iff Adler32.adler32 .debug (fun _ => 0)
    [0, 14, 0, 12, 0, 0, 0, 0, 1, 0, 0, 4, 0, 2] (by decide)
  obtain ⟨-, hg, hc⟩ := accessors_safe_iff Adler32.adler32 .debug (fun _ => 0)
    [0, 12, 0, 0, 0, 0, 1, 0, 0, 4, 0, 2] (by decide)
  exact ⟨⟨_, rfl, (hs _ rfl).mpr (by decide)⟩, (hg rfl).mpr (by decide), (hc rfl).mpr (by decide)⟩

/-- A name length of zero passes the checksum in both formats, and the name it asks for
    has a length no string can have. -/
theorem accessors_zeroNameLen_unsafe :
    (∃ pkt, (PacketS.ofFrame [0, 13, 0, 11, 0, 0, 0, 0, 0, 0, 1, 0, 1]).isValid
      Adler32.adler32 = .ok (pkt, true) ∧ pkt.getPacketName = .error .lengthError ∧
      ¬ pkt.AccessorsSafe .release) ∧
    (PacketC.ofFrame [0, 11, 0, 0, 0, 0, 0, 0, 1, 0, 1]).isValid Adler32.adler32 = .ok true ∧
    (PacketC.ofFrame [0, 11, 0, 0, 0, 0, 0, 0, 1, 0, 1]).getPacketName = .error .lengthError ∧
    ¬ (PacketC.ofFrame [0, 11, 0, 0, 0, 0, 0, 0, 1, 0, 1]).AccessorsSafe := by
  refine ⟨⟨_, rfl, rfl, fun h => ?_⟩, rfl, rfl, fun h => ?_⟩
  · obtain ⟨name, hname, -⟩ := h.name
    cases hname
  · obtain ⟨name, hname, -⟩ := h.name
    cases hname

end TerraX
