import TerraX.Lib.Bytes
import TerraX.Lib.Memory
import TerraX.Net.NetDefine

/-!
# Packets

`Packet.h` and `Packet.cpp`. A server packet is laid out as

    total_size:2 | size_without_dest:2 | owner:4 | name_len:1 | name:name_len | body | check_sum:4 | dest:4*n

and a client packet as the same without the first field and the destinations.
The two classes compute every offset on their own, so their functions are
modelled offset by offset on the raw buffer. `adler32` comes from zlib and is a
parameter, a function of the bytes it sums.

`htons` and `htonl` before a `memcpy` store the big-endian bytes of a value;
destinations are stored without them, in the order of the host.

## Main definitions

- `Message` — what a packet uses of a protobuf message
- `PacketS`, `PacketC` — the two packet classes, with their constructors and accessors
- `PacketS.isValid`, `PacketC.isValid` — the checks a receiver makes
-/

namespace TerraX

open Bytes Memory

/-- `MAX_PACKET_SIZE`. -/
def maxPacketSize : ℕ := 64000

/-- `MAX_AOI_OBJ_COUNT`. -/
def maxAoiObjCount : ℕ := 256

/-- `MAX_PACKET_TAG_SIZE`: both sizes, the owner, the longest name and the checksum. -/
def maxPacketTagSize : ℕ := 2 + 2 + 4 + 1 + 0xFF + 4

/-- `MAX_APPENDDATA_SIZE`. -/
def maxAppendDataSize : ℕ := maxAoiObjCount * 4

/-- `MAX_MSG_SIZE`. -/
def maxMsgSize : ℕ := maxPacketSize - maxPacketTagSize - maxAppendDataSize

/-- What a packet uses of a `gpb::Message`: the short name of its type and the
    bytes `SerializeToArray` writes, `ByteSize()` many. -/
structure Message where
  name : List UInt8
  body : List UInt8
deriving DecidableEq, Repr

/-- `PacketBase::PacketBase`: the buffer of a new packet. -/
def packetBase (build : Build) (heap : ℕ → UInt8) (len : ℕ) : Except Fault (List UInt8) := do
  check build (len ≤ maxPacketSize)
  return newBlock heap len

/-! ### What both classes do behind their headers -/

/-- `static_cast<uint8_t>(msgName.size() + 1)`, with the terminating zero. -/
def Message.nameLen (msg : Message) : ℕ := (msg.name.length + 1) % 256

/-- `total_data_size`: the bytes the checksum covers. -/
def Message.totalDataSize (msg : Message) : ℕ := 1 + msg.nameLen + msg.body.length

/-- The stores of name length, name, body and checksum from `startIndex` on. The
    checksum is taken over the bytes behind the header. -/
def writeMessage (adler32 : List UInt8 → UInt32) (buffer : List UInt8) (startIndex header : ℕ)
    (msg : Message) : Except Fault (List UInt8) := do
  let buffer ← write buffer startIndex [UInt8.ofNat msg.nameLen]
  let startIndex := startIndex + 1
  let buffer ← write buffer startIndex ((msg.name ++ [0]).take msg.nameLen)
  let startIndex := startIndex + msg.nameLen
  let buffer ← write buffer startIndex msg.body
  let startIndex := startIndex + msg.body.length
  let checkSum := adler32 (← read buffer header msg.totalDataSize)
  write buffer startIndex (encodeBE 4 checkSum.toNat)

/-- The name length behind a header. -/
def nameLenAt (buffer : List UInt8) (header : ℕ) : Except Fault ℕ := do
  return decodeBE (← read buffer header 1)

/-- `std::string(p, n)`: a negative `n` converts to a length no string can have. -/
def newString (buffer : List UInt8) (ptr : ℕ) (n : ℤ) : Except Fault (List UInt8) :=
  if n < 0 then .error .lengthError else read buffer ptr n.toNat

def packetNameAt (buffer : List UInt8) (header : ℕ) : Except Fault (List UInt8) := do
  let nameLen ← nameLenAt buffer header
  newString buffer (header + 1) ((nameLen : ℤ) - 1)

/-- The message pointer, as an offset into the buffer. -/
def packetMsgAt (buffer : List UInt8) (header : ℕ) : Except Fault ℕ := do
  let nameLen ← nameLenAt buffer header
  return header + 1 + nameLen

/-- The message size: `size` bytes follow the header. -/
def msgSizeAt (buffer : List UInt8) (header : ℕ) (size : ℤ) : Except Fault ℤ := do
  let nameLen ← nameLenAt buffer header
  return int32 (sizeT (size - 1 - nameLen - 4))

/-- Whether the checksum stored at `ptr` is that of the `sumSize` bytes behind the
    header. `adler32` takes its length as a 32-bit number. -/
def checkSumAt (adler32 : List UInt8 → UInt32) (buffer : List UInt8) (header : ℕ)
    (sumSize ptr : ℤ) : Except Fault Bool := do
  let expectedCheckSum := adler32 (← read buffer header (uInt (sizeT sumSize)))
  let checkSum := decodeBE (← readPtr buffer ptr 4)
  return UInt32.ofNat checkSum == expectedCheckSum

/-! ### PacketS -/

/-- `PacketS`. The field `size_` is the length of the buffer. -/
structure PacketS where
  buffer : List UInt8
  dataSize : ℕ := 0
  packetSize : ℕ := 0
deriving DecidableEq, Repr

namespace PacketS

/-- `PacketS::HEADER_SIZE`. -/
def headerSize : ℕ := 2 + 2 + 4

/-- `PacketBase::capacity`. -/
def capacity (pkt : PacketS) : ℕ := pkt.buffer.length

/-- `PacketS::PacketS(std::size_t)`. -/
def ofLen (build : Build) (heap : ℕ → UInt8) (len : ℕ) : Except Fault PacketS := do
  let buffer ← packetBase build heap len
  return { buffer, packetSize := len }

/-- `PacketS::PacketS(gpb::Message&, int)`. The owner bytes are left as they are. -/
def ofMessage (build : Build) (adler32 : List UInt8 → UInt32) (heap : ℕ → UInt8) (msg : Message)
    (receiverCount : ℕ) : Except Fault PacketS := do
  check build (msg.body.length ≤ maxMsgSize)
  check build (msg.name.length + 1 ≤ 0xFF)
  let packetSize := headerSize + msg.totalDataSize + 4
  let dataSize := packetSize - 2
  let size := 2 + dataSize + 4 * receiverCount
  let buffer := newBlock heap size
  let buffer ← write buffer 0 (encodeBE 2 packetSize)
  let buffer ← write buffer 2 (encodeBE 2 dataSize)
  let buffer ← writeMessage adler32 buffer (2 + 2 + 4) headerSize msg
  return { buffer, dataSize, packetSize }

/-- `PacketS::GetPacketName`. -/
def getPacketName (pkt : PacketS) : Except Fault (List UInt8) :=
  packetNameAt pkt.buffer headerSize

/-- `PacketS::GetPacketMsg`, as an offset into the buffer. -/
def getPacketMsg (pkt : PacketS) : Except Fault ℕ :=
  packetMsgAt pkt.buffer headerSize

/-- `PacketS::GetMsgSize`. -/
def getMsgSize (pkt : PacketS) : Except Fault ℤ :=
  msgSizeAt pkt.buffer headerSize (pkt.dataSize + 2 - headerSize)

/-- `PacketS::is_valid`, which also takes the data size from the buffer. -/
def isValid (adler32 : List UInt8 → UInt32) (pkt : PacketS) : Except Fault (PacketS × Bool) := do
  let dataSize := decodeBE (← read pkt.buffer 2 2)
  let valid ← checkSumAt adler32 pkt.buffer headerSize (dataSize + 2 - headerSize - 4)
    (dataSize + 2 - 4)
  return ({ pkt with dataSize }, valid)

/-- `PacketS::AppendDestination`. -/
def appendDestination (build : Build) (host : Endian) (pkt : PacketS) (dest : Word) :
    Except Fault (PacketS × Bool) := do
  if pkt.capacity < pkt.packetSize + 4 then
    check build False
    return (pkt, false)
  let buffer ← write pkt.buffer pkt.packetSize (encodeHost host 4 dest.toNat)
  let packetSize := pkt.packetSize + 4
  let buffer ← write buffer 0 (encodeBE 2 packetSize)
  return ({ pkt with buffer, packetSize }, true)

/-- `PacketS::GetAllDesination`: where the destinations start, and how many there are. -/
def getAllDestination (build : Build) (pkt : PacketS) : Except Fault (ℕ × ℤ) := do
  check build (0 < pkt.dataSize)
  let count := int32 (sizeT ((pkt.packetSize : ℤ) - pkt.dataSize - 2) / 4 : ℕ)
  return (pkt.dataSize + 2, count)

/-- The entry `arrDest[i]` of a destination list that starts at `arrDest`. -/
def destinationAt (host : Endian) (pkt : PacketS) (arrDest i : ℕ) : Except Fault Word := do
  return UInt32.ofNat (decodeHost host (← read pkt.buffer (arrDest + 4 * i) 4))

/-- The destination list a receiver walks through. -/
def destinations (build : Build) (host : Endian) (pkt : PacketS) : Except Fault (List Word) := do
  let (arrDest, count) ← pkt.getAllDestination build
  (List.range count.toNat).mapM (pkt.destinationAt host arrDest)

/-- `PacketS::SetOwner`. -/
def setOwner (pkt : PacketS) (owner : Word) : Except Fault PacketS := do
  let buffer ← write pkt.buffer (2 + 2) (encodeBE 4 owner.toNat)
  return { pkt with buffer }

/-- `PacketS::GetOwnerInfo`. -/
def getOwnerInfo (pkt : PacketS) : Except Fault Word := do
  return UInt32.ofNat (decodeBE (← read pkt.buffer (2 + 2) 4))

/-- `PacketS::GetPacketSize`. -/
def getPacketSize (pkt : PacketS) : ℕ := pkt.packetSize

/-- The bytes `[0, GetPacketSize())` that a server sends. -/
def sentBytes (pkt : PacketS) : List UInt8 := slice pkt.buffer 0 pkt.getPacketSize

/-- A packet whose buffer was filled with a frame read from the network. -/
def ofFrame (frame : List UInt8) : PacketS :=
  { buffer := frame, packetSize := frame.length }

end PacketS

/-! ### PacketC -/

/-- `PacketC`. The field `size_` is the length of the buffer. -/
structure PacketC where
  buffer : List UInt8
  offset : ℕ := 0
  dataSize : ℕ := 0
deriving DecidableEq, Repr

namespace PacketC

/-- `PacketC::EX_DATA_SIZE`. -/
def exDataSize : ℕ := 2 + 4

/-- `PacketC::HEADER_SIZE`. -/
def headerSize : ℕ := 2 + 4

/-- `PacketBase::capacity`. -/
def capacity (pkt : PacketC) : ℕ := pkt.buffer.length

/-- `PacketC::PacketC(std::size_t)`. -/
def ofLen (build : Build) (heap : ℕ → UInt8) (len : ℕ) : Except Fault PacketC := do
  let buffer ← packetBase build heap len
  return { buffer, dataSize := len }

/-- `PacketC::PacketC(std::size_t, std::size_t)`: room for a server header field in
    front of the data, and for a destination behind it. -/
def ofLenEx (build : Build) (heap : ℕ → UInt8) (dataSize exDataSize : ℕ) :
    Except Fault PacketC := do
  let buffer ← packetBase build heap (dataSize + exDataSize)
  let buffer ← write buffer 0 (encodeBE 2 (dataSize + exDataSize))
  return { buffer, offset := 2, dataSize }

/-- `PacketC::PacketC(gpb::Message&)`. -/
def ofMessage (build : Build) (adler32 : List UInt8 → UInt32) (heap : ℕ → UInt8) (msg : Message) :
    Except Fault PacketC := do
  check build (msg.body.length ≤ maxMsgSize)
  check build (msg.name.length + 1 ≤ 0xFF)
  let size := headerSize + msg.totalDataSize + 4
  let buffer := newBlock heap size
  let buffer ← write buffer 0 (encodeBE 2 size)
  let buffer ← writeMessage adler32 buffer (2 + 4) headerSize msg
  return { buffer, dataSize := size }

/-- `PacketC::GetCltDestionation`. -/
def getCltDestination (pkt : PacketC) : Except Fault Word := do
  return UInt32.ofNat (decodeBE (← read pkt.buffer (pkt.offset + 2) 4))

/-- `PacketC::GetOwnerInfo`. -/
def getOwnerInfo (pkt : PacketC) : Except Fault Word := do
  return UInt32.ofNat (decodeBE (← read pkt.buffer (pkt.offset + 2) 4))

/-- `PacketC::SetOwner`. -/
def setOwner (pkt : PacketC) (owner : Word) : Except Fault PacketC := do
  let buffer ← write pkt.buffer (pkt.offset + 2) (encodeBE 4 owner.toNat)
  return { pkt with buffer }

/-- `PacketC::AppendDestination`: only a packet with room behind its data takes one. -/
def appendDestination (host : Endian) (pkt : PacketC) (dest : Word) : Except Fault PacketC := do
  if pkt.dataSize = pkt.capacity then
    return pkt
  let buffer ← write pkt.buffer (pkt.capacity - 4) (encodeHost host 4 dest.toNat)
  return { pkt with buffer }

/-- `PacketC::GetPacketName`. -/
def getPacketName (pkt : PacketC) : Except Fault (List UInt8) :=
  packetNameAt pkt.buffer (headerSize + pkt.offset)

/-- `PacketC::GetPacketMsg`, as an offset into the buffer. -/
def getPacketMsg (pkt : PacketC) : Except Fault ℕ :=
  packetMsgAt pkt.buffer (headerSize + pkt.offset)

/-- `PacketC::GetMsgSize`. -/
def getMsgSize (pkt : PacketC) : Except Fault ℤ :=
  msgSizeAt pkt.buffer (headerSize + pkt.offset) ((pkt.dataSize : ℤ) - headerSize)

/-- `PacketC::is_valid`. -/
def isValid (adler32 : List UInt8 → UInt32) (pkt : PacketC) : Except Fault Bool :=
  checkSumAt adler32 pkt.buffer (headerSize + pkt.offset) ((pkt.dataSize : ℤ) - headerSize - 4)
    ((pkt.dataSize : ℤ) + pkt.offset - 4)

/-- A client-side packet whose buffer was filled with a frame. -/
def ofFrame (frame : List UInt8) : PacketC :=
  { buffer := frame, dataSize := frame.length }

/-- A gate-side packet whose data was filled with a frame. Nothing has written the
    four bytes behind the frame yet. -/
def ofClientFrame (heap : ℕ → UInt8) (frame : List UInt8) : PacketC :=
  let size := frame.length + exDataSize
  { buffer := encodeBE 2 size ++ (frame ++ (newBlock heap size).drop (frame.length + 2))
    offset := 2
    dataSize := frame.length }

end PacketC

end TerraX
