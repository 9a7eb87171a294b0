import TerraX.Net.NetChannel
import TerraX.SrvLib.PacketRoundTrip

/-!
# The client

`NetManagerClient`. It reads the stream from its gate as the servers read theirs, but into
packets without room for a server header, and hands every valid one to the dispatcher.

## Main definitions

- `NetManagerClient.readMessage`, `NetManagerClient.processMessage`

## Main results

- `NetManagerClient.readMessage_frame` — `ReadMessage` cuts off a frame in front of any stream
-/

namespace TerraX

open Bytes Memory

namespace NetManagerClient

/-- The packet that one turn of the loop in `ReadMessage` allocates and fills. -/
def readPacket (build : Build) (heap : ℕ → UInt8) (frame : List UInt8) : Except Fault PacketC := do
  let pkt ← PacketC.ofLen build heap frame.length
  let buffer ← write pkt.buffer 0 frame
  return { pkt with buffer }

/-- `NetManagerClient::ReadMessage`. -/
def readMessage (build : Build) (heap : ℕ → UInt8) (evbuf : List UInt8) (pktQueue : List PacketC) :
    Except Fault (List UInt8 × List PacketC × MessageError) :=
  let readable := evbuf.length
  if readable < minMsgLength then
    .ok (evbuf, pktQueue, .noError)
  else
    let totalLen := decodeBE (evbuf.take 2)
    if _hbad : maxPacketSize < totalLen ∨ totalLen < minMsgLength then
      .ok (evbuf, pktQueue, .invalidLength)
    else if _hfull : totalLen ≤ readable then do
      let pkt ← readPacket build heap (evbuf.take totalLen)
      readMessage build heap (evbuf.drop totalLen) (pktQueue ++ [pkt])
    else
      .ok (evbuf, pktQueue, .noError)
termination_by evbuf.length
decreasing_by
  simp only [minMsgLength, not_or] at _hbad
  rw [List.length_drop]
  omega

/-- One turn of the loop in `ProcessMessage`: a packet that does not pass is dropped. -/
def processPacket {σ : Type} (adler32 : List UInt8 → UInt32) (channel : NetChannel)
    (deliver : Dispatch → σ → Except Fault σ) (s : σ) (pkt : PacketC) : Except Fault σ := do
  if ← pkt.isValid adler32 then
    let packetName ← pkt.getPacketName
    let ownerInfo ← pkt.getOwnerInfo
    let packetMsg ← pkt.getPacketMsg
    let msgSize ← pkt.getMsgSize
    deliver (channel.onMessage ownerInfo packetName pkt.buffer packetMsg msgSize) s
  else
    return s

/-- `NetManagerClient::ProcessMessage`. The error code of `ReadMessage` is dropped. -/
def processMessage {σ : Type} (build : Build) (adler32 : List UInt8 → UInt32) (heap : ℕ → UInt8)
    (channel : NetChannel) (deliver : Dispatch → σ → Except Fault σ) (evbuf : List UInt8)
    (pktQueue : List PacketC) (s : σ) : Except Fault (List UInt8 × σ) := do
  let (evbuf, pktQueue, _) ← readMessage build heap evbuf pktQueue
  let s ← pktQueue.foldlM (processPacket adler32 channel deliver) s
  return (evbuf, s)

/-- A packet that is allocated and filled holds its frame. -/
theorem readPacket_eq (build : Build) (heap : ℕ → UInt8) {frame : List UInt8}
    (hlen : frame.length ≤ maxPacketSize) :
    readPacket build heap frame = .ok (.ofFrame frame) := by
  have hfill : write ([] ++ newBlock heap frame.length) 0 frame =
      .ok ([] ++ frame ++ (newBlock heap frame.length).drop frame.length) :=
    write_append rfl (by rw [newBlock_length])
  rw [List.nil_append, List.nil_append, List.drop_eq_nil_of_le (by rw [newBlock_length]),
    List.append_nil] at hfill
  simp only [readPacket, PacketC.ofLen, packetBase, check_of build hlen, ok_bind, pure_eq_ok, hfill]
  rfl

/-- Whatever follows a frame, `ReadMessage` queues its packet and reads on behind it. -/
theorem readMessage_frame (build : Build) (heap : ℕ → UInt8) {frame : List UInt8}
    (h : IsFrame frame) (tail : List UInt8) (pktQueue : List PacketC) :
    readMessage build heap (frame ++ tail) pktQueue =
      readMessage build heap tail (pktQueue ++ [.ofFrame frame]) := by
  have hnext : nextFrame (frame ++ tail) = some frame.length :=
    packetSplitter.stable tail (packetSplitter_isFrame.mpr h)
  obtain ⟨h2, hmax, hlen, htotal⟩ := nextFrame_eq_some.mp hnext
  have hshort : ¬ (frame ++ tail).length < minMsgLength := by
    unfold minMsgLength
    omega
  have hbad : ¬ (maxPacketSize < frame.length ∨ frame.length < minMsgLength) := by
    unfold minMsgLength
    omega
  rw [readMessage, if_neg hshort]
  simp only [htotal]
  rw [dif_neg hbad, dif_pos hlen, List.take_left, List.drop_left, readPacket_eq build heap hmax]
  rfl

end NetManagerClient

end TerraX
