import TerraX.Lib.Framing
import TerraX.Net.PacketSafety

/-!
# The packet processor

`PacketProcessor.cpp`: an arrival on a channel appends to the buffer of that
channel, `ReadMessage` cuts the buffer into packets, and the packets that pass
`is_valid` are handed on. An `evbuffer` is the list of its unread bytes. The event
loop, the host names and the printing are left out.

A call of `is_valid` that leaves its buffer has no defined outcome. Where it does,
`overread` gives the packet and the answer, and nothing is assumed about it.

## Main definitions

- `Packet` — a packet behind a `PacketBase` pointer
- `readMessage`, `processMessage`, `onMessageFrontEnd`, `onMessageBackEnd`
- `packetSplitter` — the frames of a byte stream
- `sendPacketByChannel` — what a server sends for a message

## Main results

- `readMessage_eq`, `readMessage_assertFailed` — what reading does to every buffer
-/

namespace TerraX

open Bytes Memory Framing

/-- `MessageError_t`. -/
inductive MessageError
  | noError
  | invalidLength
deriving DecidableEq, Repr

/-- A packet behind a `PacketBase` pointer. -/
inductive Packet
  | s (pkt : PacketS)
  | c (pkt : PacketC)
deriving DecidableEq, Repr

namespace Packet

/-- The virtual `is_valid`. -/
def isValid (adler32 : List UInt8 → UInt32) : Packet → Except Fault (Packet × Bool)
  | s pkt => do
    let (pkt, valid) ← pkt.isValid adler32
    return (s pkt, valid)
  | c pkt => do
    let valid ← pkt.isValid adler32
    return (c pkt, valid)

/-- The packet that `ReadMessage` builds from a frame. -/
def ofFrame (heap : ℕ → UInt8) (fromClient : Bool) (frame : List UInt8) : Packet :=
  if fromClient then c (.ofClientFrame heap frame) else s (.ofFrame frame)

/-- The bytes that are allocated in addition to a frame. -/
def extraSize (fromClient : Bool) : ℕ := if fromClient then PacketC.exDataSize else 0

/-- The packet as `is_valid` leaves it, and the answer. -/
def checkValid (adler32 : List UInt8 → UInt32) (overread : Packet → Packet × Bool) (pkt : Packet) :
    Packet × Bool :=
  match pkt.isValid adler32 with
  | .ok checked => checked
  | .error _ => overread pkt

/-- The packet that is handed on, if it passes. -/
def accepted (adler32 : List UInt8 → UInt32) (overread : Packet → Packet × Bool) (pkt : Packet) :
    Option Packet :=
  if (pkt.checkValid adler32 overread).2 then some (pkt.checkValid adler32 overread).1 else none

section Accepted

variable {adler32 : List UInt8 → UInt32} (heap : ℕ → UInt8) (overread : Packet → Packet × Bool)
  {frame : List UInt8}

/-- The frame of a server that passes. -/
theorem accepted_server {pktS : PacketS}
    (h : (PacketS.ofFrame frame).isValid adler32 = .ok (pktS, true)) :
    (ofFrame heap false frame).accepted adler32 overread = some (s pktS) := by
  have hchecked : (ofFrame heap false frame).checkValid adler32 overread = (s pktS, true) := by
    simp [ofFrame, checkValid, isValid, h]
  rw [accepted, hchecked]
  rfl

/-- The frame of a client that passes. -/
theorem accepted_client (h : (PacketC.ofClientFrame heap frame).isValid adler32 = .ok true) :
    (ofFrame heap true frame).accepted adler32 overread = some (c (.ofClientFrame heap frame)) := by
  have hchecked : (ofFrame heap true frame).checkValid adler32 overread =
      (c (.ofClientFrame heap frame), true) := by
    simp [ofFrame, checkValid, isValid, h]
  rw [accepted, hchecked]
  rfl

/-- The frame of a client that does not pass. -/
theorem dropped_client (h : (PacketC.ofClientFrame heap frame).isValid adler32 = .ok false) :
    (ofFrame heap true frame).accepted adler32 overread = none := by
  have hchecked : (ofFrame heap true frame).checkValid adler32 overread =
      (c (.ofClientFrame heap frame), false) := by
    simp [ofFrame, checkValid, isValid, h]
  rw [accepted, hchecked]
  rfl

end Accepted

end Packet

/-! ### Reading -/

/-- `min_msg_length`. -/
def minMsgLength : ℕ := 2

/-- The packet that one turn of the loop in `ReadMessage` allocates and fills. -/
def readPacket (build : Build) (heap : ℕ → UInt8) (fromClient : Bool) (frame : List UInt8) :
    Except Fault Packet :=
  if fromClient then do
    let pkt ← PacketC.ofLenEx build heap frame.length PacketC.exDataSize
    let buffer ← write pkt.buffer pkt.offset frame
    return .c { pkt with buffer }
  else do
    let pkt ← PacketS.ofLen build heap frame.length
    let buffer ← write pkt.buffer 0 frame
    return .s { pkt with buffer }

/-- `PacketProcessor::ReadMessage`. -/
def readMessage (build : Build) (heap : ℕ → UInt8) (fromClient : Bool) (evbuf : List UInt8)
    (queueRead : List Packet) : Except Fault (List UInt8 × List Packet × MessageError) :=
  let readable := evbuf.length
  if readable < minMsgLength then
    .ok (evbuf, queueRead, .noError)
  else
    let totalLen := decodeBE (evbuf.take 2)
    if _hbad : maxPacketSize < totalLen ∨ totalLen < minMsgLength then
      -- Nothing is drained: the next arrival finds the same prefix in front.
      .ok (evbuf, queueRead, .invalidLength)
    else if _hfull : totalLen ≤ readable then do
      let pkt ← readPacket build heap fromClient (evbuf.take totalLen)
      readMessage build heap fromClient (evbuf.drop totalLen) (queueRead ++ [pkt])
    else
      .ok (evbuf, queueRead, .noError)
termination_by evbuf.length
decreasing_by
  simp only [minMsgLength, not_or] at _hbad
  rw [List.length_drop]
  omega

/-- The loop of `PacketProcessor::ProcessMessage` over the queue. -/
def drainQueue {σ : Type} (adler32 : List UInt8 → UInt32) (overread : Packet → Packet × Bool)
    (fn : σ → Packet → Except Fault σ) : List Packet → σ → Except Fault (List Packet × σ)
  | [], st => .ok ([], st)
  | pkt :: queueRead, st =>
    let (pkt, valid) := pkt.checkValid adler32 overread
    if valid then do
      let st ← fn st pkt
      drainQueue adler32 overread fn queueRead st
    else
      -- The packet is deleted, and the loop goes on behind it.
      drainQueue adler32 overread fn queueRead st

/-- `PacketProcessor::ProcessMessage`. The error code of `ReadMessage` is dropped. -/
def processMessage {σ : Type} (build : Build) (adler32 : List UInt8 → UInt32) (heap : ℕ → UInt8)
    (overread : Packet → Packet × Bool) (fromClient : Bool) (fn : σ → Packet → Except Fault σ)
    (evbuf : List UInt8) (queueRead : List Packet) (st : σ) :
    Except Fault (List UInt8 × List Packet × σ) := do
  let (evbuf, queueRead, _) ← readMessage build heap fromClient evbuf queueRead
  let (queueRead, st) ← drainQueue adler32 overread fn queueRead st
  return (evbuf, queueRead, st)

/-- `PacketProcessor::OnMessage_FrontEnd`. -/
def onMessageFrontEnd {σ : Type} (build : Build) (adler32 : List UInt8 → UInt32) (heap : ℕ → UInt8)
    (overread : Packet → Packet × Bool) (peerType : PeerType) (fn : σ → Packet → Except Fault σ)
    (evbuf : List UInt8) (queueRead : List Packet) (st : σ) :
    Except Fault (List UInt8 × List Packet × σ) :=
  processMessage build adler32 heap overread (peerType == .gateserver) fn evbuf queueRead st

/-- `PacketProcessor::OnMessage_BackEnd`. -/
def onMessageBackEnd {σ : Type} (build : Build) (adler32 : List UInt8 → UInt32) (heap : ℕ → UInt8)
    (overread : Packet → Packet × Bool) (fn : σ → Packet → Except Fault σ) (evbuf : List UInt8)
    (queueRead : List Packet) (st : σ) : Except Fault (List UInt8 × List Packet × σ) :=
  processMessage build adler32 heap overread false fn evbuf queueRead st

/-- `PacketProcessor::SendPacketByChannel`: the bytes that are sent, if any. -/
def sendPacketByChannel (build : Build) (adler32 : List UInt8 → UInt32) (heap : ℕ → UInt8)
    (host : Endian) (destInfo ownerInfo : Word) (msg : Message) :
    Except Fault (Option (List UInt8)) := do
  let pkt ← PacketS.ofMessage build adler32 heap msg 1
  let (pkt, appended) ← pkt.appendDestination build host destInfo
  if appended then
    let pkt ← pkt.setOwner ownerInfo
    return some pkt.sentBytes
  else
    return none

/-! ### The frames of a stream -/

/-- The length of the first frame of a stream, if it has arrived completely. -/
def nextFrame (s : List UInt8) : Option ℕ :=
  if 2 ≤ s.length ∧ 2 ≤ decodeBE (s.take 2) ∧ decodeBE (s.take 2) ≤ maxPacketSize ∧
    decodeBE (s.take 2) ≤ s.length then some (decodeBE (s.take 2)) else none

theorem nextFrame_eq_some {s : List UInt8} {n : ℕ} :
    nextFrame s = some n ↔
      2 ≤ n ∧ n ≤ maxPacketSize ∧ n ≤ s.length ∧ decodeBE (s.take 2) = n := by
  unfold nextFrame
  split
  · next h =>
    constructor
    · intro hn
      cases hn
      exact ⟨h.2.1, h.2.2.1, h.2.2.2, rfl⟩
    · rintro ⟨-, -, -, rfl⟩
      rfl
  · next h =>
    constructor
    · intro hn
      cases hn
    · rintro ⟨h2, hmax, hlen, rfl⟩
      exact absurd ⟨h2.trans hlen, h2, hmax, hlen⟩ h

/-- The cut of a stream by its length prefixes. -/
def packetSplitter : Splitter UInt8 where
  next := nextFrame
  pos h := by
    have h2 := (nextFrame_eq_some.mp h).1
    omega
  le_length h := (nextFrame_eq_some.mp h).2.2.1
  stable {s n} t h := by
    obtain ⟨h2, hmax, hlen, hn⟩ := nextFrame_eq_some.mp h
    refine nextFrame_eq_some.mpr ⟨h2, hmax, ?_, ?_⟩
    · rw [List.length_append]
      omega
    · rwa [List.take_append_of_le_length (by omega)]
  next_take {s n} h := by
    obtain ⟨h2, hmax, hlen, hn⟩ := nextFrame_eq_some.mp h
    refine nextFrame_eq_some.mpr ⟨h2, hmax, ?_, ?_⟩
    · rw [List.length_take]
      omega
    · rwa [List.take_take, Nat.min_eq_left h2]

/-- The frames of the splitter are the frames that a receiver accepts. -/
theorem packetSplitter_isFrame {f : List UInt8} : packetSplitter.IsFrame f ↔ IsFrame f := by
  have hslice : slice f 0 2 = f.take 2 := rfl
  rw [Splitter.IsFrame, IsFrame, hslice]
  exact nextFrame_eq_some.trans ⟨fun h => ⟨h.1, h.2.1, h.2.2.2⟩, fun h => ⟨h.1, h.2.1, le_rfl, h.2.2⟩⟩

/-- Behind a prefix that is too large no frame is found any more. -/
theorem packetSplitter_blocked {s : List UInt8} (hlen : 2 ≤ s.length)
    (hlong : maxPacketSize < decodeBE (s.take 2)) : packetSplitter.Blocked s := by
  intro t
  rcases Option.eq_none_or_eq_some (packetSplitter.next (s ++ t)) with hnone | ⟨n, hn⟩
  · exact hnone
  · obtain ⟨-, hmax, -, hsize⟩ := nextFrame_eq_some.mp hn
    rw [List.take_append_of_le_length hlen] at hsize
    omega

/-- What `ReadMessage` reports when it stops in front of `s`. -/
def stopError (s : List UInt8) : MessageError :=
  if minMsgLength ≤ s.length ∧
    (maxPacketSize < decodeBE (s.take 2) ∨ decodeBE (s.take 2) < minMsgLength) then .invalidLength
  else .noError

/-- Where no frame stands in front, a length that a frame can have is that of a part of one. -/
theorem length_lt_of_stop {s : List UInt8} (h : nextFrame s = none)
    (hbad : ¬ (maxPacketSize < decodeBE (s.take 2) ∨ decodeBE (s.take 2) < minMsgLength)) :
    s.length < decodeBE (s.take 2) := by
  by_contra hfull
  unfold minMsgLength at hbad
  have hsome : nextFrame s = some (decodeBE (s.take 2)) :=
    nextFrame_eq_some.mpr ⟨by omega, by omega, by omega, rfl⟩
  rw [h] at hsome
  cases hsome

/-! ### What reading does -/

section Reading

variable (build : Build) (heap : ℕ → UInt8) (fromClient : Bool)

/-- A packet that is allocated and filled holds its frame. -/
theorem readPacket_eq (frame : List UInt8) :
    readPacket build heap fromClient frame =
      (check build (frame.length + Packet.extraSize fromClient ≤ maxPacketSize) >>= fun _ =>
        .ok (Packet.ofFrame heap fromClient frame)) := by
  cases fromClient with
  | false =>
    have hfill : write ([] ++ newBlock heap frame.length) 0 frame = .ok ([] ++ frame ++
        (newBlock heap frame.length).drop frame.length) :=
      write_append rfl (by rw [newBlock_length])
    rw [List.nil_append, List.nil_append, List.drop_eq_nil_of_le (by rw [newBlock_length]),
      List.append_nil] at hfill
    simp only [readPacket, Packet.extraSize, Packet.ofFrame, PacketS.ofLen, packetBase,
      Bool.false_eq_true, if_false, Nat.add_zero]
    cases check build (frame.length ≤ maxPacketSize) with
    | error e => rfl
    | ok _ => simp only [ok_bind, pure_eq_ok, hfill]; rfl
  | true =>
    have hfirst (size : ℕ) (h : 2 ≤ size) : write ([] ++ newBlock heap size) 0 (encodeBE 2 size) =
        .ok ([] ++ encodeBE 2 size ++ (newBlock heap size).drop 2) :=
      write_append rfl (by rwa [encodeBE_length, newBlock_length])
    have hfill (size : ℕ) (h : frame.length + 2 ≤ size) :
        write (encodeBE 2 size ++ (newBlock heap size).drop 2) 2 frame =
          .ok (encodeBE 2 size ++ (frame ++ (newBlock heap size).drop (frame.length + 2))) := by
      rw [write_append (by simp) (by simp; omega), List.drop_drop, List.append_assoc, Nat.add_comm]
    simp only [List.nil_append] at hfirst
    simp only [readPacket, Packet.extraSize, Packet.ofFrame, PacketC.ofLenEx, packetBase, if_true]
    cases check build (frame.length + PacketC.exDataSize ≤ maxPacketSize) with
    | error e => rfl
    | ok _ =>
      simp only [ok_bind, pure_eq_ok]
      rw [hfirst _ (by rw [PacketC.exDataSize]; omega), ok_bind, ok_bind,
        hfill _ (by rw [PacketC.exDataSize]; omega)]
      rfl

theorem readMessage_of_none {s : List UInt8} (h : packetSplitter.next s = none)
    (queueRead : List Packet) :
    readMessage build heap fromClient s queueRead = .ok (s, queueRead, stopError s) := by
  rw [readMessage, stopError]
  dsimp only
  split
  · next hshort => rw [if_neg (by omega)]
  · next hshort =>
    split
    · next hbad => rw [if_pos ⟨by omega, hbad⟩]
    · next hbad =>
      rw [dif_neg (Nat.not_le.mpr (length_lt_of_stop h hbad)),
        if_neg fun hstop => hbad hstop.2]

theorem readMessage_of_some {s : List UInt8} {n : ℕ} (h : packetSplitter.next s = some n)
    (queueRead : List Packet) :
    readMessage build heap fromClient s queueRead =
      (readPacket build heap fromClient (s.take n) >>= fun pkt =>
        readMessage build heap fromClient (s.drop n) (queueRead ++ [pkt])) := by
  obtain ⟨h2, hmax, hlen, rfl⟩ := nextFrame_eq_some.mp h
  have hshort : ¬ s.length < minMsgLength := by unfold minMsgLength; omega
  have hbad : ¬ (maxPacketSize < decodeBE (s.take 2) ∨ decodeBE (s.take 2) < minMsgLength) := by
    unfold minMsgLength
    omega
  rw [readMessage, if_neg hshort, dif_neg hbad, dif_pos hlen]

/-- A prefix out of range is reported and stays unread, with all that follows it. -/
theorem readMessage_invalidLength {s : List UInt8} (hlen : minMsgLength ≤ s.length)
    (hbad : maxPacketSize < decodeBE (s.take 2) ∨ decodeBE (s.take 2) < minMsgLength)
    (queueRead : List Packet) :
    readMessage build heap fromClient s queueRead = .ok (s, queueRead, .invalidLength) := by
  rw [readMessage, if_neg (by omega), dif_pos hbad]

/-- The packets that a debug build may allocate for the frames of `s`. -/
def Fits (s : List UInt8) : Prop :=
  build = .debug →
    ∀ f ∈ packetSplitter.frames s, f.length + Packet.extraSize fromClient ≤ maxPacketSize

/-- `ReadMessage` terminates on every buffer. It queues the frames in order, leaves
    the rest of the stream unread, and reports a prefix out of range. -/
theorem readMessage_eq {s : List UInt8} (hfits : Fits build fromClient s) (queueRead : List Packet) :
    readMessage build heap fromClient s queueRead =
      .ok (packetSplitter.rest s,
        queueRead ++ (packetSplitter.frames s).map (Packet.ofFrame heap fromClient),
        stopError (packetSplitter.rest s)) := by
  induction s using packetSplitter.cut_induction generalizing queueRead with
  | stop s h =>
    rw [readMessage_of_none build heap fromClient h, packetSplitter.rest_of_none h,
      packetSplitter.frames_of_none h, List.map_nil, List.append_nil]
  | cut s n h ih =>
    have hframes := packetSplitter.frames_of_some h
    have hcheck : check build ((s.take n).length + Packet.extraSize fromClient ≤ maxPacketSize) =
        .ok () := by
      cases build with
      | release => rfl
      | debug =>
        refine check_of .debug (hfits rfl _ ?_)
        rw [hframes]
        exact List.mem_cons_self
    have htail : Fits build fromClient (s.drop n) := fun hb f hf =>
      hfits hb f (by rw [hframes]; exact List.mem_cons_of_mem _ hf)
    rw [readMessage_of_some build heap fromClient h, readPacket_eq, hcheck, ok_bind, ok_bind,
      ih htail, packetSplitter.rest_of_some h, hframes, List.map_cons, List.append_assoc]
    rfl

/-- A frame that is too long for its packet stops a debug build. -/
theorem readMessage_assertFailed {s : List UInt8} (hfits : ¬ Fits build fromClient s)
    (queueRead : List Packet) :
    readMessage build heap fromClient s queueRead = .error .assertFailed := by
  obtain ⟨rfl, hlong⟩ := Classical.not_imp.mp hfits
  clear hfits
  induction s using packetSplitter.cut_induction generalizing queueRead with
  | stop s h =>
    rw [packetSplitter.frames_of_none h] at hlong
    exact absurd (fun _ hf => nomatch hf) hlong
  | cut s n h ih =>
    rw [readMessage_of_some .debug heap fromClient h, readPacket_eq]
    by_cases hfirst : (s.take n).length + Packet.extraSize fromClient ≤ maxPacketSize
    · rw [check_of .debug hfirst, ok_bind, ok_bind]
      refine ih _ fun htail => hlong ?_
      rw [packetSplitter.frames_of_some h]
      exact List.forall_mem_cons.mpr ⟨hfirst, htail⟩
    · simp only [check, if_neg hfirst, error_bind]

/-- Without the room for a destination every frame fits. -/
theorem fits_server (s : List UInt8) : Fits build false s := fun _ _ hf =>
  (packetSplitter_isFrame.mp (packetSplitter.isFrame_of_mem hf)).2.1

theorem fits_release (s : List UInt8) : Fits .release fromClient s := fun h => nomatch h

end Reading

/-- The loop over the queue hands on the packets that pass, and empties the queue. -/
theorem drainQueue_eq {σ : Type} (adler32 : List UInt8 → UInt32)
    (overread : Packet → Packet × Bool) (fn : σ → Packet → Except Fault σ) (queueRead : List Packet)
    (st : σ) :
    drainQueue adler32 overread fn queueRead st =
      ((queueRead.filterMap (Packet.accepted adler32 overread)).foldlM fn st >>= fun st =>
        .ok ([], st)) := by
  induction queueRead generalizing st with
  | nil => rfl
  | cons pkt queueRead ih =>
    rcases hchecked : pkt.checkValid adler32 overread with ⟨pkt', _ | _⟩
    · have hnone : pkt.accepted adler32 overread = none := by simp [Packet.accepted, hchecked]
      rw [List.filterMap_cons_none hnone, drainQueue, hchecked]
      exact ih st
    · have hsome : pkt.accepted adler32 overread = some pkt' := by
        simp [Packet.accepted, hchecked]
      rw [List.filterMap_cons_some hsome, List.foldlM_cons, drainQueue, hchecked, bind_assoc]
      simp only [if_true, ih]

/-- `ProcessMessage` on an empty queue: the frames that pass are handed on, and the rest of the
    stream stays unread. -/
theorem processMessage_eq {σ : Type} (build : Build) (adler32 : List UInt8 → UInt32)
    (heap : ℕ → UInt8) (overread : Packet → Packet × Bool) {fromClient : Bool}
    (fn : σ → Packet → Except Fault σ) {evbuf : List UInt8} (hfits : Fits build fromClient evbuf)
    (st : σ) :
    processMessage build adler32 heap overread fromClient fn evbuf [] st =
      ((((packetSplitter.frames evbuf).map (Packet.ofFrame heap fromClient)).filterMap
        (Packet.accepted adler32 overread)).foldlM fn st >>= fun st =>
          .ok (packetSplitter.rest evbuf, [], st)) := by
  rw [processMessage, readMessage_eq build heap fromClient hfits, ok_bind]
  simp only [List.nil_append, drainQueue_eq, bind_assoc, ok_bind, pure_eq_ok]

section OneFrame

variable {σ : Type} (build : Build) (adler32 : List UInt8 → UInt32) (heap : ℕ → UInt8)
  (overread : Packet → Packet × Bool) (fromClient : Bool) (fn : σ → Packet → Except Fault σ)
  {frame : List UInt8} (h : IsFrame frame)

include h

/-- `ProcessMessage` when one frame has arrived: a packet is made of it, if it is not too long for a
    debug build, and checked. -/
theorem processMessage_oneFrame (st : σ) :
    processMessage build adler32 heap overread fromClient fn frame [] st =
      (check build (frame.length + Packet.extraSize fromClient ≤ maxPacketSize) >>= fun _ =>
        ([Packet.ofFrame heap fromClient frame].filterMap
          (Packet.accepted adler32 overread)).foldlM fn st >>= fun st => .ok ([], [], st)) := by
  have hnone : packetSplitter.next [] = none := packetSplitter.next_nil
  obtain ⟨hframes, hrest⟩ := packetSplitter.frames_isFrame_append (packetSplitter_isFrame.mpr h) []
  rw [packetSplitter.frames_of_none hnone, List.append_nil] at hframes
  rw [packetSplitter.rest_of_none hnone, List.append_nil] at hrest
  by_cases hfits : Fits build fromClient frame
  · have hcheck : check build (frame.length + Packet.extraSize fromClient ≤ maxPacketSize) =
        .ok () := check_of_debug fun hb => hfits hb frame (by rw [hframes]; exact List.mem_cons_self)
    rw [processMessage_eq build adler32 heap overread fn hfits, hframes, hrest, hcheck, ok_bind,
      List.map_singleton]
  · obtain ⟨rfl, hlong⟩ := Classical.not_imp.mp hfits
    have hbad : ¬ frame.length + Packet.extraSize fromClient ≤ maxPacketSize := by
      rwa [hframes, List.forall_mem_singleton] at hlong
    rw [processMessage, readMessage_assertFailed .debug heap fromClient hfits, check, if_neg hbad]
    rfl

/-- The packet is handed on if it passes. -/
theorem processMessage_frame {pkt : Packet}
    (hpkt : (Packet.ofFrame heap fromClient frame).accepted adler32 overread = some pkt) (st : σ) :
    processMessage build adler32 heap overread fromClient fn frame [] st =
      (check build (frame.length + Packet.extraSize fromClient ≤ maxPacketSize) >>= fun _ =>
        fn st pkt >>= fun st => .ok ([], [], st)) := by
  rw [processMessage_oneFrame build adler32 heap overread fromClient fn h,
    List.filterMap_cons_some hpkt, List.filterMap_nil, List.foldlM_cons]
  simp only [bind_assoc, List.foldlM_nil, pure_bind]

/-- It is deleted if it does not. -/
theorem processMessage_dropped
    (hpkt : (Packet.ofFrame heap fromClient frame).accepted adler32 overread = none) (st : σ) :
    processMessage build adler32 heap overread fromClient fn frame [] st =
      (check build (frame.length + Packet.extraSize fromClient ≤ maxPacketSize) >>= fun _ =>
        .ok ([], [], st)) := by
  rw [processMessage_oneFrame build adler32 heap overread fromClient fn h,
    List.filterMap_cons_none hpkt, List.filterMap_nil, List.foldlM_nil, pure_bind]

end OneFrame

/-- Nothing has arrived. -/
theorem processMessage_nil {σ : Type} (build : Build) (adler32 : List UInt8 → UInt32)
    (heap : ℕ → UInt8) (overread : Packet → Packet × Bool) (fromClient : Bool)
    (fn : σ → Packet → Except Fault σ) (st : σ) :
    processMessage build adler32 heap overread fromClient fn [] [] st = .ok ([], [], st) := by
  have hnone : packetSplitter.next [] = none := packetSplitter.next_nil
  rw [processMessage, readMessage_of_none build heap fromClient hnone]
  rfl

end TerraX
