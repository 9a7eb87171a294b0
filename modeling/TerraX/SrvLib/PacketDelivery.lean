import TerraX.SrvLib.PacketRoundTrip
import TerraX.SrvLib.PacketStream

/-!
# A link between two servers

The bytes of what one server sends with `SendPacketByChannel` arrive at another one in
chunks. The packets that the receiver has handed on are at all times the first of those
that were sent, in order; the others are still on the way.

## Main definitions

- `Sent` — what `SendPacketByChannel` is given
- `Sent.Delivers` — the packet that a receiver hands on for it

## Main results

- `delivered_in_order` — what was handed on, and what is on the way
-/

namespace TerraX

open Bytes Memory Framing

/-- The arguments of `SendPacketByChannel`. -/
structure Sent where
  destInfo : Word
  ownerInfo : Word
  msg : Message

namespace Sent

/-- The name fits its length byte, and the body the packet. -/
def Sendable (s : Sent) : Prop := s.msg.name.length ≤ 254 ∧ s.msg.body.length ≤ maxMsgSize

def send (build : Build) (adler32 : List UInt8 → UInt32) (heap : ℕ → UInt8) (host : Endian)
    (s : Sent) : Except Fault (Option (List UInt8)) :=
  sendPacketByChannel build adler32 heap host s.destInfo s.ownerInfo s.msg

/-- The bytes that are sent. -/
def frame (adler32 : List UInt8 → UInt32) (host : Endian) (s : Sent) : List UInt8 :=
  serverLayout (encodeBE 2 (s.msg.payload.length + 12 + 4 * [s.destInfo].length))
    (encodeBE 2 (s.msg.payload.length + 10)) (encodeBE 4 s.ownerInfo.toNat) s.msg.payload
    (encodeBE 4 (adler32 s.msg.payload).toNat) (destBytes host [s.destInfo])

/-- The packet that a receiver makes of them. -/
def received (adler32 : List UInt8 → UInt32) (host : Endian) (s : Sent) : PacketS :=
  { PacketS.ofFrame (s.frame adler32 host) with dataSize := s.msg.payload.length + 10 }

/-- What the receiver reads from a packet is what was sent. -/
def Delivers (host : Endian) (s : Sent) (pkt : Packet) : Prop :=
  ∃ rcv, pkt = .s rcv ∧ rcv.Carries host s.msg s.ownerInfo [s.destInfo]

end Sent

section Link

variable (build : Build) (adler32 : List UInt8 → UInt32) (heap heap' : ℕ → UInt8) (host : Endian)
  (overread : Packet → Packet × Bool)

theorem Sent.Sendable.send_frame {s : Sent} (h : s.Sendable) :
    s.send build adler32 heap host = .ok (some (s.frame adler32 host)) :=
  sendPacketByChannel_eq build adler32 heap host s.destInfo s.ownerInfo h.1 fun _ => h.2

/-- The bytes are one frame, of which the receiver makes the packet again. -/
theorem Sent.Sendable.received_carries {s : Sent} (h : s.Sendable) :
    IsFrame (s.frame adler32 host) ∧
      (PacketS.ofFrame (s.frame adler32 host)).isValid adler32 =
        .ok (s.received adler32 host, true) ∧
      (s.received adler32 host).Carries host s.msg s.ownerInfo [s.destInfo] := by
  have hlen := s.msg.payload_length
  have hbody := h.2
  have hmax : s.msg.payload.length + 12 + 4 * [s.destInfo].length ≤ maxPacketSize := by
    have hname := h.1
    simp only [maxMsgSize, maxPacketSize, maxPacketTagSize, maxAppendDataSize, maxAoiObjCount]
      at hbody ⊢
    simp only [List.length_singleton]
    omega
  have hrow : s.frame adler32 host = serverLayout _ _ _ _ _ _ := rfl
  obtain ⟨hframe, rcv, hvalid, hcarries⟩ :=
    carries_serverLayout adler32 host s.ownerInfo h.1 hmax hrow
  have hfield : dataSizeField (s.frame adler32 host) = s.msg.payload.length + 10 := by
    rw [dataSizeField, Sent.frame, slice_data (encodeBE_length _ _) (encodeBE_length _ _),
      decodeBE_encodeBE_of_lt]
    unfold maxPacketSize at hmax
    omega
  obtain ⟨-, -, hrcv⟩ := (PacketS.isValid_true_iff adler32 hframe.2.1).mp hvalid
  have hsame : rcv = s.received adler32 host := by
    rw [hrcv, Sent.received, ← hfield]
    rfl
  rw [← hsame]
  exact ⟨hframe, hvalid, hcarries⟩

/-- The bytes of one packet: a frame, from which the receiver makes the packet again. -/
theorem Sent.Sendable.send_eq {s : Sent} (h : s.Sendable) :
    ∃ frame pkt, s.send build adler32 heap host = .ok (some frame) ∧ IsFrame frame ∧
      (Packet.ofFrame heap' false frame).accepted adler32 overread = some pkt ∧
      s.Delivers host pkt := by
  obtain ⟨frame, hsend, hframe, rcv, hvalid, hcarries⟩ :=
    sendPacketByChannel_carries build adler32 heap host s.destInfo s.ownerInfo h.1 h.2
  exact ⟨frame, .s rcv, hsend, hframe, Packet.accepted_server heap' overread hvalid, rcv, rfl,
    hcarries⟩

/-- The bytes of several packets: one frame for each, and the packets made from them. -/
theorem send_all {sent : List Sent} (h : ∀ s ∈ sent, s.Sendable) :
    ∃ frames : List (List UInt8),
      sent.mapM (Sent.send build adler32 heap host) = .ok (frames.map some) ∧
      (∀ frame ∈ frames, IsFrame frame) ∧
      List.Forall₂ (Sent.Delivers host) sent
        ((frames.map (Packet.ofFrame heap' false)).filterMap
          (Packet.accepted adler32 overread)) := by
  induction sent with
  | nil => exact ⟨[], rfl, fun _ hframe => (nomatch hframe), .nil⟩
  | cons s sent ih =>
    obtain ⟨hs, hsent⟩ := List.forall_mem_cons.mp h
    obtain ⟨frame, pkt, hsend, hframe, haccepted, hdelivers⟩ :=
      hs.send_eq build adler32 heap heap' host overread
    obtain ⟨frames, hsends, hframes, hall⟩ := ih hsent
    refine ⟨frame :: frames, ?_, List.forall_mem_cons.mpr ⟨hframe, hframes⟩, ?_⟩
    · rw [List.mapM_cons, hsend, ok_bind, hsends]
      rfl
    · rw [List.map_cons, List.filterMap_cons_some haccepted]
      exact .cons hdelivers hall

end Link

/-- Two servers, on a link that loses and reorders no bytes. All packets are sent, and
    when any first part of their bytes has arrived, cut into chunks and interleaved with
    what other channels receive, the packets handed on with the link are the first ones
    that were sent, in order and each with what was put into it. When all bytes have
    arrived, so have all packets, and nothing stays unread. -/
theorem delivered_in_order {κ : Type} [DecidableEq κ] (build build' : Build)
    (adler32 : List UInt8 → UInt32) (heap heap' : ℕ → UInt8) (host : Endian)
    (overread : Packet → Packet × Bool) (peerType : PeerType) (side : κ → Side) {c : κ}
    (hserver : fromClient peerType side c = false) {sent : List Sent}
    (hsent : ∀ s ∈ sent, s.Sendable) :
    ∃ frames : List (List UInt8),
      sent.mapM (Sent.send build adler32 heap host) = .ok (frames.map some) ∧
      ∀ (arrivals : List (κ × List UInt8)) (onTheWay : List UInt8) (st : Channels κ),
        streamOf c arrivals ++ onTheWay = frames.flatten →
        arrivals.foldlM (arrive build' adler32 heap' overread peerType side) (Channels.empty κ) =
          .ok st →
        ∃ delivered pending, sent = delivered ++ pending ∧
          List.Forall₂ (Sent.Delivers host) delivered (handedTo c st.log) ∧
          (onTheWay = [] → pending = [] ∧ st.evbuf c = []) := by
  obtain ⟨frames, hsends, hframes, hall⟩ := send_all build adler32 heap heap' host overread hsent
  refine ⟨frames, hsends, fun arrivals onTheWay st hstream hrun => ?_⟩
  have hover := handedOver_of_run build' adler32 heap' overread peerType side hrun
  obtain ⟨hcut, hrest⟩ := packetSplitter.frames_flatten_append
    (fun frame hframe => packetSplitter_isFrame.mpr (hframes frame hframe)) []
  have hnone : packetSplitter.next [] = none := rfl
  rw [packetSplitter.frames_of_none hnone, List.append_nil, List.append_nil] at hcut
  rw [packetSplitter.rest_of_none hnone, List.append_nil] at hrest
  -- The frames that have arrived are the first ones of those that were sent.
  have hsplit : (frames.map (Packet.ofFrame heap' false)).filterMap
      (Packet.accepted adler32 overread) = handedTo c st.log ++
        acceptedPackets adler32 heap' overread false
          (packetSplitter.rest (streamOf c arrivals) ++ onTheWay) := by
    rw [hover.handed c, hserver, ← acceptedPackets_append, hstream, acceptedPackets, hcut]
  rw [hsplit] at hall
  refine ⟨sent.take (handedTo c st.log).length, sent.drop (handedTo c st.log).length,
    (List.take_append_drop _ _).symm, List.forall₂_take_append _ _ _ hall, ?_⟩
  rintro rfl
  rw [List.append_nil] at hstream
  have hpending := List.forall₂_drop_append _ _ _ hall
  rw [hover.evbuf c, hstream, hrest]
  rw [hstream, hrest, acceptedPackets, List.append_nil,
    packetSplitter.frames_of_none hnone] at hpending
  exact ⟨List.forall₂_nil_right_iff.mp hpending, rfl⟩

end TerraX
