import TerraX.CenterServer.CenterServer
import TerraX.Cluster.Arrivals

/-!
# Every packet is dispatched exactly once

The servers of a cluster are registered and stay so. However their sends interleave, and however
the bytes on the links are cut into chunks, the cluster does what a star of FIFO links does, with
the center as its hub: packets are on one place of their way at each time, and in order.

The order in which the center takes the packets of all senders is not that in which they were
sent. Everything that was dispatched, at the center and at the servers, is told by it.

## Main definitions

- `Cluster.ExactlyOnce` — what was dispatched where, given the order at the center
- `Cluster.Carried` — the streams of a cluster and the links of a star

## Main results

- `Cluster.exactly_once` — what holds at the end of every run
-/

namespace TerraX

open Bytes Memory Framing Fifo

namespace Cluster

/-- `received` are the packets with the address of the server on channel `j`, of those that the
    center has taken and of those that it has sent on this channel, as far as they have
    arrived. -/
structure Received (cluster : Cluster) (order : List (UInt16 × Sent)) (j : UInt16) (addr : Word)
    (received : List (Option UInt16 × Sent)) : Prop where
  fromOthers : fromOthers received <+: order.filter fun m => m.2.destInfo = addr
  fromHub : fromHub received <+: (sentTo j cluster.centerSent).filter fun s => s.destInfo = addr
  all : cluster.downlink j = [] →
    Fifo.fromOthers received = (order.filter fun m => m.2.destInfo = addr) ∧
    Fifo.fromHub received = (sentTo j cluster.centerSent).filter fun s => s.destInfo = addr

/-- What was dispatched in a cluster, when the center has taken packets in the given order: those
    of each sender in the order in which they were sent, and all of them when nothing is on the
    way. The center has dispatched those for a center, one by one and each with the channel of
    its sender. A server has dispatched those with its own address on its back end, one by
    one. What it has dispatched elsewhere was sent to a guest of it. -/
structure ExactlyOnce (cluster : Cluster) (order : List (UInt16 × Sent)) : Prop where
  taken : ∀ i, sentTo i order <+: sentTo i cluster.sent
  takenAll : ∀ i, cluster.uplink i = [] → sentTo i order = sentTo i cluster.sent
  center : List.Forall₂ CenterDispatched
    (order.filter fun m => PeerInfo.getPeerType m.2.destInfo = .centerserver) cluster.centerLog
  own : ∀ j node, cluster.nodes j = some node → ∃ received,
    Received cluster order j (regInfo node.peerType j) received ∧
    List.Forall₂ (fun m entry => entry.2.Carries m.2) received
      (node.log.filter fun entry => entry.1 = .backEnd)
  guests : ∀ j node, cluster.nodes j = some node → ∀ entry ∈ node.log, entry.1 ≠ .backEnd →
    ∃ k s, node.peerType = .gateserver ∧ entry.1 = .frontEnd k ∧ s.destInfo = guestInfo j k ∧
      entry.2.Carries s ∧ ((∃ i, (i, s) ∈ order) ∨ s ∈ sentTo j cluster.centerSent)

/-- What a server has dispatched is what a star has handed to it. -/
structure Served (handled : List (Option UInt16 × Sent)) (j : UInt16) (node : Node) : Prop where
  registeredAt : node.RegisteredAt j
  parts : ∃ parts, node.log = parts.flatten ∧
    List.Forall₂ (NodeDispatched node.peerType j) handled parts

/-- The streams of a cluster hold the packets on the links of a star, and the logs those that the
    star has dealt with. A packet that waits for the server on channel `k` meets `fits k`. -/
structure Carried (env : Env) (net : NetServer) (fits : UInt16 → Sent → Prop)
    (types : UInt16 → Option PeerType) (cluster : Cluster) (star : Star UInt16 Sent) : Prop where
  ordered : star.Ordered Sent.hop
  sent : cluster.sent = star.sent
  centerSent : cluster.centerSent = star.own
  pending : ∀ i, ∀ s ∈ star.pending i, s.Sendable ∧ ∀ k, s.hop = some k → fits k s
  waiting : ∀ k, ∀ m ∈ star.waiting k, m.2.Sendable ∧ fits k m.2
  centerQueue : cluster.centerQueue = []
  nodeQueue : ∀ j, cluster.nodeQueue j = []
  uplink : ∀ i, cluster.centerBuf i ++ cluster.uplink i =
    Sent.wire env.adler32 env.host (star.pending i)
  centerBuf : ∀ i, packetSplitter.next (cluster.centerBuf i) = none
  downlink : ∀ k, net.connected k = true → cluster.nodeBuf k ++ cluster.downlink k =
    Sent.wire env.adler32 env.host ((star.waiting k).map Prod.snd)
  nodeBuf : ∀ k, packetSplitter.next (cluster.nodeBuf k) = none
  centerLog : List.Forall₂ CenterDispatched (star.taken.filter fun m => m.2.hop = none)
    cluster.centerLog
  nodes : ∀ j node, cluster.nodes j = some node → Served (star.handled j) j node
  types : ∀ j, (cluster.nodes j).map Node.peerType = types j

section Steps

variable {env : Env} {overread : Packet → Packet × Bool} {net : NetServer} {handlers : Handlers}
  {fits : UInt16 → Sent → Prop} {types : UInt16 → Option PeerType} {cluster : Cluster}
  {star : Star UInt16 Sent}

theorem carried_start {nodes : UInt16 → Option Node}
    (hnodes : ∀ j node, nodes j = some node → node.RegisteredAt j ∧ node.log = []) :
    Carried env net fits (fun j => (nodes j).map Node.peerType) (start nodes) .empty where
  ordered := Star.ordered_empty
  sent := rfl
  centerSent := rfl
  pending _ _ h := nomatch h
  waiting _ _ h := nomatch h
  centerQueue := rfl
  nodeQueue _ := rfl
  uplink _ := rfl
  centerBuf _ := packetSplitter.next_nil
  downlink _ _ := rfl
  nodeBuf _ := packetSplitter.next_nil
  centerLog := .nil
  nodes j node h := ⟨(hnodes j node h).1, [], (hnodes j node h).2, .nil⟩
  types _ := rfl

theorem Carried.send (h : Carried env net fits types cluster star) (i : UInt16) {s : Sent}
    (hs : s.Sendable) (hfits : ∀ k, s.hop = some k → fits k s) :
    ∃ cluster', cluster.send env i s = .ok cluster' ∧
      Carried env net fits types cluster' (star.send i s) := by
  rw [Cluster.send, hs.send_frame, ok_bind]
  refine ⟨_, rfl, { h with
    ordered := h.ordered.send i s, sent := ?_, pending := ?_, uplink := ?_ }⟩
  · exact congrArg (· ++ [(i, s)]) h.sent
  · refine (Function.forall_update_iff _ fun _ (ss : List Sent) => ∀ s ∈ ss, s.Sendable ∧
      ∀ k, s.hop = some k → fits k s).mpr ⟨?_, fun k _ => h.pending k⟩
    exact List.forall_mem_append.mpr ⟨h.pending i, List.forall_mem_singleton.mpr ⟨hs, hfits⟩⟩
  · have hnew : cluster.centerBuf i ++ (cluster.uplink i ++ s.frame env.adler32 env.host) =
        Sent.wire env.adler32 env.host (star.pending i ++ [s]) := by
      rw [← List.append_assoc, h.uplink, Sent.wire_append, Sent.wire_singleton]
    exact forall_update₂ (P := fun k up ss => cluster.centerBuf k ++ up =
      Sent.wire env.adler32 env.host ss) hnew h.uplink

theorem Carried.centerSend (h : Carried env net fits types cluster star) (k : UInt16) {s : Sent}
    (hs : s.Sendable) (hfits : fits k s) :
    ∃ cluster', cluster.centerSend env k s = .ok cluster' ∧
      Carried env net fits types cluster' (star.sendOwn k s) := by
  rw [Cluster.centerSend, hs.send_frame, ok_bind]
  refine ⟨_, rfl, { h with
    ordered := h.ordered.sendOwn k s, centerSent := ?_, waiting := ?_, downlink := ?_ }⟩
  · exact congrArg (· ++ [(k, s)]) h.centerSent
  · refine (Function.forall_update_iff _ fun k (ms : List (Option UInt16 × Sent)) =>
      ∀ m ∈ ms, m.2.Sendable ∧ fits k m.2).mpr ⟨?_, fun k' _ => h.waiting k'⟩
    exact List.forall_mem_append.mpr ⟨h.waiting k, List.forall_mem_singleton.mpr ⟨hs, hfits⟩⟩
  · have hnew : net.connected k = true →
        cluster.nodeBuf k ++ (cluster.downlink k ++ s.frame env.adler32 env.host) =
          Sent.wire env.adler32 env.host ((star.waiting k ++ [(none, s)]).map Prod.snd) := by
      intro hconn
      rw [← List.append_assoc, h.downlink k hconn, List.map_append, Sent.wire_append]
      exact congrArg _ (Sent.wire_singleton ..).symm
    exact forall_update₂ (P := fun k down (ms : List (Option UInt16 × Sent)) =>
      net.connected k = true → cluster.nodeBuf k ++ down =
        Sent.wire env.adler32 env.host (ms.map Prod.snd)) hnew h.downlink

/-- An arrival at the center: the packets that are complete are taken, and each is dispatched or put
    on one link. -/
theorem Carried.centerArrive_handled (overread : Packet → Packet × Bool)
    (h : Carried env net fits types cluster star)
    (hnet : ∀ i front, net.getChannel i = some front → front.getChannelIndex = i) (i : UInt16)
    (n : ℕ) :
    ∃ cluster' star', cluster.centerArrive env overread net i n = .ok cluster' ∧
      star'.handled = star.handled ∧ cluster'.nodes = cluster.nodes ∧
      Carried env net fits types cluster' star' := by
  rw [Cluster.centerArrive]
  cases hfront : net.getChannel i with
  | none => exact ⟨cluster, star, rfl, rfl, rfl, h⟩
  | some front =>
    have hindex : front.peerInfo.toUInt16 = i :=
      (PeerInfo.getChannelIndex_eq _).symm.trans (hnet i front hfront)
    have hstream : (cluster.centerBuf i ++ (cluster.uplink i).take n) ++ (cluster.uplink i).drop n =
        Sent.wire env.adler32 env.host (star.pending i) := by
      rw [List.append_assoc, List.take_append_drop, h.uplink]
    have hsendable : ∀ s ∈ star.pending i, s.Sendable := fun s hs => (h.pending i s hs).1
    -- the first `m` of the pending packets are complete in the buffer; the star relays the same
    obtain ⟨m, rest, hrest, hnone, hprocess⟩ :=
      processMessage_wire env.adler32 env.heap env.host overread env.build
        (centerFn env.build env.host net i front) hsendable hstream
        (cluster.downlink, cluster.centerLog)
    have hbatch : ∀ s ∈ (star.pending i).take m, s.Sendable := fun s hs =>
      hsendable s (List.mem_of_mem_take hs)
    obtain ⟨out, hout, hlinks, part, hlog, hpart⟩ := center_batch env.build env.host env.adler32 net
      hindex hbatch (cluster.downlink, cluster.centerLog)
    have hfrontEnd : onMessageFrontEnd env.build env.adler32 env.heap overread .centerserver
        (centerFn env.build env.host net i front)
        (cluster.centerBuf i ++ (cluster.uplink i).take n) cluster.centerQueue
        (cluster.downlink, cluster.centerLog) = .ok (rest, [], out) := by
      rw [h.centerQueue]
      exact hprocess.trans (by rw [hout]; rfl)
    simp only [hfrontEnd, ok_bind]
    refine ⟨_, star.relay Sent.hop i m, rfl, rfl, rfl, { h with
      ordered := h.ordered.relay i m, pending := ?_, waiting := ?_, centerQueue := ?_,
      uplink := ?_, centerBuf := ?_, downlink := ?_, centerLog := ?_ }⟩
    · exact (Function.forall_update_iff _ fun _ (ss : List Sent) => ∀ s ∈ ss, s.Sendable ∧
        ∀ k, s.hop = some k → fits k s).mpr
        ⟨fun s hs => h.pending i s (List.mem_of_mem_drop hs), fun k _ => h.pending k⟩
    · intro k
      refine List.forall_mem_append.mpr ⟨h.waiting k, fun m' hm' => ?_⟩
      obtain ⟨⟨i', s⟩, hs, rfl⟩ := List.mem_map.mp hm'
      obtain ⟨hs, hhop⟩ := List.mem_filter.mp hs
      obtain ⟨s', hs', heq⟩ := List.mem_map.mp hs
      cases heq
      obtain ⟨hsend, hfits⟩ := h.pending i s (List.mem_of_mem_take hs')
      exact ⟨hsend, hfits k (of_decide_eq_true hhop)⟩
    · rfl
    · exact forall_update₃ (P := fun _ buf up ss => buf ++ up = Sent.wire env.adler32 env.host ss)
        hrest h.uplink
    · exact (Function.forall_update_iff _ fun _ buf => packetSplitter.next buf = none).mpr
        ⟨hnone, fun k _ => h.centerBuf k⟩
    · intro k hconn
      show cluster.nodeBuf k ++ out.1 k = Sent.wire env.adler32 env.host ((star.waiting k ++
        tagged (forwardedTo Sent.hop k (((star.pending i).take m).map fun s => (i, s)))).map Prod.snd)
      rw [hlinks k hconn, ← List.append_assoc, h.downlink k hconn, List.map_append,
        Sent.wire_append, snd_tagged]
    · show List.Forall₂ CenterDispatched ((star.taken ++
        ((star.pending i).take m).map fun s => (i, s)).filter fun m => m.2.hop = none) out.2
      rw [hlog, List.filter_append]
      exact List.rel_append h.centerLog hpart

theorem Carried.centerArrive (overread : Packet → Packet × Bool)
    (h : Carried env net fits types cluster star)
    (hnet : ∀ i front, net.getChannel i = some front → front.getChannelIndex = i) (i : UInt16)
    (n : ℕ) :
    ∃ cluster' star', cluster.centerArrive env overread net i n = .ok cluster' ∧
      Carried env net fits types cluster' star' := by
  obtain ⟨cluster', star', hstep, -, -, hnext⟩ := h.centerArrive_handled overread hnet i n
  exact ⟨cluster', star', hstep, hnext⟩

/-- An arrival at a server: the packets that are complete are handled. What they do to the server is
    left open. -/
theorem Carried.nodeArrive_eq (overread : Packet → Packet × Bool) (handlers : Handlers)
    (h : Carried env net fits types cluster star)
    (htypes : ∀ k, (types k).isSome → net.connected k = true) {j : UInt16} {node : Node}
    (hnode : cluster.nodes j = some node) (n : ℕ) :
    ∃ m rest, cluster.nodeArrive env overread handlers j n =
      ((((star.waiting j).take m).map fun m => packetOf env.adler32 env.host m.2).foldlM
        (Node.forwardPacketOnBackEnd env.build env.host handlers) node >>= fun node' =>
          .ok { cluster with
            nodes := Function.update cluster.nodes j (some node')
            downlink := Function.update cluster.downlink j ((cluster.downlink j).drop n)
            nodeBuf := Function.update cluster.nodeBuf j rest
            nodeQueue := Function.update cluster.nodeQueue j [] }) ∧
      ∀ node' parts,
        List.Forall₂ (NodeDispatched node.peerType j) ((star.waiting j).take m) parts →
        Turned node j parts.flatten node' →
        Carried env net fits types { cluster with
          nodes := Function.update cluster.nodes j (some node')
          downlink := Function.update cluster.downlink j ((cluster.downlink j).drop n)
          nodeBuf := Function.update cluster.nodeBuf j rest
          nodeQueue := Function.update cluster.nodeQueue j [] } (star.handle j m) := by
  have htype : types j = some node.peerType := by
    rw [← h.types j, hnode]
    rfl
  have hconn := htypes j (by rw [htype]; rfl)
  have hstream : (cluster.nodeBuf j ++ (cluster.downlink j).take n) ++ (cluster.downlink j).drop n =
      Sent.wire env.adler32 env.host ((star.waiting j).map Prod.snd) := by
    rw [List.append_assoc, List.take_append_drop, h.downlink j hconn]
  have hsendable : ∀ s ∈ (star.waiting j).map Prod.snd, s.Sendable := by
    intro s hs
    obtain ⟨m, hm, rfl⟩ := List.mem_map.mp hs
    exact (h.waiting j m hm).1
  -- the first `m` of the waiting packets are complete in the buffer, and `rest` is left of it
  obtain ⟨m, rest, hrest, hnone, hprocess⟩ :=
    processMessage_wire env.adler32 env.heap env.host overread env.build
      (Node.forwardPacketOnBackEnd env.build env.host handlers) hsendable hstream node
  have hserved := h.nodes j node hnode
  have hbackEnd : onMessageBackEnd env.build env.adler32 env.heap overread
      (Node.forwardPacketOnBackEnd env.build env.host handlers)
      (cluster.nodeBuf j ++ (cluster.downlink j).take n) (cluster.nodeQueue j) node =
      ((((star.waiting j).take m).map fun m => packetOf env.adler32 env.host m.2).foldlM
        (Node.forwardPacketOnBackEnd env.build env.host handlers) node >>= fun node =>
          .ok (rest, [], node)) := by
    rw [h.nodeQueue, onMessageBackEnd, hprocess, ← List.map_take, List.map_map]
    rfl
  refine ⟨m, rest, ?_, fun node' parts hparts hturned => { h with
    ordered := h.ordered.handle j m, waiting := ?_, nodeQueue := ?_, downlink := ?_,
    nodeBuf := ?_, nodes := ?_, types := ?_ }⟩
  · rw [Cluster.nodeArrive, hnode]
    dsimp only
    rw [hbackEnd, bind_assoc]
    rfl
  · exact (Function.forall_update_iff _ fun k (ms : List (Option UInt16 × Sent)) =>
      ∀ m ∈ ms, m.2.Sendable ∧ fits k m.2).mpr
      ⟨fun m' hm' => h.waiting j m' (List.mem_of_mem_drop hm'), fun k _ => h.waiting k⟩
  · exact (Function.forall_update_iff _ fun _ queue => queue = []).mpr
      ⟨rfl, fun k _ => h.nodeQueue k⟩
  · rw [← List.map_drop] at hrest
    exact forall_update₃ (P := fun k buf down (ms : List (Option UInt16 × Sent)) =>
      net.connected k = true → buf ++ down = Sent.wire env.adler32 env.host (ms.map Prod.snd))
      (fun _ => hrest) h.downlink
  · exact (Function.forall_update_iff _ fun _ buf => packetSplitter.next buf = none).mpr
      ⟨hnone, fun k _ => h.nodeBuf k⟩
  · intro k nodek hnodek
    show Served (Function.update star.handled j (star.handled j ++ (star.waiting j).take m) k) k nodek
    by_cases hk : k = j
    · subst hk
      cases (Function.update_self k (some node') cluster.nodes).symm.trans hnodek
      rw [Function.update_self]
      obtain ⟨parts', hlog, hparts'⟩ := hserved.parts
      refine ⟨hturned.registeredAt, parts' ++ parts, ?_, ?_⟩
      · rw [hturned.log, hlog, List.flatten_append]
      · rw [hturned.peerType]
        exact List.rel_append hparts' hparts
    · rw [Function.update_of_ne hk]
      exact h.nodes k nodek ((Function.update_of_ne hk ..).symm.trans hnodek)
  · intro k
    show (Function.update cluster.nodes j (some node') k).map Node.peerType = types k
    by_cases hk : k = j
    · subst hk
      rw [Function.update_self, htype, Option.map_some, hturned.peerType]
    · rw [Function.update_of_ne hk, h.types]

theorem Carried.nodeArrive (h : Carried env net fits types cluster star)
    {allowed : List UInt8 → Prop} (hkeep : handlers.Keep allowed)
    (hallowed : ∀ k s, fits k s → allowed s.msg.name)
    (htypes : ∀ k, (types k).isSome → net.connected k = true) (j : UInt16) (n : ℕ) :
    Outcome.Ends (fun cluster' => ∃ star', Carried env net fits types cluster' star')
      (fun _ => ¬ ∀ k t s, types k = some t → fits k s → Takes env.build handlers allowed t k s)
      (cluster.nodeArrive env overread handlers j n) := by
  cases hnode : cluster.nodes j with
  | none =>
    rw [Cluster.nodeArrive, hnode]
    exact ⟨star, h⟩
  | some node =>
    have htype : types j = some node.peerType := by
      rw [← h.types j, hnode]
      rfl
    obtain ⟨m, rest, harrive, hcarried⟩ := h.nodeArrive_eq overread handlers htypes hnode n
    have hmem : ∀ m' ∈ (star.waiting j).take m, m'.2.Sendable ∧ fits j m'.2 := fun m' hm' =>
      h.waiting j m' (List.mem_of_mem_take hm')
    have hbatch := node_batch env.build env.host env.adler32 hkeep (h.nodes j node hnode).registeredAt
      fun m' hm' => ⟨(hmem m' hm').1, hallowed j _ (hmem m' hm').2⟩
    rw [harrive]
    -- the loop over the queue can fail only on a packet that the node does not take
    refine (hbatch.mono (fun _ h => h) fun _ hfail hall => hfail fun m' hm' =>
      hall j _ _ htype (hmem m' hm').2).bind ?_
    rintro node' ⟨parts, hparts, hturned⟩
    exact ⟨star.handle j m, hcarried node' parts hparts hturned⟩

end Steps

/-! ### What the logs tell -/

theorem hop_eq_none {s : Sent} :
    s.hop = none ↔ PeerInfo.getPeerType s.destInfo = .centerserver := by
  rw [Sent.hop, Center.hopOf, PeerInfo.parse_eq]
  dsimp only
  split
  · next h => exact ⟨fun _ => h.symm, fun _ => rfl⟩
  · next h =>
    constructor
    · intro heq
      cases heq
    · intro heq
      exact absurd heq.symm h

/-- The address of a server leads to the channel that it is registered on. -/
theorem hop_regInfo {s : Sent} {node : Node} {j : UInt16}
    (h : s.destInfo = regInfo node.peerType j) : s.hop = some j := by
  have hne : PeerType.centerserver ≠ node.peerType := by
    cases node <;> exact nofun
  rw [Sent.hop, h, regInfo, Center.hopOf, PeerInfo.parse_serialize, if_neg hne, Center.nextHop,
    if_pos rfl]

section Logs

variable {peerType : PeerType} {j : UInt16} {handled : List (Option UInt16 × Sent)}
  {parts : List (List (ChannelPtr × Dispatch))}

/-- The dispatches on the back end are those of the packets with the address of the server. -/
theorem backEnd_parts (h : List.Forall₂ (NodeDispatched peerType j) handled parts) :
    List.Forall₂ (fun m entry => entry.2.Carries m.2)
      (handled.filter fun m => m.2.destInfo = regInfo peerType j)
      (parts.flatten.filter fun entry => entry.1 = .backEnd) := by
  induction h with
  | nil => exact .nil
  | @cons m part ms parts hpart _ ih =>
    rw [List.filter_cons, List.flatten_cons, List.filter_append]
    unfold NodeDispatched at hpart
    by_cases hown : m.2.destInfo = regInfo peerType j
    · rw [if_pos hown] at hpart
      obtain ⟨packet, rfl, hcarries⟩ := hpart
      rw [if_pos (decide_eq_true hown)]
      exact .cons hcarries ih
    · rw [if_neg hown] at hpart
      have hnil : part.filter (fun entry => entry.1 = .backEnd) = [] := by
        refine List.filter_eq_nil_iff.mpr fun entry hentry => ?_
        obtain ⟨k, hk, -⟩ := hpart entry hentry
        simp [hk]
      rw [if_neg (by simpa using hown), hnil]
      exact ih

/-- The other dispatches are those of packets for guests of the server. -/
theorem frontEnd_parts (h : List.Forall₂ (NodeDispatched peerType j) handled parts) :
    ∀ entry ∈ parts.flatten, entry.1 ≠ .backEnd → ∃ m ∈ handled, ∃ k, peerType = .gateserver ∧
      entry.1 = .frontEnd k ∧ m.2.destInfo = guestInfo j k ∧ entry.2.Carries m.2 := by
  induction h with
  | nil => exact fun _ hentry => nomatch hentry
  | @cons m part ms parts hpart _ ih =>
    intro entry hentry hne
    rw [List.flatten_cons] at hentry
    rcases List.mem_append.mp hentry with hentry | hentry
    · unfold NodeDispatched at hpart
      split at hpart
      · obtain ⟨packet, rfl, -⟩ := hpart
        rw [List.mem_singleton.mp hentry] at hne
        exact absurd rfl hne
      · obtain ⟨k, hk, htype, hdest, hcarries⟩ := hpart entry hentry
        exact ⟨m, List.mem_cons_self, k, htype, hk, hdest, hcarries⟩
    · obtain ⟨m', hm', hguest⟩ := ih entry hentry hne
      exact ⟨m', List.mem_cons_of_mem _ hm', hguest⟩

end Logs

section Results

variable {env : Env} {net : NetServer} {fits : UInt16 → Sent → Prop}
  {types : UInt16 → Option PeerType} {cluster : Cluster} {star : Star UInt16 Sent}

/-- A link is empty if nothing is on the way. -/
theorem eq_nil_of_wire {ss : List Sent} (hss : ∀ s ∈ ss, s.Sendable) {buf : List UInt8}
    (hbuf : packetSplitter.next buf = none) (h : buf = Sent.wire env.adler32 env.host ss) :
    ss = [] := by
  rw [h] at hbuf
  exact List.map_eq_nil_iff.mp
    (packetSplitter.eq_nil_of_flatten (isFrame_of_mem env.adler32 env.host hss) hbuf)

/-- No packet waits for a server if nothing is on the way to it. -/
theorem Carried.waiting_eq_nil (h : Carried env net fits types cluster star)
    (htypes : ∀ k, (types k).isSome → net.connected k = true) {j : UInt16} {node : Node}
    (hnode : cluster.nodes j = some node) (hempty : cluster.downlink j = []) :
    star.waiting j = [] := by
  have hconn : net.connected j = true := htypes j (by rw [← h.types j, hnode]; rfl)
  have hdown := h.downlink j hconn
  rw [hempty, List.append_nil] at hdown
  refine List.map_eq_nil_iff.mp (eq_nil_of_wire (fun s hs => ?_) (h.nodeBuf j) hdown)
  obtain ⟨m, hm, rfl⟩ := List.mem_map.mp hs
  exact (h.waiting j m hm).1

/-- What a server has handled of the packets with an address that leads to it. -/
theorem Carried.received_of_hop (h : Carried env net fits types cluster star)
    (htypes : ∀ k, (types k).isSome → net.connected k = true) {j : UInt16} {node : Node}
    (hnode : cluster.nodes j = some node) {addr : Word}
    (hhop : ∀ s : Sent, s.destInfo = addr → s.hop = some j) :
    Received cluster star.taken j addr ((star.handled j).filter fun m => m.2.destInfo = addr) := by
  have hothers : (star.taken.filter fun m => m.2.destInfo = addr) =
      (Fifo.fromOthers (star.handled j ++ star.waiting j)).filter fun m => m.2.destInfo = addr := by
    rw [← h.ordered.forwarded j, forwardedTo, List.filter_filter]
    refine List.filter_congr fun m _ => ?_
    by_cases hm : m.2.destInfo = addr
    · rw [hhop _ hm]
      simp
    · simp [hm]
  have hhub : sentTo j cluster.centerSent = Fifo.fromHub (star.handled j ++ star.waiting j) := by
    rw [h.centerSent, h.ordered.own j]
  have hsplit := fromOthers_filter (fun s : Sent => decide (s.destInfo = addr)) (star.handled j)
  have hsplit' := fromHub_filter (fun s : Sent => decide (s.destInfo = addr)) (star.handled j)
  refine ⟨?_, ?_, fun hempty => ?_⟩
  · rw [hothers, fromOthers_append, List.filter_append, hsplit]
    exact List.prefix_append _ _
  · rw [hhub, fromHub_append, List.filter_append, hsplit']
    exact List.prefix_append _ _
  · rw [hothers, hhub, h.waiting_eq_nil htypes hnode hempty, List.append_nil]
    exact ⟨hsplit, hsplit'⟩

theorem Carried.received (h : Carried env net fits types cluster star)
    (htypes : ∀ k, (types k).isSome → net.connected k = true) {j : UInt16} {node : Node}
    (hnode : cluster.nodes j = some node) :
    Received cluster star.taken j (regInfo node.peerType j)
      ((star.handled j).filter fun m => m.2.destInfo = regInfo node.peerType j) :=
  h.received_of_hop htypes hnode fun _ => hop_regInfo

/-- What was carried was dispatched exactly once. -/
theorem Carried.exactlyOnce (h : Carried env net fits types cluster star)
    (htypes : ∀ k, (types k).isSome → net.connected k = true) :
    ExactlyOnce cluster star.taken where
  taken i := by
    rw [h.sent, h.ordered.sent i]
    exact List.prefix_append _ _
  takenAll i hempty := by
    have hup := h.uplink i
    rw [hempty, List.append_nil] at hup
    rw [h.sent, h.ordered.sent i,
      eq_nil_of_wire (fun s hs => (h.pending i s hs).1) (h.centerBuf i) hup, List.append_nil]
  center := by
    have hsame : (star.taken.filter fun m => PeerInfo.getPeerType m.2.destInfo = .centerserver) =
        star.taken.filter fun m => m.2.hop = none :=
      List.filter_congr fun m _ => decide_eq_decide.mpr hop_eq_none.symm
    rw [hsame]
    exact h.centerLog
  own j node hnode := by
    obtain ⟨parts, hlog, hparts⟩ := (h.nodes j node hnode).parts
    refine ⟨_, h.received htypes hnode, ?_⟩
    rw [hlog]
    exact backEnd_parts hparts
  guests j node hnode entry hentry hne := by
    obtain ⟨parts, hlog, hparts⟩ := (h.nodes j node hnode).parts
    rw [hlog] at hentry
    obtain ⟨⟨sender, s⟩, hm, k, htype, hk, hdest, hcarries⟩ := frontEnd_parts hparts entry hentry hne
    refine ⟨k, s, htype, hk, hdest, hcarries, ?_⟩
    -- without a sender it is a packet of the center itself
    cases sender with
    | none =>
      right
      rw [h.centerSent, h.ordered.own j]
      exact mem_fromHub.mpr (List.mem_append_left _ hm)
    | some i =>
      left
      have hmem : (i, s) ∈ forwardedTo Sent.hop j star.taken := by
        rw [h.ordered.forwarded j]
        exact mem_fromOthers.mpr (List.mem_append_left _ hm)
      exact ⟨i, (List.mem_filter.mp hmem).1⟩

end Results

/-! ### Runs -/

/-- The packet that is sent meets `fits k`, if it is to wait for the server on channel `k`. -/
def Fits (fits : UInt16 → Sent → Prop) : ClusterEvent → Prop
  | .send _ s => ∀ k, s.hop = some k → fits k s
  | .centerSend k s => fits k s
  | .centerArrive _ _ => True
  | .nodeArrive _ _ => True

section Runs

variable {env : Env} {overread : Packet → Packet × Bool} {net : NetServer} {handlers : Handlers}
  {fits : UInt16 → Sent → Prop} {types : UInt16 → Option PeerType} {cluster cluster' : Cluster}
  {star : Star UInt16 Sent} {allowed : List UInt8 → Prop}

/-- An arrival at the center takes its bytes off the link. -/
theorem uplink_centerArrive {i : UInt16} {n : ℕ} (hi : (net.getChannel i).isSome)
    (h : step env overread net handlers cluster (.centerArrive i n) = .ok cluster') :
    cluster'.uplink i = (cluster.uplink i).drop n := by
  obtain ⟨front, hfront⟩ := Option.isSome_iff_exists.mp hi
  rw [step, centerArrive, hfront] at h
  obtain ⟨⟨evbuf, queue, out⟩, -, heq⟩ := bind_eq_ok.mp h
  cases heq
  exact Function.update_self ..

/-- And so does one at a server. -/
theorem downlink_nodeArrive {j : UInt16} {n : ℕ} (hj : (cluster.nodes j).isSome)
    (h : step env overread net handlers cluster (.nodeArrive j n) = .ok cluster') :
    cluster'.downlink j = (cluster.downlink j).drop n := by
  obtain ⟨node, hnode⟩ := Option.isSome_iff_exists.mp hj
  rw [step, nodeArrive, hnode] at h
  obtain ⟨⟨evbuf, queue, node'⟩, -, heq⟩ := bind_eq_ok.mp h
  cases heq
  exact Function.update_self ..

/-- What one event keeps, if no server fails. -/
theorem Carried.step (h : Carried env net fits types cluster star) (hkeep : handlers.Keep allowed)
    (hallowed : ∀ k s, fits k s → allowed s.msg.name)
    (htypes : ∀ k, (types k).isSome → net.connected k = true)
    (hnet : ∀ i front, net.getChannel i = some front → front.getChannelIndex = i) {e : ClusterEvent}
    (henabled : Enabled net cluster e) (hfits : Fits fits e) :
    Outcome.Ends (fun cluster' => ∃ star', Carried env net fits types cluster' star')
      (fun _ => ¬ ∀ k t s, types k = some t → fits k s → Takes env.build handlers allowed t k s)
      (step env overread net handlers cluster e) := by
  cases e with
  | send i s =>
    obtain ⟨cluster', hstep, hnext⟩ := h.send i henabled.2 hfits
    rw [Cluster.step, hstep]
    exact ⟨_, hnext⟩
  | centerSend k s =>
    obtain ⟨cluster', hstep, hnext⟩ := h.centerSend k henabled.2 hfits
    rw [Cluster.step, hstep]
    exact ⟨_, hnext⟩
  | centerArrive i n =>
    obtain ⟨cluster', star', hstep, hnext⟩ := h.centerArrive overread hnet i n
    rw [Cluster.step, hstep]
    exact ⟨star', hnext⟩
  | nodeArrive j n => exact h.nodeArrive hkeep hallowed htypes j n

end Runs

/-- A center on which all channels are connected. -/
def allConnected : NetServer :=
  ⟨[], fun c => some { connState := .connected, peerInfo := PeerInfo.serialize { channelIndex := c } }⟩

end Cluster

end TerraX
