import TerraX.Cluster.ClientRelayPackets

/-!
# The servers behind the gates

What happens among the servers of a cluster makes each of them handle some more of the packets that
wait for it, and leaves the clients of the gates as they are. What a gate relays for its clients is
carried to the center as if the gate had sent it.

## Main definitions

- `Cluster.Handles` — the packets that the servers have handled between two states
- `ClientRelay.SameClients` — the gates have the same clients

## Main results

- `Cluster.Carried.step_handles` — what an event among the servers makes them handle
- `Cluster.Carried.relay` — what is carried when a gate has relayed packets
- `ClientRelay.gate_handles` — what the servers have handled, at a gate
-/

namespace TerraX

open Bytes Memory Framing Fifo

namespace Cluster

/-! ### What an event makes the servers handle -/

/-- What a server sends in an event. -/
def sentBy : ClusterEvent → List (UInt16 × Sent)
  | .send i s => [(i, s)]
  | .centerSend _ _ => []
  | .centerArrive _ _ => []
  | .nodeArrive _ _ => []

section Sent

variable (env : Env) (overread : Packet → Packet × Bool) (net : NetServer) (handlers : Handlers)
  (cluster : Cluster)

/-- What is kept of the packets that were sent does not matter for what happens. -/
theorem step_sent (sent : List (UInt16 × Sent)) (e : ClusterEvent) :
    step env overread net handlers { cluster with sent := sent } e =
      (step env overread net handlers cluster e >>= fun cluster' =>
        .ok { cluster' with sent := sent ++ sentBy e }) := by
  cases e with
  | send i s =>
    simp only [step, send, sentBy, bind_assoc, pure_eq_ok, ok_bind]
  | centerSend k s =>
    simp only [step, centerSend, sentBy, bind_assoc, pure_eq_ok, ok_bind, List.append_nil]
  | centerArrive i n =>
    simp only [step, centerArrive, sentBy, List.append_nil]
    cases net.getChannel i with
    | none => rfl
    | some front => simp only [bind_assoc, pure_eq_ok, ok_bind]
  | nodeArrive j n =>
    simp only [step, nodeArrive, sentBy, List.append_nil]
    cases cluster.nodes j with
    | none => rfl
    | some node => simp only [bind_assoc, pure_eq_ok, ok_bind]

variable {env overread net handlers cluster}

theorem sent_of_step {e : ClusterEvent} {cluster' : Cluster}
    (h : step env overread net handlers cluster e = .ok cluster') :
    cluster'.sent = cluster.sent ++ sentBy e := by
  have hsame := step_sent env overread net handlers cluster cluster.sent e
  rw [h, ok_bind] at hsame
  exact congrArg Cluster.sent (Except.ok.inj hsame)

end Sent

/-- The packets that the servers have handled between two states. -/
structure Handles (env : Env) (handlers : Handlers) (fits : UInt16 → Sent → Prop)
    (nodes nodes' : UInt16 → Option Node) (batch : UInt16 → List (Option UInt16 × Sent)) :
    Prop where
  fits : ∀ j, ∀ m ∈ batch j, m.2.Sendable ∧ fits j m.2
  nodes : ∀ j node', nodes' j = some node' → ∃ node, nodes j = some node ∧
    ((batch j).map fun m => packetOf env.adler32 env.host m.2).foldlM
      (Node.forwardPacketOnBackEnd env.build env.host handlers) node = .ok node'

theorem handles_nothing (env : Env) (handlers : Handlers) (fits : UInt16 → Sent → Prop)
    (nodes : UInt16 → Option Node) : Handles env handlers fits nodes nodes fun _ => [] where
  fits _ _ hm := nomatch hm
  nodes _ node' hnode' := ⟨node', hnode', rfl⟩

section Steps

variable {env : Env} {overread : Packet → Packet × Bool} {net : NetServer} {handlers : Handlers}
  {fits : UInt16 → Sent → Prop} {types : UInt16 → Option PeerType} {cluster : Cluster}
  {star : Star UInt16 Sent} {allowed : List UInt8 → Prop}

/-- What is carried after an event, and what the servers have handled in it. -/
def Goes (env : Env) (net : NetServer) (handlers : Handlers) (fits : UInt16 → Sent → Prop)
    (types : UInt16 → Option PeerType) (cluster : Cluster) (star : Star UInt16 Sent)
    (cluster' : Cluster) : Prop :=
  ∃ star' batch, Carried env net fits types cluster' star' ∧
    (∀ j, star'.handled j = star.handled j ++ batch j) ∧
    Handles env handlers fits cluster.nodes cluster'.nodes batch

/-- An event in which no server handles anything. -/
theorem goes_of_carried {cluster' : Cluster} {star' : Star UInt16 Sent}
    (h : Carried env net fits types cluster' star') (hhandled : star'.handled = star.handled)
    (hnodes : cluster'.nodes = cluster.nodes) :
    Goes env net handlers fits types cluster star cluster' := by
  refine ⟨star', fun _ => [], h, fun j => ?_, ?_⟩
  · rw [hhandled, List.append_nil]
  · rw [hnodes]
    exact handles_nothing env handlers fits cluster.nodes

theorem Carried.nodeArrive_handles (h : Carried env net fits types cluster star)
    (hkeep : handlers.Keep allowed) (hallowed : ∀ k s, fits k s → allowed s.msg.name)
    (htypes : ∀ k, (types k).isSome → net.connected k = true) (j : UInt16) (n : ℕ) :
    Outcome.Ends (Goes env net handlers fits types cluster star)
      (fun _ => ¬ ∀ k t s, types k = some t → fits k s → Takes env.build handlers allowed t k s)
      (cluster.nodeArrive env overread handlers j n) := by
  cases hnode : cluster.nodes j with
  | none =>
    rw [Cluster.nodeArrive, hnode]
    exact goes_of_carried h rfl rfl
  | some node =>
    have htype : types j = some node.peerType := by
      rw [← h.types j, hnode]
      rfl
    obtain ⟨m, rest, harrive, hcarried⟩ := h.nodeArrive_eq overread handlers htypes hnode n
    have hmem : ∀ m' ∈ (star.waiting j).take m, m'.2.Sendable ∧ fits j m'.2 := fun m' hm' =>
      h.waiting j m' (List.mem_of_mem_take hm')
    have hbatch := node_batch env.build env.host env.adler32 hkeep (h.nodes j node hnode).registeredAt
      fun m' hm' => ⟨(hmem m' hm').1, hallowed j _ (hmem m' hm').2⟩
    rw [harrive]
    refine (hbatch.of_self.mono (fun _ h => h) fun _ hfail hall => hfail fun m' hm' =>
      hall j _ _ htype (hmem m' hm').2).bind ?_
    rintro node' ⟨hrun, parts, hparts, hturned⟩
    refine ⟨star.handle j m, Function.update (fun _ => []) j ((star.waiting j).take m),
      hcarried node' parts hparts hturned, ?_, ?_, ?_⟩
    · exact forall_update₂ (P := fun k hs batch => hs = star.handled k ++ batch) rfl
        fun k => (List.append_nil _).symm
    · exact (Function.forall_update_iff _ fun k (ms : List (Option UInt16 × Sent)) =>
        ∀ m ∈ ms, m.2.Sendable ∧ fits k m.2).mpr ⟨hmem, fun _ _ _ hm => absurd hm List.not_mem_nil⟩
    · intro k nodek hnodek
      change Function.update cluster.nodes j (some node') k = some nodek at hnodek
      by_cases hk : k = j
      · subst hk
        rw [Function.update_self] at hnodek ⊢
        cases hnodek
        exact ⟨node, hnode, hrun⟩
      · rw [Function.update_of_ne hk] at hnodek ⊢
        exact ⟨nodek, hnodek, rfl⟩

/-- What one event makes the servers handle, if none fails. -/
theorem Carried.step_handles (h : Carried env net fits types cluster star)
    (hkeep : handlers.Keep allowed) (hallowed : ∀ k s, fits k s → allowed s.msg.name)
    (htypes : ∀ k, (types k).isSome → net.connected k = true)
    (hnet : ∀ i front, net.getChannel i = some front → front.getChannelIndex = i) {e : ClusterEvent}
    (henabled : Enabled net cluster e) (hfits : Fits fits e) :
    Outcome.Ends (Goes env net handlers fits types cluster star)
      (fun _ => ¬ ∀ k t s, types k = some t → fits k s → Takes env.build handlers allowed t k s)
      (Cluster.step env overread net handlers cluster e) := by
  cases e with
  | send i s =>
    obtain ⟨cluster', hstep, hnext⟩ := h.send i henabled.2 hfits
    have hnodes : cluster'.nodes = cluster.nodes := by
      obtain ⟨_, -, heq⟩ := bind_eq_ok.mp hstep
      cases heq
      rfl
    rw [Cluster.step, hstep]
    exact goes_of_carried hnext rfl hnodes
  | centerSend k s =>
    obtain ⟨cluster', hstep, hnext⟩ := h.centerSend k henabled.2 hfits
    have hnodes : cluster'.nodes = cluster.nodes := by
      obtain ⟨_, -, heq⟩ := bind_eq_ok.mp hstep
      cases heq
      rfl
    rw [Cluster.step, hstep]
    exact goes_of_carried hnext rfl hnodes
  | centerArrive i n =>
    obtain ⟨cluster', star', hstep, hhandled, hnodes, hnext⟩ :=
      h.centerArrive_handled overread hnet i n
    rw [Cluster.step, hstep]
    exact goes_of_carried hnext hhandled hnodes
  | nodeArrive j n => exact h.nodeArrive_handles hkeep hallowed htypes j n

/-! ### What a gate relays -/

/-- Several packets of one server. -/
theorem Carried.sendAll (h : Carried env net fits types cluster star) (i : UInt16) {ss : List Sent}
    (hss : ∀ s ∈ ss, s.Sendable ∧ ∀ k, s.hop = some k → fits k s) :
    ∃ star', star'.handled = star.handled ∧ Carried env net fits types { cluster with
      uplink := Function.update cluster.uplink i
        (cluster.uplink i ++ Sent.wire env.adler32 env.host ss)
      sent := cluster.sent ++ ss.map fun s => (i, s) } star' := by
  induction ss generalizing cluster star with
  | nil =>
    have hup : Sent.wire env.adler32 env.host [] = [] := rfl
    rw [hup, List.append_nil, Function.update_eq_self, List.map_nil, List.append_nil]
    exact ⟨star, rfl, h⟩
  | cons s ss ih =>
    obtain ⟨⟨hs, hfits⟩, hss⟩ := List.forall_mem_cons.mp hss
    obtain ⟨cluster₁, hstep, hnext⟩ := h.send i hs hfits
    rw [Cluster.send, hs.send_frame, ok_bind] at hstep
    cases hstep
    obtain ⟨star', hhandled, hall⟩ := ih hnext hss
    have hup : Function.update (Function.update cluster.uplink i
        (cluster.uplink i ++ s.frame env.adler32 env.host)) i
          (Function.update cluster.uplink i (cluster.uplink i ++ s.frame env.adler32 env.host) i ++
            Sent.wire env.adler32 env.host ss) =
        Function.update cluster.uplink i
          (cluster.uplink i ++ Sent.wire env.adler32 env.host (s :: ss)) := by
      rw [Function.update_self, Function.update_idem, List.append_assoc]
      rfl
    have hsent : cluster.sent ++ [(i, s)] ++ ss.map (fun s => (i, s)) =
        cluster.sent ++ (s :: ss).map fun s => (i, s) := List.append_assoc ..
    rw [← hup, ← hsent]
    exact ⟨star', hhandled, hall⟩

/-- A gate has relayed packets. It has dispatched nothing, and knows itself as before. -/
theorem Carried.relay (h : Carried env net fits types cluster star) {g : UInt16}
    {gate gate' : GateServer} (hgate : cluster.nodes g = some (.gate gate))
    (hback : gate'.backEnd = gate.backEnd) (hlog : gate'.dispatched = gate.dispatched)
    {ss : List Sent} (hss : ∀ s ∈ ss, s.Sendable ∧ ∀ k, s.hop = some k → fits k s) :
    ∃ star', star'.handled = star.handled ∧ Carried env net fits types { cluster with
      nodes := Function.update cluster.nodes g (some (.gate gate'))
      uplink := Function.update cluster.uplink g
        (cluster.uplink g ++ Sent.wire env.adler32 env.host ss)
      nodeQueue := Function.update cluster.nodeQueue g []
      sent := cluster.sent ++ ss.map fun s => (g, s) } star' := by
  obtain ⟨star', hhandled, hall⟩ := h.sendAll g hss
  refine ⟨star', hhandled, { hall with nodeQueue := ?_, nodes := ?_, types := ?_ }⟩
  · exact (Function.forall_update_iff _ fun _ queue => queue = []).mpr
      ⟨rfl, fun k _ => h.nodeQueue k⟩
  · intro j node hnode
    change Function.update cluster.nodes g (some (.gate gate')) j = some node at hnode
    by_cases hj : j = g
    · subst hj
      rw [Function.update_self] at hnode
      cases hnode
      obtain ⟨hreg, parts, hparts, hall'⟩ := hall.nodes j (.gate gate) hgate
      obtain ⟨back, hgateBack, hinfo⟩ := hreg.backEnd
      exact ⟨⟨hreg.pos, hreg.lt, back, hback.trans hgateBack, hinfo⟩, parts, hlog.trans hparts,
        hall'⟩
    · rw [Function.update_of_ne hj] at hnode
      exact hall.nodes j node hnode
  · intro j
    change (Function.update cluster.nodes g (some (.gate gate')) j).map Node.peerType = types j
    by_cases hj : j = g
    · subst hj
      rw [Function.update_self, ← h.types j, hgate]
      rfl
    · rw [Function.update_of_ne hj]
      exact h.types j

end Steps

end Cluster

/-! ### The clients of the gates -/

namespace ClientRelay

open ClientLogin (Key)

/-- What a gate knows of its clients, and how it reaches the center. -/
def clientsOf : Node → Option (Option NetChannel × NetServer × GuestManager)
  | .gate gate => some (gate.backEnd, gate.frontEnd, gate.guests)
  | .world _ => none

/-- The gates have the same clients. -/
def SameClients (nodes nodes' : UInt16 → Option Node) : Prop :=
  ∀ j, (nodes' j).map clientsOf = (nodes j).map clientsOf

section SameClients

variable {nodes nodes' nodes'' : UInt16 → Option Node}

theorem SameClients.refl (nodes : UInt16 → Option Node) : SameClients nodes nodes := fun _ => rfl

theorem SameClients.symm (h : SameClients nodes nodes') : SameClients nodes' nodes :=
  fun j => (h j).symm

theorem SameClients.trans (h : SameClients nodes nodes') (h' : SameClients nodes' nodes'') :
    SameClients nodes nodes'' := fun j => (h' j).trans (h j)

theorem SameClients.gate (h : SameClients nodes nodes') {j : UInt16} {gate : GateServer}
    (hgate : nodes j = some (.gate gate)) : ∃ gate', nodes' j = some (.gate gate') ∧
      gate'.backEnd = gate.backEnd ∧ gate'.frontEnd = gate.frontEnd ∧
        gate'.guests = gate.guests := by
  have hj := h j
  rw [hgate, Option.map_some] at hj
  obtain ⟨node', hnode', hsame⟩ := Option.map_eq_some_iff.mp hj
  cases node' with
  | gate gate' =>
    injection hsame with hsame
    injection hsame with hback hsame
    injection hsame with hfront hguests
    exact ⟨gate', hnode', hback, hfront, hguests⟩
  | world world => cases hsame

theorem Joined.same {clients : Key → Option NetChannel} {key : Key} {guest : Guest}
    (h : Joined clients nodes key guest) (hsame : SameClients nodes nodes') :
    Joined clients nodes' key guest := by
  obtain ⟨gate, front, back, hgate, hfront, hconn, hguest, hback, hsend⟩ := h.gate
  obtain ⟨gate', hgate', hback', hfront', hguests'⟩ := hsame.gate hgate
  refine ⟨h.client, gate', front, back, hgate', ?_, hconn, ?_, hback'.trans hback, hsend⟩
  · rw [hfront']
    exact hfront
  · rw [hguests']
    exact hguest

/-- A client has one guest. -/
theorem Joined.unique {clients : Key → Option NetChannel} {key : Key} {guest guest' : Guest}
    (h : Joined clients nodes key guest) (h' : Joined clients nodes key guest') :
    guest = guest' := by
  obtain ⟨gate, front, -, hgate, hfront, -, hguest, -, -⟩ := h.gate
  obtain ⟨gate', front', -, hgate', hfront', -, hguest', -, -⟩ := h'.gate
  cases hgate.symm.trans hgate'
  cases hfront.symm.trans hfront'
  exact Option.some.inj (hguest.symm.trans hguest')

/-- One gate has become another one with the same clients. -/
theorem sameClients_update {j : UInt16} {gate gate' : GateServer}
    {part : List (ChannelPtr × List UInt8)} (hgate : nodes j = some (.gate gate))
    (h : Passes gate gate' part) :
    SameClients nodes (Function.update nodes j (some (.gate gate'))) := by
  intro k
  by_cases hk : k = j
  · subst hk
    rw [Function.update_self, hgate, Option.map_some, Option.map_some, clientsOf, h.backEnd,
      h.frontEnd, h.guests]
    rfl
  · rw [Function.update_of_ne hk]

end SameClients

theorem exists_of_types {nodes nodes' : UInt16 → Option Node}
    (htypes : ∀ j, (nodes' j).map Node.peerType = (nodes j).map Node.peerType) {j : UInt16}
    {node : Node} (hnode : nodes j = some node) :
    ∃ node', nodes' j = some node' ∧ node'.peerType = node.peerType := by
  have hj := htypes j
  rw [hnode, Option.map_some] at hj
  exact Option.map_eq_some_iff.mp hj

section Handled

variable {env : Env} {fits : UInt16 → Sent → Prop} {nodes nodes' : UInt16 → Option Node}
  {batch : UInt16 → List (Option UInt16 × Sent)}
  (h : Cluster.Handles env (Handlers.ofEnv env) fits nodes nodes' batch)
  (hfits : ∀ k s, fits k s → ¬ PacketType.pktRegisterAck.descriptor.Named s.msg.name)
  (hreg : ∀ j node, nodes j = some node → node.RegisteredAt j)
  (htypes : ∀ j, (nodes' j).map Node.peerType = (nodes j).map Node.peerType)
include h hfits hreg

/-- What a gate has forwarded of what the servers have handled. -/
theorem gate_handles {j : UInt16} {gate : GateServer} (hgate : nodes j = some (.gate gate))
    {node' : Node} (hnode' : nodes' j = some node') :
    ∃ gate' part, node' = .gate gate' ∧ Passes gate gate' part ∧
      ForClients env gate j (batch j) part := by
  obtain ⟨node, hnode, hrun⟩ := h.nodes j node' hnode'
  cases hgate.symm.trans hnode
  exact node_batch (hreg j _ hgate) (fun m hm => ⟨(h.fits j m hm).1, hfits j _ (h.fits j m hm).2⟩)
    hrun

include htypes

/-- The servers keep the clients. -/
theorem sameClients_of_handles : SameClients nodes nodes' := by
  intro j
  cases hnode : nodes j with
  | none =>
    have hj := htypes j
    rw [hnode, Option.map_none, Option.map_eq_none_iff] at hj
    rw [hj]
  | some node =>
    obtain ⟨node', hnode', htype⟩ := exists_of_types htypes hnode
    rw [hnode', Option.map_some, Option.map_some]
    cases node with
    | gate gate =>
      obtain ⟨gate', part, rfl, hpasses, -⟩ := gate_handles h hfits hreg hnode hnode'
      rw [clientsOf, clientsOf, hpasses.backEnd, hpasses.frontEnd, hpasses.guests]
    | world world =>
      cases node' with
      | gate gate' => exact absurd htype nofun
      | world world' => rfl

/-- What the gate of a client has passed on to it. -/
theorem passedOn_eq {clients : Key → Option NetChannel} {key : Key} {guest : Guest}
    (hjoined : Joined clients nodes key guest) :
    passedOn nodes nodes' key =
      (((batch key.1).filter fun m => m.2.destInfo = clientInfo key.1 key.2).map fun m =>
        m.2.told.frame env.adler32).flatten := by
  obtain ⟨gate, front, -, hgate, hfront, hconn, -, -, -⟩ := hjoined.gate
  obtain ⟨node', hnode', -⟩ := exists_of_types htypes hgate
  obtain ⟨gate', part, rfl, hpasses, hpart⟩ := gate_handles h hfits hreg hgate hnode'
  rw [passedOn, hgate, hnode']
  dsimp only
  rw [hpasses.writtenTo, hpart key.2 front hfront hconn]

end Handled

end ClientRelay

end TerraX
