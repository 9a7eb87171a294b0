import TerraX.Cluster.ClientRelayServers

/-!
# Requests and answers are carried exactly once

In every run, each request of a client to another server takes its place among the packets that the
servers have sent, as one packet of its gate, and of these packets every one is dispatched exactly
once. In the other direction, every packet with the address of a client is dispatched by this client
exactly once, among those that its gate has sent to it.

## Main definitions

- `ClientRelay.Upward`, `ClientRelay.Downward` — the two streams between a client and its gate
- `ClientRelay.Running` — what holds in each state of a run
- `ClientRelay.Requested`, `ClientRelay.ToldOnce` — what has become of the requests, and what the
  clients have been told

## Main results

- `ClientRelay.requests_relayed`, `ClientRelay.clients_told` — what holds at the end of every run
-/

namespace TerraX

open Bytes Memory Framing Fifo

namespace ClientRelay

open ClientLogin (Key)

/-- The requests of a client: those that its gate has read, of which it has relayed those for
    others, and those that are on the way. -/
structure Upward (env : Env) (guest : Guest) (key : Key)
    (origins : List (Option Key × (UInt16 × Sent))) (requests : List Request)
    (buf stream : List UInt8) (handled pending : List Request) : Prop where
  requests : requests = handled ++ pending
  orderly : ∀ r ∈ pending, r.Sendable ∧ ¬ PacketType.pktRegisterAck.descriptor.Named r.msg.name
  relayed : sentTo key (fromOthers origins) =
    (handled.filter Request.ForOthers).map fun r => (key.1, r.relayed guest)
  carries : packetSplitter.Carries (Request.frame env.adler32) pending buf stream

/-- What a client is told: what it has dispatched, and what is on the way. It comes from the gate, or
    with the packets that the gate has handled. -/
structure Downward (env : Env) (key : Key) (handled : List (Option UInt16 × Sent))
    (told : List Told) (log : List Dispatch) (buf stream : List UInt8)
    (heard pending : List (Option (Option UInt16) × Told)) : Prop where
  told : fromHub (heard ++ pending) = told
  passedOn : fromOthers (heard ++ pending) =
    (handled.filter fun m => m.2.destInfo = clientInfo key.1 key.2).map fun m => (m.1, m.2.told)
  sendable : ∀ m ∈ pending, m.2.Sendable
  log : List.Forall₂ (fun m packet => packet.Tells m.2) heard log
  carries : packetSplitter.Carries (fun m => m.2.frame env.adler32) pending buf stream

/-- The packets that nobody sends but the center. -/
abbrev orderly : UInt16 → Sent → Prop :=
  fun _ s => ¬ PacketType.pktRegisterAck.descriptor.Named s.msg.name

/-- What the servers have sent and what the gates have relayed is carried, in some order; `origins`
    tells the client of what was relayed. -/
structure Running (env : Env) (net : NetServer) (clients : Key → Option NetChannel)
    (nodes : UInt16 → Option Node) (s : State) (star : Star UInt16 Sent)
    (origins : List (Option Key × (UInt16 × Sent))) : Prop where
  carried : Cluster.Carried env net orderly (fun j => (nodes j).map Node.peerType)
    { s.cluster with sent := origins.map Prod.snd } star
  own : fromHub origins = s.cluster.sent
  relays : ∀ m ∈ fromOthers origins, ∃ guest, Joined clients nodes m.1 guest
  same : SameClients nodes s.cluster.nodes
  up : ∀ key guest, Joined clients nodes key guest → ∃ handled pending,
    Upward env guest key origins (s.requests key) (s.frontBuf key) (s.clientUp key) handled pending
  down : ∀ key guest, Joined clients nodes key guest → ∃ heard pending,
    Downward env key (star.handled key.1) (s.told key) (s.clientLog key) (s.clientBuf key)
      (s.clientDown key) heard pending

/-! ### The streams of one client -/

section Streams

variable {env : Env} {guest : Guest} {key : Key} {origins : List (Option Key × (UInt16 × Sent))}
  {requests : List Request} {buf stream : List UInt8} {read pending : List Request}

theorem Upward.request (h : Upward env guest key origins requests buf stream read pending)
    {r : Request} (hr : r.Sendable)
    (hack : ¬ PacketType.pktRegisterAck.descriptor.Named r.msg.name) :
    Upward env guest key origins (requests ++ [r]) buf (stream ++ r.frame env.adler32) read
      (pending ++ [r]) where
  requests := by rw [h.requests, List.append_assoc]
  orderly := List.forall_mem_append.mpr ⟨h.orderly, List.forall_mem_singleton.mpr ⟨hr, hack⟩⟩
  relayed := h.relayed
  carries := by
    have hwrite := h.carries.write (List.forall_mem_singleton.mpr
      (packetSplitter_isFrame.mpr (hr.frame_accepted env.adler32 env.heap).1))
    rwa [List.map_singleton, List.flatten_singleton] at hwrite

variable {handled : List (Option UInt16 × Sent)} {told : List Told} {log : List Dispatch}
  {heard waiting : List (Option (Option UInt16) × Told)}

/-- The gate sends a packet of its own. -/
theorem Downward.tell (h : Downward env key handled told log buf stream heard waiting) {t : Told}
    (ht : t.Sendable) :
    Downward env key handled (told ++ [t]) log buf (stream ++ t.frame env.adler32) heard
      (waiting ++ [(none, t)]) where
  told := by
    rw [← List.append_assoc, fromHub_append, h.told]
    rfl
  passedOn := by
    rw [← List.append_assoc, fromOthers_append, h.passedOn]
    exact List.append_nil _
  sendable := List.forall_mem_append.mpr ⟨h.sendable, List.forall_mem_singleton.mpr ht⟩
  log := h.log
  carries := by
    have hframe : ∀ m ∈ [((none : Option (Option UInt16)), t)],
        packetSplitter.IsFrame (m.2.frame env.adler32) :=
      List.forall_mem_singleton.mpr (ht.isFrame env.adler32)
    have hwrite := h.carries.write hframe
    rwa [List.map_singleton, List.flatten_singleton] at hwrite

/-- The gate has handled some more packets of the center. -/
theorem Downward.handle (h : Downward env key handled told log buf stream heard waiting)
    {batch : List (Option UInt16 × Sent)} (hbatch : ∀ m ∈ batch, m.2.Sendable) :
    Downward env key (handled ++ batch) told log buf
      (stream ++ ((batch.filter fun m => m.2.destInfo = clientInfo key.1 key.2).map fun m =>
        m.2.told.frame env.adler32).flatten) heard
      (waiting ++ tagged ((batch.filter fun m => m.2.destInfo = clientInfo key.1 key.2).map
        fun m => (m.1, m.2.told))) := by
  have hmore : ∀ m ∈ (tagged ((batch.filter fun m => m.2.destInfo = clientInfo key.1 key.2).map
      fun m => (m.1, m.2.told)) : List (Option (Option UInt16) × Told)), m.2.Sendable := by
    intro m hm
    obtain ⟨m', hm', rfl⟩ := List.mem_map.mp hm
    obtain ⟨m'', hm'', rfl⟩ := List.mem_map.mp hm'
    exact hbatch m'' (List.mem_of_mem_filter hm'')
  have hframes : (tagged ((batch.filter fun m => m.2.destInfo = clientInfo key.1 key.2).map
      fun m => (m.1, m.2.told)) : List (Option (Option UInt16) × Told)).map
        (fun m => m.2.frame env.adler32) =
      (batch.filter fun m => m.2.destInfo = clientInfo key.1 key.2).map fun m =>
        m.2.told.frame env.adler32 := by
    rw [tagged, List.map_map, List.map_map]
    rfl
  have hwrite := h.carries.write fun m hm => (hmore m hm).isFrame env.adler32
  rw [hframes] at hwrite
  exact {
    told := by rw [← List.append_assoc, fromHub_append, h.told, fromHub_tagged, List.append_nil]
    passedOn := by
      rw [← List.append_assoc, fromOthers_append, h.passedOn, fromOthers_tagged,
        List.filter_append, List.map_append]
    sendable := List.forall_mem_append.mpr ⟨h.sendable, hmore⟩
    log := h.log
    carries := hwrite }

/-- What the dispatcher of a client is given of what it is told. -/
theorem processPacket_told (channel : NetChannel) {t : Told} (ht : t.Sendable)
    (log : List Dispatch) :
    ∃ packet, NetManagerClient.processPacket env.adler32 channel
        (fun packet log => .ok (log ++ [packet])) log (.ofFrame (t.frame env.adler32)) =
          .ok (log ++ [packet]) ∧ packet.Tells t := by
  have hmax := ClientLogin.payload_length_le ht.1 ht.2
  have hrow := NetManagerClient.readsAs_clientRow env.adler32 t.ownerInfo ht.1 (by omega)
  obtain ⟨ptr, hptr, hsize, hbody, -⟩ := hrow.body
  refine ⟨channel.onMessage t.ownerInfo t.msg.name (t.frame env.adler32) ptr t.msg.body.length, ?_,
    rfl, rfl, rfl, hbody⟩
  rw [Told.frame, NetManagerClient.processPacket, hrow.valid, ok_bind, if_pos rfl, hrow.name,
    ok_bind, hrow.owner, ok_bind, hptr, ok_bind, hsize, ok_bind]
  rfl

theorem client_batch (channel : NetChannel) {ms : List (Option (Option UInt16) × Told)}
    (hms : ∀ m ∈ ms, m.2.Sendable) (log : List Dispatch) :
    ∃ packets, ((ms.map fun m => m.2.frame env.adler32).map PacketC.ofFrame).foldlM
        (NetManagerClient.processPacket env.adler32 channel
          (fun packet log => .ok (log ++ [packet]))) log = .ok (log ++ packets) ∧
      List.Forall₂ (fun m packet => packet.Tells m.2) ms packets := by
  induction ms generalizing log with
  | nil => exact ⟨[], congrArg Except.ok (List.append_nil log).symm, .nil⟩
  | cons m ms ih =>
    obtain ⟨hm, hms⟩ := List.forall_mem_cons.mp hms
    obtain ⟨packet, hturn, htells⟩ := processPacket_told channel hm log
    obtain ⟨packets, hrest, hall⟩ := ih hms (log ++ [packet])
    refine ⟨packet :: packets, ?_, .cons htells hall⟩
    rw [List.map_cons, List.map_cons, List.foldlM_cons, hturn, ok_bind, hrest, List.append_assoc]
    rfl

/-- Some of what a client is told has arrived. -/
theorem Downward.arrive (h : Downward env key handled told log buf stream heard waiting)
    (channel : NetChannel) (n : ℕ) :
    ∃ j rest packets, NetManagerClient.processMessage env.build env.adler32 env.heap channel
        (fun packet log => .ok (log ++ [packet])) (buf ++ stream.take n) [] log =
          .ok (rest, log ++ packets) ∧
      Downward env key handled told (log ++ packets) rest (stream.drop n)
        (heard ++ waiting.take j) (waiting.drop j) := by
  obtain ⟨j, hframes, hcarries⟩ := h.carries.arrive n
  obtain ⟨packets, hrun, hall⟩ := @client_batch env channel (waiting.take j)
    (fun m hm => h.sendable m (List.mem_of_mem_take hm)) log
  have hprocess := NetManagerClient.arrive_processPacket env.build env.adler32 env.heap channel
    (fun packet (log : List Dispatch) => .ok (log ++ [packet])) (buf, log) (stream.take n)
  rw [NetManagerClient.arrive_eq, hframes, hrun, ok_bind] at hprocess
  have hmoved : heard ++ waiting.take j ++ waiting.drop j = heard ++ waiting := by
    rw [List.append_assoc, List.take_append_drop]
  refine ⟨j, _, packets, hprocess.symm, ?_, ?_, ?_, List.rel_append h.log hall, hcarries⟩
  · rw [hmoved, h.told]
  · rw [hmoved, h.passedOn]
  · exact fun m hm => h.sendable m (List.mem_of_mem_drop hm)

end Streams

/-! ### One step -/

section Steps

variable {env : Env} {overread : Packet → Packet × Bool} {net : NetServer}
  {clients : Key → Option NetChannel} {nodes : UInt16 → Option Node} {s : State}
  {star : Star UInt16 Sent} {origins : List (Option Key × (UInt16 × Sent))}

/-- A state of a run. -/
def GoesOn (env : Env) (net : NetServer) (clients : Key → Option NetChannel)
    (nodes : UInt16 → Option Node) (s : State) : Prop :=
  ∃ star origins, Running env net clients nodes s star origins

theorem running_start (hnodes : ∀ j node, nodes j = some node → node.RegisteredAt j ∧ node.log = []) :
    Running env net clients nodes (start nodes) .empty [] where
  carried := Cluster.carried_start hnodes
  own := rfl
  relays _ hm := nomatch hm
  same := .refl nodes
  up _ _ _ := ⟨[], [], rfl, fun _ hr => (nomatch hr), rfl, Splitter.carries_nil⟩
  down _ _ _ := ⟨[], [], rfl, rfl, fun _ hm => (nomatch hm), .nil, Splitter.carries_nil⟩

theorem Running.server (h : Running env net clients nodes s star origins)
    (htypes : ∀ k, ((nodes k).map Node.peerType).isSome → net.connected k = true)
    (hnet : ∀ i front, net.getChannel i = some front → front.getChannelIndex = i) {e : ClusterEvent}
    (henabled : Cluster.Enabled net s.cluster e) (hfits : Cluster.Fits orderly e) :
    Outcome.Ends (GoesOn env net clients nodes) (fun _ => env.build ≠ .release)
      (ClientRelay.server env overread net s e) := by
  have henabled' : Cluster.Enabled net { s.cluster with sent := origins.map Prod.snd } e := by
    cases e <;> exact henabled
  have hgoes : Outcome.Ends (Cluster.Goes env net (Handlers.ofEnv env) orderly _ _ star) _
      (Cluster.step env overread net (Handlers.ofEnv env)
        { s.cluster with sent := origins.map Prod.snd } e) :=
    h.carried.step_handles (Handlers.keep_ofEnv env) (fun _ _ hs => hs) htypes hnet henabled' hfits
  rw [Cluster.step_sent, Outcome.ends_map_iff] at hgoes
  refine Outcome.ends_map_iff.mpr (hgoes.of_self.mono ?_ ?_)
  · rintro cluster' ⟨hstep, star', batch, hcarried, hhandled, hhandles⟩
    have hreg : ∀ j node, s.cluster.nodes j = some node → node.RegisteredAt j :=
      fun j node hnode => (h.carried.nodes j node hnode).registeredAt
    have hsame : ∀ j, (cluster'.nodes j).map Node.peerType =
        (s.cluster.nodes j).map Node.peerType := fun j =>
      (hcarried.types j).trans (h.carried.types j).symm
    have horigins : fromOthers (origins ++ untagged (Cluster.sentBy e)) = fromOthers origins := by
      rw [fromOthers_append, fromOthers_untagged, List.append_nil]
    refine ⟨star', origins ++ untagged (Cluster.sentBy e), ?_, ?_, ?_, ?_, ?_, ?_⟩
    · rw [List.map_append, snd_untagged]
      exact hcarried
    · rw [fromHub_append, h.own, fromHub_untagged]
      exact (Cluster.sent_of_step hstep).symm
    · rw [horigins]
      exact h.relays
    · exact h.same.trans (sameClients_of_handles hhandles (fun _ _ hs => hs) hreg hsame)
    · intro key guest hjoined
      obtain ⟨handled, pending, hup⟩ := h.up key guest hjoined
      refine ⟨handled, pending, { hup with relayed := ?_ }⟩
      rw [horigins]
      exact hup.relayed
    · intro key guest hjoined
      obtain ⟨heard, pending, hdown⟩ := h.down key guest hjoined
      dsimp only
      rw [hhandled, passedOn_eq hhandles (fun _ _ hs => hs) hreg hsame (hjoined.same h.same)]
      exact ⟨heard, _, hdown.handle fun m hm => (hhandles.fits key.1 m hm).1⟩
  · intro _ hfail hbuild
    exact hfail fun k t s _ _ => ⟨Handlers.return_ofEnv hbuild _, Or.inl hbuild⟩

theorem Running.request (h : Running env net clients nodes s star origins) (key : Key)
    {r : Request} (hr : r.Sendable)
    (hack : ¬ PacketType.pktRegisterAck.descriptor.Named r.msg.name) :
    Outcome.Ends (GoesOn env net clients nodes) (fun _ => env.build ≠ .release)
      (ClientRelay.request env s key r) := by
  rw [ClientRelay.request, hr.send_frame, ok_bind]
  refine ⟨star, origins, { h with up := ?_ }⟩
  refine forall_update₂ (P := fun key requests stream => ∀ guest, Joined clients nodes key guest →
    ∃ handled pending, Upward env guest key origins requests (s.frontBuf key) stream handled
      pending) (fun guest hjoined => ?_) h.up
  obtain ⟨handled, pending, hup⟩ := h.up key guest hjoined
  exact ⟨handled, _, hup.request hr hack⟩

theorem Running.tell (h : Running env net clients nodes s star origins) (key : Key) {t : Told}
    (ht : t.Sendable) :
    Outcome.Ends (GoesOn env net clients nodes) (fun _ => env.build ≠ .release)
      (ClientRelay.tell env s key t) := by
  rw [ClientRelay.tell, ht.send_frame, ok_bind]
  refine ⟨star, origins, { h with down := ?_ }⟩
  refine forall_update₂ (P := fun key told stream => ∀ guest, Joined clients nodes key guest →
    ∃ heard pending, Downward env key (star.handled key.1) told (s.clientLog key)
      (s.clientBuf key) stream heard pending) (fun guest hjoined => ?_) h.down
  obtain ⟨heard, pending, hdown⟩ := h.down key guest hjoined
  exact ⟨heard, _, hdown.tell ht⟩

/-- Requests have arrived at the gate: it has read some of them, and relayed those for others. -/
theorem Running.relayed (h : Running env net clients nodes s star origins) {key : Key} {guest : Guest}
    (hjoined : Joined clients nodes key guest) {gate gate' : GateServer}
    (hgate : s.cluster.nodes key.1 = some (.gate gate)) {handled pending : List Request}
    (hup : Upward env guest key origins (s.requests key) (s.frontBuf key) (s.clientUp key) handled
      pending) (j n : ℕ) {rest : List UInt8}
    (hpasses : Passes gate gate' (relayedPart env guest (pending.take j)))
    (hlog : gate'.dispatched = gate.dispatched)
    (hcarries : packetSplitter.Carries (Request.frame env.adler32) (pending.drop j) rest
      ((s.clientUp key).drop n)) :
    GoesOn env net clients nodes { s with
      cluster := { s.cluster with
        nodes := Function.update s.cluster.nodes key.1 (some (.gate gate'))
        uplink := Function.update s.cluster.uplink key.1
          (s.cluster.uplink key.1 ++ writtenTo .backEnd gate gate')
        nodeQueue := Function.update s.cluster.nodeQueue key.1 [] }
      clientUp := Function.update s.clientUp key ((s.clientUp key).drop n)
      frontBuf := Function.update s.frontBuf key rest } := by
  let ss : List Sent := ((pending.take j).filter Request.ForOthers).map (Request.relayed guest)
  let more : List (Key × (UInt16 × Sent)) := (ss.map fun m => (key.1, m)).map fun m => (key, m)
  have hss : ∀ m ∈ ss, m.Sendable ∧ ∀ k, m.hop = some k → orderly k m := by
    intro m hm
    obtain ⟨r, hr, rfl⟩ := List.mem_map.mp hm
    obtain ⟨hsend, hack⟩ := hup.orderly r (List.mem_of_mem_take (List.mem_of_mem_filter hr))
    exact ⟨hsend, fun _ _ => hack⟩
  obtain ⟨star', hhandled, hcarried⟩ := h.carried.relay hgate hpasses.backEnd hlog hss
  have hwritten : writtenTo .backEnd gate gate' = Sent.wire env.adler32 env.host ss := by
    rw [hpasses.writtenTo, sentTo_relayedPart]
  have hsnd : (origins ++ tagged more).map Prod.snd =
      origins.map Prod.snd ++ ss.map fun m => (key.1, m) := by
    rw [List.map_append, snd_tagged, List.map_map]
    exact congrArg _ (List.map_id _)
  refine ⟨star', origins ++ tagged more, ?_, ?_, ?_, ?_, ?_, ?_⟩
  · rw [hsnd, hwritten]
    exact hcarried
  · rw [fromHub_append, h.own, fromHub_tagged, List.append_nil]
  · rw [fromOthers_append, fromOthers_tagged]
    refine List.forall_mem_append.mpr ⟨h.relays, fun m hm => ?_⟩
    obtain ⟨m', -, rfl⟩ := List.mem_map.mp hm
    exact ⟨guest, hjoined⟩
  · exact h.same.trans (sameClients_update hgate hpasses)
  · intro key' guest' hjoined'
    dsimp only
    by_cases hkey : key' = key
    · subst hkey
      cases hjoined.unique hjoined'
      rw [Function.update_self, Function.update_self]
      refine ⟨handled ++ pending.take j, pending.drop j, ?_, ?_, ?_, hcarries⟩
      · rw [List.append_assoc, List.take_append_drop, hup.requests]
      · exact fun r hr => hup.orderly r (List.mem_of_mem_drop hr)
      · rw [fromOthers_append, sentTo_append, hup.relayed, fromOthers_tagged, sentTo_map, if_pos rfl,
          List.filter_append, List.map_append, List.map_map]
        rfl
    · obtain ⟨handled', pending', hup'⟩ := h.up key' guest' hjoined'
      rw [Function.update_of_ne hkey, Function.update_of_ne hkey]
      refine ⟨handled', pending', { hup' with relayed := ?_ }⟩
      rw [fromOthers_append, sentTo_append, hup'.relayed, fromOthers_tagged, sentTo_map,
        if_neg (Ne.symm hkey), List.append_nil]
  · rw [hhandled]
    exact h.down

theorem Running.frontArrive (h : Running env net clients nodes s star origins) {key : Key}
    {guest : Guest} (hjoined : Joined clients nodes key guest) (n : ℕ) :
    Outcome.Ends (GoesOn env net clients nodes) (fun _ => env.build ≠ .release)
      (ClientRelay.frontArrive env overread s key n) := by
  obtain ⟨gate, front, back, hgate, hfront, -, hguest, hback, hsend⟩ := (hjoined.same h.same).gate
  obtain ⟨handled, pending, hup⟩ := h.up key guest hjoined
  obtain ⟨j, hframes, hcarries⟩ := hup.carries.arrive n
  have hbatch := @front_batch env gate front back guest hguest hback hsend overread
    (pending.take j) fun r hr => hup.orderly r (List.mem_of_mem_take hr)
  have hroom : TerraX.Fits env.build true (s.frontBuf key ++ (s.clientUp key).take n) := by
    intro _ f hf
    rw [hframes] at hf
    obtain ⟨r, hr, rfl⟩ := List.mem_map.mp hf
    exact ((hup.orderly r (List.mem_of_mem_take hr)).1.frame_accepted env.adler32 env.heap).2.2
  have hqueue : s.cluster.nodeQueue key.1 = [] := h.carried.nodeQueue key.1
  rw [ClientRelay.frontArrive, hgate]
  dsimp only
  rw [hfront]
  dsimp only
  rw [onMessageFrontEnd, beq_self_eq_true, hqueue, processMessage_eq env.build env.adler32 env.heap
    overread _ hroom, hframes, bind_assoc]
  refine hbatch.bind ?_
  rintro gate' ⟨hpasses, hlog⟩
  exact h.relayed hjoined hgate hup j n hpasses hlog hcarries

theorem Running.clientArrive (h : Running env net clients nodes s star origins) {key : Key}
    {guest : Guest} (hjoined : Joined clients nodes key guest) (n : ℕ) :
    Outcome.Ends (GoesOn env net clients nodes) (fun _ => env.build ≠ .release)
      (ClientRelay.clientArrive env clients s key n) := by
  obtain ⟨channel, hchannel, -⟩ := hjoined.client
  obtain ⟨heard, pending, hdown⟩ := h.down key guest hjoined
  obtain ⟨j, rest, packets, hprocess, hnext⟩ := hdown.arrive channel n
  rw [ClientRelay.clientArrive, hchannel]
  dsimp only
  rw [hprocess, ok_bind]
  refine ⟨star, origins, { h with down := ?_ }⟩
  exact forall_update₃ (P := fun key stream buf log => ∀ guest, Joined clients nodes key guest →
    ∃ heard pending, Downward env key (star.handled key.1) (s.told key) log buf stream heard
      pending) (fun _ _ => ⟨_, _, hnext⟩) h.down

/-- What one event keeps, if it does not fail. -/
theorem Running.step (h : Running env net clients nodes s star origins)
    (htypes : ∀ k, ((nodes k).map Node.peerType).isSome → net.connected k = true)
    (hnet : ∀ i front, net.getChannel i = some front → front.getChannelIndex = i) {e : Event}
    (henabled : Enabled net clients s e) :
    Outcome.Ends (GoesOn env net clients nodes) (fun _ => env.build ≠ .release)
      (ClientRelay.step env overread net clients s e) := by
  cases e with
  | server e => exact h.server htypes hnet henabled.1 henabled.2
  | request key r => exact h.request key henabled.2.1 henabled.2.2
  | tell key t => exact h.tell key henabled.2
  | frontArrive key n =>
    obtain ⟨guest, hjoined⟩ := henabled
    exact h.frontArrive (hjoined.same h.same.symm) n
  | clientArrive key n =>
    obtain ⟨guest, hjoined⟩ := henabled
    exact h.clientArrive (hjoined.same h.same.symm) n

end Steps

/-! ### What the runs end in -/

/-- The gate of a client has read the first of its requests, all of them when nothing is on the way,
    and has relayed those that are not for itself, one packet each. -/
structure Requested (s : State) (origins : List (Option Key × (UInt16 × Sent))) (key : Key)
    (guest : Guest) (read : List Request) : Prop where
  isPrefix : read <+: s.requests key
  all : s.clientUp key = [] → read = s.requests key
  relayed : sentTo key (fromOthers origins) =
    (read.filter Request.ForOthers).map fun r => (key.1, r.relayed guest)

/-- The packets with the address of a client that its gate has been given, by itself, by the center
    and by the others whose packets the center has taken, are dispatched by the client, one by
    one; all of them when nothing is on the way. -/
structure ToldOnce (s : State) (order : List (UInt16 × Sent)) (key : Key)
    (heard : List (Option (Option UInt16) × Told)) : Prop where
  dispatched : List.Forall₂ (fun m packet => packet.Tells m.2) heard (s.clientLog key)
  byGate : fromHub heard <+: s.told key
  byCenter : fromHub (fromOthers heard) <+: ((sentTo key.1 s.cluster.centerSent).filter fun m =>
    m.destInfo = clientInfo key.1 key.2).map Sent.told
  byOthers : fromOthers (fromOthers heard) <+: (order.filter fun m =>
    m.2.destInfo = clientInfo key.1 key.2).map fun m => (m.1, m.2.told)
  all : s.clientDown key = [] → fromHub heard = s.told key ∧
    (s.cluster.downlink key.1 = [] →
      fromHub (fromOthers heard) = ((sentTo key.1 s.cluster.centerSent).filter fun m =>
        m.destInfo = clientInfo key.1 key.2).map Sent.told ∧
      fromOthers (fromOthers heard) = (order.filter fun m =>
        m.2.destInfo = clientInfo key.1 key.2).map fun m => (m.1, m.2.told))

/-- The address of a client leads to the channel of its gate. -/
theorem hop_clientInfo {j k : UInt16} (hpos : 0 < j) (hlt : j.toNat < maxConnection) {s : Sent}
    (h : s.destInfo = clientInfo j k) : s.hop = some j := by
  have htype : PeerType.centerserver ≠ PeerType.client := by decide
  have hindex : j.toUInt8.toUInt16 = j := by
    apply UInt16.toNat_inj.mp
    rw [UInt8.toNat_toUInt16, toUInt8_toNat_of_lt hlt]
  rw [Sent.hop, h, clientInfo, Center.hopOf, PeerInfo.parse_serialize]
  simp only [if_neg htype, Center.nextHop, if_neg (toUInt8_ne_zero hpos hlt), hindex]

section Results

variable {env : Env} {net : NetServer} {clients : Key → Option NetChannel}
  {nodes : UInt16 → Option Node} {s : State} {star : Star UInt16 Sent}
  {origins : List (Option Key × (UInt16 × Sent))} {key : Key} {guest : Guest}

theorem Running.requested (h : Running env net clients nodes s star origins)
    (hjoined : Joined clients nodes key guest) : ∃ read, Requested s origins key guest read := by
  obtain ⟨handled, pending, hup⟩ := h.up key guest hjoined
  refine ⟨handled, ?_, fun hempty => ?_, hup.relayed⟩
  · rw [hup.requests]
    exact List.prefix_append _ _
  · have hcarries := hup.carries
    rw [hempty] at hcarries
    rw [hup.requests, hcarries.eq_nil, List.append_nil]

theorem Running.toldOnce (h : Running env net clients nodes s star origins)
    (htypes : ∀ k, ((nodes k).map Node.peerType).isSome → net.connected k = true)
    (hjoined : Joined clients nodes key guest) : ∃ heard, ToldOnce s star.taken key heard := by
  obtain ⟨heard, pending, hdown⟩ := h.down key guest hjoined
  obtain ⟨gate, -, -, hgate, -⟩ := (hjoined.same h.same).gate
  have hreg := (h.carried.nodes key.1 _ hgate).registeredAt
  have hhop : ∀ m : Sent, m.destInfo = clientInfo key.1 key.2 → m.hop = some key.1 :=
    fun _ => hop_clientInfo hreg.pos hreg.lt
  have hreceived := h.carried.received_of_hop htypes hgate hhop
  -- what the gate has passed on, told apart by the senders
  have hothers : fromOthers (fromOthers (heard ++ pending)) = _ :=
    (congrArg fromOthers hdown.passedOn).trans (fromOthers_map _ _)
  have hcenter : fromHub (fromOthers (heard ++ pending)) = _ :=
    (congrArg fromHub hdown.passedOn).trans (fromHub_map _ _)
  have hsome : fromOthers heard <+: fromOthers (heard ++ pending) := by
    rw [fromOthers_append]
    exact List.prefix_append _ _
  refine ⟨heard, hdown.log, ?_, ?_, ?_, fun hempty => ?_⟩
  · rw [← hdown.told, fromHub_append]
    exact List.prefix_append _ _
  · have hpart : fromHub (fromOthers heard) <+: fromHub (fromOthers (heard ++ pending)) :=
      hsome.filterMap _
    rw [hcenter] at hpart
    exact hpart.trans (hreceived.fromHub.map _)
  · have hpart : fromOthers (fromOthers heard) <+: fromOthers (fromOthers (heard ++ pending)) :=
      hsome.filterMap _
    rw [hothers] at hpart
    exact hpart.trans (hreceived.fromOthers.map _)
  · have hcarries := hdown.carries
    rw [hempty] at hcarries
    have hnil := hcarries.eq_nil
    subst hnil
    have htold := hdown.told
    rw [List.append_nil] at htold hothers hcenter
    refine ⟨htold, fun hdownlink => ?_⟩
    obtain ⟨hall, hall'⟩ := hreceived.all hdownlink
    rw [hothers, hcenter, hall, hall']
    exact ⟨rfl, rfl⟩

end Results

section Runs

variable (env : Env) (overread : Packet → Packet × Bool) (net : NetServer)
  (clients : Key → Option NetChannel) (nodes : UInt16 → Option Node)

theorem connected_of_types (hnodes : ∀ j node, nodes j = some node →
    node.RegisteredAt j ∧ node.log = [] ∧ net.connected j = true) (k : UInt16)
    (hk : ((nodes k).map Node.peerType).isSome) : net.connected k = true := by
  rw [Option.isSome_map] at hk
  obtain ⟨node, hnode⟩ := Option.isSome_iff_exists.mp hk
  exact (hnodes k node hnode).2.2

/-- The invariant holds at the end of every run that returns. -/
theorem goesOn_of_runs (hnodes : ∀ j node, nodes j = some node →
      node.RegisteredAt j ∧ node.log = [] ∧ net.connected j = true)
    (hnet : ∀ i front, net.getChannel i = some front → front.getChannelIndex = i)
    {events : List Event} {s : State}
    (hrun : (system env overread net clients nodes).Runs events (.ok s)) :
    GoesOn env net clients nodes s := by
  have hstart : GoesOn env net clients nodes (start nodes) :=
    ⟨_, _, running_start fun j node hnode => ⟨(hnodes j node hnode).1, (hnodes j node hnode).2.1⟩⟩
  have hstep : ∀ (_ : List Event) (s : State) (e : Event) s', GoesOn env net clients nodes s →
      Enabled net clients s e → step env overread net clients s e = .ok s' →
      GoesOn env net clients nodes s' := by
    rintro _ s e s' ⟨star, origins, h⟩ henabled hstep
    exact (h.step (connected_of_types net nodes hnodes) hnet henabled).of_ok hstep
  exact Run.System.preserves hstart hstep hrun

/-- No run of a release build fails. -/
theorem exists_of_runs (hnodes : ∀ j node, nodes j = some node →
      node.RegisteredAt j ∧ node.log = [] ∧ net.connected j = true)
    (hnet : ∀ i front, net.getChannel i = some front → front.getChannelIndex = i)
    (hbuild : env.build = .release) {events : List Event} {outcome : Except Fault State}
    (hrun : (system env overread net clients nodes).Runs events outcome) : ∃ s, outcome = .ok s := by
  have hstart : GoesOn env net clients nodes (start nodes) :=
    goesOn_of_runs env overread net clients nodes hnodes hnet .nil
  have hstep : ∀ (_ : List Event) (s : State) (e : Event), GoesOn env net clients nodes s →
      Enabled net clients s e →
      ∃ s', step env overread net clients s e = .ok s' ∧ GoesOn env net clients nodes s' := by
    rintro _ s e ⟨star, origins, h⟩ henabled
    exact (h.step (connected_of_types net nodes hnodes) hnet henabled).exists_ok
      fun _ hfail => hfail hbuild
  obtain ⟨s, hok, -⟩ := Run.System.invariant hstart hstep hrun
  exact ⟨s, hok⟩

/-- Clients behind the gates of a center with any gates and world servers, which are registered on
    connected channels. In every run, with any interleaving of what is sent and of the chunks that
    arrive, each gate has relayed the requests of each of its clients for others, in the order in
    which the client has sent them and each as one packet with the address of the guest as its
    owner, and of these packets and those that the servers send themselves each is dispatched
    exactly once by the server that it is for. No run of a release build fails. -/
theorem requests_relayed (hnodes : ∀ j node, nodes j = some node →
      node.RegisteredAt j ∧ node.log = [] ∧ net.connected j = true)
    (hnet : ∀ i front, net.getChannel i = some front → front.getChannelIndex = i) :
    (∀ events s, (system env overread net clients nodes).Runs events (.ok s) →
      ∃ origins order, fromHub origins = s.cluster.sent ∧
        Cluster.ExactlyOnce { s.cluster with sent := origins.map Prod.snd } order ∧
        ∀ key guest, Joined clients nodes key guest → ∃ read, Requested s origins key guest read) ∧
    (env.build = .release → ∀ events outcome,
      (system env overread net clients nodes).Runs events outcome → ∃ s, outcome = .ok s) := by
  refine ⟨fun events s hrun => ?_, fun hbuild events outcome hrun =>
    exists_of_runs env overread net clients nodes hnodes hnet hbuild hrun⟩
  have htypes := connected_of_types net nodes hnodes
  obtain ⟨star, origins, h⟩ := goesOn_of_runs env overread net clients nodes hnodes hnet hrun
  exact ⟨origins, star.taken, h.own, h.carried.exactlyOnce htypes, fun key guest => h.requested⟩

/-- In every run, each client has dispatched the packets with its address exactly once: those that
    its gate has sent to it, and of those that the center has taken or sent itself the ones that
    have come to it, in the order of each of the three; all of them when nothing is on the way. -/
theorem clients_told (hnodes : ∀ j node, nodes j = some node →
      node.RegisteredAt j ∧ node.log = [] ∧ net.connected j = true)
    (hnet : ∀ i front, net.getChannel i = some front → front.getChannelIndex = i)
    (events : List Event) (s : State)
    (hrun : (system env overread net clients nodes).Runs events (.ok s)) :
    ∃ (origins : List (Option Key × (UInt16 × Sent))) (order : List (UInt16 × Sent)),
      fromHub origins = s.cluster.sent ∧
      Cluster.ExactlyOnce { s.cluster with sent := origins.map Prod.snd } order ∧
      ∀ key guest, Joined clients nodes key guest → ∃ heard, ToldOnce s order key heard := by
  have htypes := connected_of_types net nodes hnodes
  obtain ⟨star, origins, h⟩ := goesOn_of_runs env overread net clients nodes hnodes hnet hrun
  exact ⟨origins, star.taken, h.own, h.carried.exactlyOnce htypes, fun key guest =>
    h.toldOnce htypes⟩

end Runs

/-! ### One client -/

/-- The client is on channel 1 of the gate on channel 1. -/
def oneClient : Key → Option NetChannel := fun key =>
  if key = (1, 1) then some { connState := .connected } else none

/-- The gate, and a world server on channel 2. -/
def twoServers : UInt16 → Option Node := fun j =>
  if j = 1 then some (.gate ClientPackets.gate)
  else if j = 2 then some (.world Selection.registeredWorld)
  else none

theorem twoServers_registered : ∀ j node, twoServers j = some node →
    node.RegisteredAt j ∧ node.log = [] ∧ Cluster.allConnected.connected j = true := by
  intro j node h
  rw [twoServers] at h
  split at h
  · next hj =>
    cases h
    subst hj
    exact ⟨⟨by decide, by decide, _, rfl, rfl⟩, rfl, rfl⟩
  · split at h
    · next hj =>
      cases h
      subst hj
      exact ⟨Selection.registeredWorld_registeredAt, rfl, rfl⟩
    · cases h

theorem allConnected_index : ∀ i front, Cluster.allConnected.getChannel i = some front →
    front.getChannelIndex = i := by
  rintro i front ⟨⟩
  exact PeerInfo.getChannelIndex_serialize _

theorem oneClient_joined :
    Joined oneClient twoServers (1, 1) (.new (guestInfo 1 1) 0x02000000) where
  client := ⟨_, rfl, rfl⟩
  gate := ⟨ClientPackets.gate, GuestRouting.clientChannel, _, rfl, rfl, rfl, rfl, rfl, rfl⟩

/-- It stays there in every run. -/
theorem oneClient_joined_of_runs {events : List Event} {s : State}
    (hrun : (system Selection.plainEnv (fun pkt => (pkt, false)) Cluster.allConnected oneClient
      twoServers).Runs events (.ok s)) :
    Joined oneClient s.cluster.nodes (1, 1) (.new (guestInfo 1 1) 0x02000000) := by
  obtain ⟨_, _, h⟩ := goesOn_of_runs Selection.plainEnv (fun pkt => (pkt, false))
    Cluster.allConnected oneClient twoServers twoServers_registered allConnected_index hrun
  exact oneClient_joined.same h.same

/-- One event more. -/
theorem oneClient_next {events : List Event} {s : State} {e : Event}
    (hrun : (system Selection.plainEnv (fun pkt => (pkt, false)) Cluster.allConnected oneClient
      twoServers).Runs events (.ok s)) (he : Enabled Cluster.allConnected oneClient s e) :
    ∃ s', (system Selection.plainEnv (fun pkt => (pkt, false)) Cluster.allConnected oneClient
        twoServers).Runs (events ++ [e]) (.ok s') ∧
      step Selection.plainEnv (fun pkt => (pkt, false)) Cluster.allConnected oneClient s e =
        .ok s' := by
  have hnext := hrun.concat (l := e) he
  obtain ⟨s', hok⟩ :=
    exists_of_runs _ _ _ _ _ twoServers_registered allConnected_index rfl hnext
  rw [hok] at hnext
  exact ⟨s', hnext, hok⟩

/-- A request for a world server. -/
def toWorldServer : Request := ⟨.worldserver, ⟨[80], [8, 1]⟩⟩

/-- The gate relays the request, and the center takes it. -/
theorem requests_relayed_oneClient : ∃ s origins order,
    (system Selection.plainEnv (fun pkt => (pkt, false)) Cluster.allConnected oneClient
      twoServers).Runs [.request (1, 1) toWorldServer, .frontArrive (1, 1) 20,
        .server (.centerArrive 1 30)] (.ok s) ∧
    Cluster.ExactlyOnce { s.cluster with sent := origins.map Prod.snd } order ∧
    ∃ read, Requested s origins (1, 1) (.new (guestInfo 1 1) 0x02000000) read := by
  obtain ⟨hholds, -⟩ := requests_relayed Selection.plainEnv (fun pkt => (pkt, false))
    Cluster.allConnected oneClient twoServers twoServers_registered allConnected_index
  obtain ⟨s₁, hsent, -⟩ := oneClient_next (e := .request (1, 1) toWorldServer) .nil
    ⟨⟨_, oneClient_joined⟩, ⟨by decide, by decide⟩, by decide⟩
  obtain ⟨s₂, hatGate, -⟩ := oneClient_next (e := .frontArrive (1, 1) 20) hsent
    ⟨_, oneClient_joined_of_runs hsent⟩
  obtain ⟨s, hatCenter, -⟩ := oneClient_next (e := .server (.centerArrive 1 30)) hatGate
    ⟨trivial, trivial⟩
  obtain ⟨origins, order, -, honce, hrequested⟩ := hholds _ s hatCenter
  exact ⟨s, origins, order, hatCenter, honce, hrequested _ _ oneClient_joined⟩

/-- A packet of the center for the client. -/
def toClient : Sent := ⟨clientInfo 1 1, 0x02000000, ⟨[80], [8, 1]⟩⟩

/-- It arrives at the gate, and what the gate has passed on arrives at the client. -/
theorem clients_told_oneClient : ∃ s order heard,
    (system Selection.plainEnv (fun pkt => (pkt, false)) Cluster.allConnected oneClient
      twoServers).Runs [.server (.centerSend 1 toClient), .server (.nodeArrive 1 30),
        .clientArrive (1, 1) 20] (.ok s) ∧
    ToldOnce s order (1, 1) heard := by
  have hname : ¬ PacketType.pktRegisterAck.descriptor.Named toClient.msg.name := by decide
  obtain ⟨s₁, hsent, -⟩ := oneClient_next (e := .server (.centerSend 1 toClient)) .nil
    ⟨⟨rfl, by decide, by decide⟩, hname⟩
  obtain ⟨s₂, hatGate, -⟩ := oneClient_next (e := .server (.nodeArrive 1 30)) hsent
    ⟨trivial, trivial⟩
  obtain ⟨s, hatClient, -⟩ := oneClient_next (e := .clientArrive (1, 1) 20) hatGate
    ⟨_, oneClient_joined_of_runs hatGate⟩
  obtain ⟨origins, order, -, -, htold⟩ := clients_told Selection.plainEnv (fun pkt => (pkt, false))
    Cluster.allConnected oneClient twoServers twoServers_registered allConnected_index _ s hatClient
  obtain ⟨heard, htold⟩ := htold _ _ oneClient_joined
  exact ⟨s, order, heard, hatClient, htold⟩

end ClientRelay

end TerraX
