import TerraX.Cluster.Cluster
import TerraX.Lib.Outcome
import TerraX.Lib.Star

/-!
# What one arrival makes the servers do

The packets of an arrival are handed on one by one. At the center, a packet with one destination
is dispatched, or its bytes are put on one link. At a gate or world server it is dispatched if
it is addressed to the server, and a gate dispatches the packets for its guests, too. This file
says what one packet does, and adds it up over all packets of an arrival.

## Main definitions

- `Dispatch.Carries` — a handler is given what was sent
- `Cluster.CenterDispatched`, `Cluster.NodeDispatched` — what a packet adds to the logs

## Main results

- `Cluster.accepted_frames` — the packets that pass are those that were sent
- `Cluster.center_batch`, `Cluster.node_batch` — what the packets of an arrival do
-/

namespace TerraX

open Bytes Memory Framing Fifo

/-- A handler is given the name, the owner and the body of what was sent. -/
structure Dispatch.Carries (packet : Dispatch) (s : Sent) : Prop where
  packetName : packet.packetName = s.msg.name
  ownerInfo : packet.ownerInfo = s.ownerInfo
  msgSize : packet.msgSize = s.msg.body.length
  body : read packet.buffer packet.packetMsg s.msg.body.length = .ok s.msg.body

/-- A packet that carries what was sent is handed on with it. -/
theorem Center.dispatchLocal_carries (front : NetChannel) {host : Endian} {pktS : PacketS}
    {s : Sent} {dests : List Word} (h : pktS.Carries host s.msg s.ownerInfo dests) :
    ∃ packet, dispatchLocal front pktS = .ok packet ∧
      packet.channelIndex = front.peerInfo.toUInt16 ∧ packet.Carries s := by
  obtain ⟨ptr, hptr, hsize, hbody⟩ := h.body
  refine ⟨front.onMessage s.ownerInfo s.msg.name pktS.buffer ptr s.msg.body.length, ?_, rfl, rfl,
    rfl, rfl, hbody⟩
  rw [dispatchLocal, h.name, ok_bind, h.owner, ok_bind, hptr, ok_bind, hsize, ok_bind]
  rfl

/-- The next hop of a packet with one destination. -/
def Sent.hop (s : Sent) : Option UInt16 := Center.hopOf s.destInfo

/-- The bytes of several packets. -/
def Sent.wire (adler32 : List UInt8 → UInt32) (host : Endian) (ss : List Sent) : List UInt8 :=
  (ss.map (Sent.frame adler32 host)).flatten

@[simp] theorem Sent.wire_append (adler32 : List UInt8 → UInt32) (host : Endian)
    (ss more : List Sent) :
    wire adler32 host (ss ++ more) = wire adler32 host ss ++ wire adler32 host more := by
  rw [wire, List.map_append, List.flatten_append]
  rfl

theorem Sent.wire_singleton (adler32 : List UInt8 → UInt32) (host : Endian) (s : Sent) :
    wire adler32 host [s] = s.frame adler32 host := List.append_nil _

namespace Cluster

/-- What the center adds to its log for a packet of its own: the sender's channel, and what was
    sent. -/
structure CenterDispatched (m : UInt16 × Sent) (entry : UInt16 × Dispatch) : Prop where
  channel : entry.1 = m.1
  channelIndex : entry.2.channelIndex = m.1
  carries : entry.2.Carries m.2

/-- What a server of a type on channel `j` adds to its log for a packet: one dispatch on the back
    end for its own address, and for other addresses at most dispatches on the channels of
    the guests that they belong to. -/
def NodeDispatched (peerType : PeerType) (j : UInt16) (m : Option UInt16 × Sent)
    (part : List (ChannelPtr × Dispatch)) : Prop :=
  if m.2.destInfo = regInfo peerType j then
    ∃ packet, part = [(.backEnd, packet)] ∧ packet.Carries m.2
  else ∀ entry ∈ part, ∃ k, entry.1 = .frontEnd k ∧ peerType = .gateserver ∧
    m.2.destInfo = guestInfo j k ∧ entry.2.Carries m.2

section Dispatched

variable {peerType : PeerType} {j : UInt16} {m : Option UInt16 × Sent} {packet : Dispatch}

theorem nodeDispatched_own (h : m.2.destInfo = regInfo peerType j) (hcarries : packet.Carries m.2) :
    NodeDispatched peerType j m [(.backEnd, packet)] := by
  rw [NodeDispatched, if_pos h]
  exact ⟨packet, rfl, hcarries⟩

/-- What is added for one packet with the server's own address. -/
theorem nodeDispatched_singleton (h : m.2.destInfo = regInfo peerType j)
    {parts : List (List (ChannelPtr × Dispatch))}
    (hparts : List.Forall₂ (NodeDispatched peerType j) [m] parts) :
    ∃ packet, parts = [[(.backEnd, packet)]] ∧ packet.Carries m.2 := by
  obtain ⟨part, rest, hpart, hrest, rfl⟩ := List.forall₂_cons_left_iff.mp hparts
  rw [NodeDispatched, if_pos h] at hpart
  obtain ⟨packet, rfl, hcarries⟩ := hpart
  rw [List.forall₂_nil_left_iff.mp hrest]
  exact ⟨packet, rfl, hcarries⟩

theorem nodeDispatched_nothing (h : m.2.destInfo ≠ regInfo peerType j) :
    NodeDispatched peerType j m [] := by
  rw [NodeDispatched, if_neg h]
  exact fun _ hentry => nomatch hentry

theorem nodeDispatched_guest (hne : m.2.destInfo ≠ regInfo .gateserver j) {k : UInt16}
    (h : m.2.destInfo = guestInfo j k) (hcarries : packet.Carries m.2) :
    NodeDispatched .gateserver j m [(.frontEnd k, packet)] := by
  rw [NodeDispatched, if_neg hne, List.forall_mem_singleton]
  exact ⟨k, rfl, rfl, h, hcarries⟩

end Dispatched

section Frames

variable (adler32 : List UInt8 → UInt32) (heap : ℕ → UInt8) (host : Endian)
  (overread : Packet → Packet × Bool)

/-- The packet behind a `PacketBase` pointer that a receiver makes of what was sent. -/
def packetOf (s : Sent) : Packet := .s (s.received adler32 host)

theorem isFrame_of_mem {ss : List Sent} (hss : ∀ s ∈ ss, s.Sendable) :
    ∀ f ∈ ss.map (Sent.frame adler32 host), packetSplitter.IsFrame f := by
  intro f hf
  obtain ⟨s, hs, rfl⟩ := List.mem_map.mp hf
  exact packetSplitter_isFrame.mpr ((hss s hs).received_carries adler32 host).1

/-- All packets pass `is_valid`. -/
theorem accepted_frames {ss : List Sent} (hss : ∀ s ∈ ss, s.Sendable) :
    ((ss.map (Sent.frame adler32 host)).map (Packet.ofFrame heap false)).filterMap
      (Packet.accepted adler32 overread) = ss.map (packetOf adler32 host) := by
  induction ss with
  | nil => rfl
  | cons s ss ih =>
    obtain ⟨hs, hss⟩ := List.forall_mem_cons.mp hss
    obtain ⟨-, hvalid, -⟩ := hs.received_carries adler32 host
    have haccepted := Packet.accepted_server heap overread hvalid
    rw [List.map_cons, List.map_cons, List.filterMap_cons_some haccepted, ih hss, List.map_cons,
      packetOf]

/-- An arrival of some of the bytes on a link: some packets are complete, and are handed on; the
    others are still on the way. -/
theorem processMessage_wire {σ : Type} (build : Build) (fn : σ → Packet → Except Fault σ)
    {ss : List Sent} (hss : ∀ s ∈ ss, s.Sendable) {evbuf onTheWay : List UInt8}
    (h : evbuf ++ onTheWay = Sent.wire adler32 host ss) (st : σ) :
    ∃ n rest, rest ++ onTheWay = Sent.wire adler32 host (ss.drop n) ∧
      packetSplitter.next rest = none ∧
      processMessage build adler32 heap overread false fn evbuf [] st =
        (((ss.take n).map (packetOf adler32 host)).foldlM fn st >>= fun st =>
          .ok (rest, [], st)) := by
  obtain ⟨n, hframes, hrest⟩ :=
    packetSplitter.frames_of_append_eq_flatten (isFrame_of_mem adler32 host hss) h
  rw [← List.map_take] at hframes
  rw [← List.map_drop] at hrest
  refine ⟨n, packetSplitter.rest evbuf, hrest, packetSplitter.next_rest evbuf, ?_⟩
  rw [processMessage_eq build adler32 heap overread fn (fits_server build evbuf) st, hframes,
    accepted_frames adler32 heap host overread fun s hs => hss s (List.mem_of_mem_take hs)]

end Frames

/-! ### At the center -/

section AtCenter

variable (build : Build) (host : Endian) (adler32 : List UInt8 → UInt32) (net : NetServer)
  {i : UInt16} {front : NetChannel} (hindex : front.peerInfo.toUInt16 = i)
include hindex

/-- One packet is dispatched, or its bytes are put on the link of its next hop. -/
theorem centerFn_packetOf {s : Sent} (hs : s.Sendable) (out : CenterOutput) :
    ∃ out', centerFn build host net i front out (packetOf adler32 host s) = .ok out' ∧
      (∀ k, net.connected k = true →
        out'.1 k = out.1 k ++ if s.hop = some k then s.frame adler32 host else []) ∧
      ∃ part, out'.2 = out.2 ++ part ∧
        List.Forall₂ CenterDispatched (if s.hop = none then [(i, s)] else []) part := by
  obtain ⟨hframe, hvalid, hcarries⟩ := hs.received_carries adler32 host
  obtain ⟨ptr, hptr, hforward⟩ :=
    Center.forwardPacketOnFrontEnd_oneDest build net front hcarries
  obtain ⟨ptr', hptr', -, hbody⟩ := hcarries.body
  cases hptr.symm.trans hptr'
  have hbytes := GuestRouting.sentBytes_of_isValid hframe.2.1 hvalid
  rw [packetOf, centerFn, hforward, ok_bind, Sent.hop]
  cases hhop : Center.hopOf s.destInfo with
  | none =>
    refine ⟨_, rfl, fun k _ => (List.append_nil _).symm, [_], rfl, ?_⟩
    rw [if_pos rfl]
    exact .cons ⟨rfl, hindex, rfl, rfl, rfl, hbody⟩ .nil
  | some c =>
    rw [if_neg (Option.some_ne_none c)]
    dsimp only
    by_cases hconn : net.connected c = true
    · rw [if_pos hconn, hbytes]
      refine ⟨_, rfl, fun k _ => ?_, [], (List.append_nil _).symm, .nil⟩
      show Function.update out.1 c (out.1 c ++ s.frame adler32 host) k = _
      by_cases hk : k = c
      · subst hk
        rw [Function.update_self, if_pos rfl]
      · rw [Function.update_of_ne hk, if_neg fun heq => hk (Option.some.inj heq).symm,
          List.append_nil]
    · rw [if_neg hconn]
      refine ⟨_, rfl, fun k hk => ?_, [], (List.append_nil _).symm, .nil⟩
      have hne : some c ≠ some k := by
        rintro ⟨⟩
        exact hconn hk
      rw [if_neg hne, List.append_nil]
      rfl

/-- The packets of an arrival are dispatched, or put on the links of their next hops, in order. -/
theorem center_batch {ss : List Sent} (hss : ∀ s ∈ ss, s.Sendable) (out : CenterOutput) :
    ∃ out', (ss.map (packetOf adler32 host)).foldlM (centerFn build host net i front) out = .ok out' ∧
      (∀ k, net.connected k = true → out'.1 k = out.1 k ++
        Sent.wire adler32 host ((forwardedTo Sent.hop k (ss.map fun s => (i, s))).map Prod.snd)) ∧
      ∃ part, out'.2 = out.2 ++ part ∧ List.Forall₂ CenterDispatched
        ((ss.map fun s => (i, s)).filter fun m => m.2.hop = none) part := by
  induction ss generalizing out with
  | nil => exact ⟨out, rfl, fun k _ => (List.append_nil _).symm, [], (List.append_nil _).symm, .nil⟩
  | cons s ss ih =>
    obtain ⟨hs, hss⟩ := List.forall_mem_cons.mp hss
    obtain ⟨out₁, hturn, hlinks, part, hlog, hpart⟩ :=
      centerFn_packetOf build host adler32 net hindex hs out
    obtain ⟨out', hrest, hlinks', part', hlog', hpart'⟩ := ih hss out₁
    refine ⟨out', ?_, fun k hk => ?_, part ++ part', ?_, ?_⟩
    · rw [List.map_cons, List.foldlM_cons, hturn]
      exact hrest
    · rw [hlinks' k hk, hlinks k hk, List.append_assoc, List.map_cons, forwardedTo_cons,
        List.map_append, Sent.wire_append]
      by_cases hhop : s.hop = some k <;> simp [hhop, Sent.wire]
    · rw [hlog', hlog, List.append_assoc]
    · rw [List.map_cons, List.filter_cons]
      by_cases hhop : s.hop = none
      · rw [if_pos hhop] at hpart
        simpa [hhop] using List.rel_append hpart hpart'
      · rw [if_neg hhop] at hpart
        simpa [hhop] using List.rel_append hpart hpart'

end AtCenter

/-! ### At a gate or world server -/

/-- A packet with one destination takes one turn of the loop. -/
theorem GateServer.forwardPacketOnBackEnd_oneDest {build : Build} {host : Endian}
    {deliver : Dispatch → GateServer → Except Fault GateServer} (gate : GateServer)
    {pktS : PacketS} {dest : Word} (h : pktS.destinations build host = .ok [dest]) :
    gate.forwardPacketOnBackEnd build host deliver pktS =
      GateServer.forwardDest deliver pktS gate dest := by
  rw [GateServer.forwardPacketOnBackEnd, h, ok_bind, List.foldlM_cons]
  simp only [List.foldlM_nil, bind_pure]

theorem WorldServer.forwardPacketOnBackEnd_oneDest {build : Build} {host : Endian}
    {deliver : Dispatch → WorldServer → Except Fault WorldServer} (world : WorldServer)
    {pktS : PacketS} {dest : Word} (h : pktS.destinations build host = .ok [dest]) :
    world.forwardPacketOnBackEnd build host deliver pktS =
      WorldServer.forwardDest build deliver pktS world dest := by
  rw [WorldServer.forwardPacketOnBackEnd, h, ok_bind, List.foldlM_cons]
  simp only [List.foldlM_nil, bind_pure]

section AtNode

variable (build : Build) (host : Endian) (adler32 : List UInt8 → UInt32) {handlers : Handlers}
  {allowed : List UInt8 → Prop} (hkeep : handlers.Keep allowed) {j : UInt16}

/-- A server takes a packet without a failure: its handlers return, and no world server in a debug
    build gets a packet with the address of another one. -/
def Takes (build : Build) (handlers : Handlers) (allowed : List UInt8 → Prop)
    (peerType : PeerType) (j : UInt16) (s : Sent) : Prop :=
  handlers.Return allowed ∧
    (build = .release ∨ peerType = .gateserver ∨ s.destInfo = regInfo peerType j)

/-- The server is the same one, and has added a part to its log. -/
structure Turned (node : Node) (j : UInt16) (part : List (ChannelPtr × Dispatch))
    (node' : Node) : Prop where
  peerType : node'.peerType = node.peerType
  registeredAt : node'.RegisteredAt j
  log : node'.log = node.log ++ part

include hkeep

/-- A packet that a gate hands to a handler is one more entry of its log. -/
theorem gate_handOn {gate : GateServer} (hreg : gate.RegisteredAt j) (ptr : ChannelPtr)
    {packet : Dispatch} (hallowed : allowed packet.packetName) :
    Outcome.Ends (fun gate' => Turned (.gate gate) j [(ptr, packet)] (.gate gate'))
      (fun _ => ¬ handlers.Return allowed)
      (handlers.gate packet { gate with dispatched := gate.dispatched ++ [(ptr, packet)] }) := by
  obtain ⟨back, hback, hinfo⟩ := hreg.backEnd
  cases hrun : handlers.gate packet
      { gate with dispatched := gate.dispatched ++ [(ptr, packet)] } with
  | ok gate' =>
    obtain ⟨hkept, hlog⟩ := hkeep.gate hallowed hrun
    exact ⟨rfl, ⟨hreg.pos, hreg.lt, back, hkept.trans hback, hinfo⟩, hlog⟩
  | error e =>
    intro hreturn
    have hsome : gate.backEnd.isSome := by rw [hback]; rfl
    obtain ⟨gate', hok⟩ := hreturn.gate packet
      { gate with dispatched := gate.dispatched ++ [(ptr, packet)] } hallowed hsome
    exact nomatch hrun.symm.trans hok

theorem world_handOn {world : WorldServer} (hreg : world.RegisteredAt j) {packet : Dispatch}
    (hallowed : allowed packet.packetName) :
    Outcome.Ends (fun world' => Turned (.world world) j [(.backEnd, packet)] (.world world'))
      (fun _ => ¬ handlers.Return allowed)
      (handlers.world packet
        { world with dispatched := world.dispatched ++ [(.backEnd, packet)] }) := by
  obtain ⟨back, hback, hinfo⟩ := hreg
  cases hrun : handlers.world packet
      { world with dispatched := world.dispatched ++ [(.backEnd, packet)] } with
  | ok world' =>
    obtain ⟨hkept, hlog⟩ := hkeep.world hallowed hrun
    exact ⟨rfl, ⟨back, hkept.trans hback, hinfo⟩, hlog⟩
  | error e =>
    intro hreturn
    have hsome : world.backEnd.isSome := by rw [hback]; rfl
    obtain ⟨world', hok⟩ := hreturn.world packet
      { world with dispatched := world.dispatched ++ [(.backEnd, packet)] } hallowed hsome
    exact nomatch hrun.symm.trans hok

/-- What one packet does at a gate. -/
theorem gate_packetOf {gate : GateServer} (hreg : gate.RegisteredAt j) {m : Option UInt16 × Sent}
    (hs : m.2.Sendable) (hallowed : allowed m.2.msg.name) :
    Outcome.Ends (fun gate' => ∃ part, NodeDispatched .gateserver j m part ∧
        Turned (.gate gate) j part (.gate gate'))
      (fun _ => ¬ handlers.Return allowed)
      (gate.forwardPacketOnBackEnd build host handlers.gate (m.2.received adler32 host)) := by
  obtain ⟨hframe, hvalid, hcarries⟩ := hs.received_carries adler32 host
  obtain ⟨back, hback, hinfo⟩ := hreg.backEnd
  rw [GateServer.forwardPacketOnBackEnd_oneDest gate (hcarries.dests build)]
  -- the entry is the gate itself, one of its guests, one of its clients, or nobody it knows
  by_cases hown : m.2.destInfo = regInfo .gateserver j
  · obtain ⟨packet, hpacket, -, hpacketCarries⟩ := Center.dispatchLocal_carries back hcarries
    rw [← hpacketCarries.packetName] at hallowed
    rw [hown, GateServer.forwardDest_regInfo hback hinfo, hpacket, ok_bind]
    exact (gate_handOn hkeep hreg .backEnd hallowed).mono
      (fun gate' h => ⟨_, nodeDispatched_own hown hpacketCarries, h⟩) fun _ h => h
  have hnothing : ∃ part, NodeDispatched .gateserver j m part ∧
      Turned (.gate gate) j part (.gate gate) :=
    ⟨[], nodeDispatched_nothing hown, rfl, hreg, (List.append_nil _).symm⟩
  by_cases hguest : ∃ k, m.2.destInfo = guestInfo j k
  · obtain ⟨k, hk⟩ := hguest
    rw [hk]
    rcases Option.eq_none_or_eq_some (gate.frontEnd.getChannel k) with hgone | ⟨channel, hfound⟩
    · rw [GateServer.forwardDest_guestInfo_none hback hinfo hreg.pos hreg.lt hgone, hcarries.name,
        ok_bind]
      exact hnothing
    · obtain ⟨packet, hpacket, -, hpacketCarries⟩ := Center.dispatchLocal_carries channel hcarries
      rw [← hpacketCarries.packetName] at hallowed
      rw [GateServer.forwardDest_guestInfo hback hinfo hreg.pos hreg.lt hfound, hpacket, ok_bind]
      exact (gate_handOn hkeep hreg (.frontEnd k) hallowed).mono
        (fun gate' h => ⟨_, nodeDispatched_guest hown hk hpacketCarries, h⟩) fun _ h => h
  by_cases hclient : ∃ k, m.2.destInfo = clientInfo j k
  · obtain ⟨k, hk⟩ := hclient
    rw [hk, GateServer.forwardDest_clientInfo hback hinfo hreg.lt]
    split
    · exact hnothing
    · next channel hfound =>
      split
      · rw [read_ok (GuestRouting.data_le_of_isValid hframe.2.1 hvalid), ok_bind]
        refine ⟨[], nodeDispatched_nothing hown, rfl, ⟨hreg.pos, hreg.lt, back, ?_, hinfo⟩, ?_⟩
        · exact (PacketProcessor.write_backEnd ..).trans hback
        · exact (PacketProcessor.write_dispatched ..).trans (List.append_nil _).symm
      · exact hnothing
  · have hguest' : ∀ k, m.2.destInfo ≠ guestInfo j k := fun k heq => hguest ⟨k, heq⟩
    have hclient' : ∀ k, m.2.destInfo ≠ clientInfo j k := fun k heq => hclient ⟨k, heq⟩
    have hname : GateServer.destName (m.2.received adler32 host) m.2.destInfo =
        .ok (if PeerInfo.getPeerType m.2.destInfo = .gateserver then m.2.msg.name else []) := by
      by_cases ht : PeerInfo.getPeerType m.2.destInfo = .gateserver
      · rw [GateServer.destName_of_eq _ ht, hcarries.name, if_pos ht]
      · rw [GateServer.destName_of_ne _ ht, if_neg ht]
    rw [GateServer.forwardDest_nobody hback hinfo hreg.lt hown hguest' hclient', hname, ok_bind]
    exact hnothing

/-- What one packet does at a world server. -/
theorem world_packetOf {world : WorldServer} (hreg : world.RegisteredAt j)
    {m : Option UInt16 × Sent} (hs : m.2.Sendable) (hallowed : allowed m.2.msg.name) :
    Outcome.Ends (fun world' => ∃ part, NodeDispatched .worldserver j m part ∧
        Turned (.world world) j part (.world world'))
      (fun _ => ¬ (handlers.Return allowed ∧
        (build = .release ∨ m.2.destInfo = regInfo .worldserver j)))
      (world.forwardPacketOnBackEnd build host handlers.world (m.2.received adler32 host)) := by
  obtain ⟨-, -, hcarries⟩ := hs.received_carries adler32 host
  obtain ⟨back, hback, hinfo⟩ := id hreg
  rw [WorldServer.forwardPacketOnBackEnd_oneDest world (hcarries.dests build),
    Selection.forwardDest_world hback, hinfo]
  by_cases hown : m.2.destInfo = regInfo .worldserver j
  · obtain ⟨packet, hpacket, -, hpacketCarries⟩ := Center.dispatchLocal_carries back hcarries
    rw [← hpacketCarries.packetName] at hallowed
    rw [if_pos hown.symm, hpacket, ok_bind]
    exact (world_handOn hkeep hreg hallowed).mono
      (fun world' h => ⟨_, nodeDispatched_own hown hpacketCarries, h⟩) fun _ h hall => h hall.1
  · rw [if_neg (Ne.symm hown)]
    cases build with
    | debug =>
      rintro ⟨-, hbuild | heq⟩
      · cases hbuild
      · exact hown heq
    | release => exact ⟨[], nodeDispatched_nothing hown, rfl, hreg, (List.append_nil _).symm⟩

/-- What one packet does at a server. -/
theorem node_packetOf {node : Node} (hreg : node.RegisteredAt j) {m : Option UInt16 × Sent}
    (hs : m.2.Sendable) (hallowed : allowed m.2.msg.name) :
    Outcome.Ends (fun node' => ∃ part, NodeDispatched node.peerType j m part ∧
        Turned node j part node')
      (fun _ => ¬ Takes build handlers allowed node.peerType j m.2)
      (node.forwardPacketOnBackEnd build host handlers (packetOf adler32 host m.2)) := by
  cases node with
  | gate gate =>
    refine ((gate_packetOf build host adler32 hkeep hreg hs hallowed).mono (fun _ h => h)
      fun _ hfail htakes => hfail htakes.1).bind fun gate' h => ?_
    exact h
  | world world =>
    have hnot : Node.peerType (.world world) ≠ .gateserver := nofun
    refine ((world_packetOf build host adler32 hkeep hreg hs hallowed).mono (fun _ h => h)
      fun _ hfail htakes => hfail ⟨htakes.1, ?_⟩).bind fun world' h => ?_
    · exact htakes.2.imp_right fun h => h.resolve_left hnot
    · exact h

/-- What the packets of an arrival do at a server, in order. -/
theorem node_batch {node : Node} (hreg : node.RegisteredAt j) {ms : List (Option UInt16 × Sent)}
    (hms : ∀ m ∈ ms, m.2.Sendable ∧ allowed m.2.msg.name) :
    Outcome.Ends (fun node' => ∃ parts,
        List.Forall₂ (NodeDispatched node.peerType j) ms parts ∧ Turned node j parts.flatten node')
      (fun _ => ¬ ∀ m ∈ ms, Takes build handlers allowed node.peerType j m.2)
      ((ms.map fun m => packetOf adler32 host m.2).foldlM
        (Node.forwardPacketOnBackEnd build host handlers) node) := by
  induction ms generalizing node with
  | nil => exact ⟨[], .nil, rfl, hreg, (List.append_nil _).symm⟩
  | cons m ms ih =>
    obtain ⟨⟨hs, hallowed⟩, hms⟩ := List.forall_mem_cons.mp hms
    rw [List.map_cons, List.foldlM_cons]
    refine ((node_packetOf build host adler32 hkeep hreg hs hallowed).mono (fun _ h => h)
      fun _ hfail hall => hfail (hall m List.mem_cons_self)).bind ?_
    rintro node' ⟨part, hpart, hturned⟩
    have hrest := ih hturned.registeredAt hms
    rw [hturned.peerType] at hrest
    refine hrest.mono ?_ fun _ hfail hall =>
      hfail fun m hm => hall m (List.mem_cons_of_mem _ hm)
    rintro node'' ⟨parts, hparts, hturned'⟩
    refine ⟨part :: parts, .cons hpart hparts, hturned'.peerType.trans hturned.peerType,
      hturned'.registeredAt, ?_⟩
    rw [hturned'.log, hturned.log, List.flatten_cons, List.append_assoc]

end AtNode

end Cluster

end TerraX
