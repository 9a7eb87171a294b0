import TerraX.CenterServer.ConnectionManager
import TerraX.Lib.Link
import TerraX.Lib.Run

/-!
# The handshake between the center and its servers

Any number of gate and world servers connect to the center, and each sends its register
request once. The packets of a server wait for the center in one queue, and those of the
center for the server on a link; the servers take their turns in any order.

A server is `(type, 0, 0)` to itself and `(undefine, 0, channel)` to the center, until the
request and its ack make it `(type, 0, channel)` on both sides. The ack is still addressed
to `(type, 0, 0)`, and everything behind it to `(type, 0, channel)`.

## Main definitions

- `Registration.system` — the events, and what they do
- `Registration.Waiting`, `Registration.Joined` — a connection before and after its request
- `Registration.Inv` — the invariant

## Main results

- `Registration.step_inv` — every event keeps the invariant, and no assertion fails
- `Registration.peerInfos_agree` — the peer infos on both sides, and what is dispatched
-/

namespace TerraX

open Memory Fifo ServerInfos ServerManagerCenter

namespace Registration

/-- The center, the packets on the way to it by channel, and the servers with the packets on
    the way to them. -/
structure State where
  center : CenterState
  requests : UInt16 → List ServerPacket
  links : UInt16 → Option (Link ServerPacket Server)

inductive Event
  | connect (peerType : PeerType)
  | login (channelIndex : UInt16)
  | centerReceive (channelIndex : UInt16)
  | serverReceive (channelIndex : UInt16)
deriving DecidableEq, Repr

variable (build : Build) (maxConns : UInt16) (clients : NetServer)

/-- `CenterServer::InitNetModule`. -/
def init : State where
  center := ⟨.new maxConns,
    (onServerAdded (fun _ => none) (PeerInfo.serialize { peerType := .centerserver })).1⟩
  requests := fun _ => []
  links := fun _ => none

/-- Gate and world servers connect, and each logs in once. -/
def enabled (s : State) : Event → Prop
  | .connect peerType => peerType = .gateserver ∨ peerType = .worldserver
  | .login c => ∃ l, s.links c = some l ∧ l.receiver.loggedIn = false
  | .centerReceive c => s.requests c ≠ []
  | .serverReceive c => ∃ l, s.links c = some l ∧ l.pending ≠ []

def step (s : State) : Event → Except Fault State
  | .connect peerType =>
    match s.center.frontEnd.onConnect with
    | (_, none) => .ok s
    | (frontEnd, some c) => .ok
      { s with
        center := ⟨frontEnd, s.center.infos⟩
        links := Function.update s.links c (some ⟨[], .connect peerType clients⟩) }
  | .login c =>
    match s.links c with
    | none => .ok s
    | some l => .ok
      { s with
        requests := Function.update s.requests c (s.requests c ++
          if l.receiver.backEnd.sendMsg then [Server.login2Center l.receiver.peerType] else [])
        links := Function.update s.links c (some { l with
          receiver := { l.receiver with loggedIn := true } }) }
  | .centerReceive c =>
    match s.requests c, s.center.frontEnd.getChannel c with
    | pkt :: requests, some channel => do
      let (center, sent) ← s.center.receive build channel pkt
      return ⟨center, Function.update s.requests c requests, post s.links sent⟩
    | _, _ => .ok s
  | .serverReceive c =>
    match s.links c with
    | none => .ok s
    | some l => do
      let l ← l.deliver (Server.receive build)
      return { s with links := Function.update s.links c (some l) }

def system : Run.System State Event Fault := ⟨init maxConns, enabled, step build clients⟩

/-! ### The invariant -/

/-- A packet with news for the server of type `t` on channel `c`. -/
structure SyncTo (t : PeerType) (c : UInt16) (pkt : ServerPacket) : Prop where
  dest : pkt.destInfo = regInfo t c
  msg : ∃ sync, pkt.msg = .pktServerSync sync ∧ sync.type = .add

/-- A connection whose request the center has not handled. -/
structure Waiting (c : UInt16) (channel : NetChannel) (requests : List ServerPacket)
    (l : Link ServerPacket Server) : Prop where
  pending : l.pending = []
  received : l.receiver.received = []
  requests : requests =
    if l.receiver.loggedIn then [Server.login2Center l.receiver.peerType] else []
  server : l.receiver.backEnd.peerInfo = PeerInfo.serialize { peerType := l.receiver.peerType }
  center : channel.peerInfo = PeerInfo.serialize { channelIndex := c }

/-- A connection whose request the center has handled: of all packets to the server the ack
    is the first, and the others are news. -/
structure Joined (c : UInt16) (channel : NetChannel) (requests : List ServerPacket)
    (l : Link ServerPacket Server) : Prop where
  packets : ∃ syncs, l.receiver.received.map Prod.fst ++ l.pending =
    ackPacket l.receiver.peerType c :: syncs ∧ ∀ pkt ∈ syncs, SyncTo l.receiver.peerType c pkt
  dispatched : ∀ entry ∈ l.receiver.received, entry.2 = .backEnd
  loggedIn : l.receiver.loggedIn = true
  requests : requests = []
  server : l.receiver.backEnd.peerInfo =
    if l.receiver.received = [] then PeerInfo.serialize { peerType := l.receiver.peerType }
    else regInfo l.receiver.peerType c
  center : channel.peerInfo = regInfo l.receiver.peerType c

/-- What holds of one connection: the center has its channel, and the registry its peer info
    from the moment the request has been handled. -/
structure Connection (center : CenterState) (c : UInt16) (requests : List ServerPacket)
    (l : Link ServerPacket Server) (channel : NetChannel) : Prop where
  server : l.receiver.peerType = .gateserver ∨ l.receiver.peerType = .worldserver
  sends : l.receiver.backEnd.sendMsg = true
  found : center.frontEnd.getChannel c = some channel
  connected : channel.connState = .connected
  stage : Waiting c channel requests l ∨
    (Joined c channel requests l ∧
      regInfo l.receiver.peerType c ∈ center.infos.known l.receiver.peerType)

/-- The invariant. -/
structure Inv (center : CenterState) (requests : UInt16 → List ServerPacket)
    (links : UInt16 → Option (Link ServerPacket Server)) : Prop where
  indexed : center.frontEnd.Indexed
  typed : center.infos.WellTyped
  linked : ∀ c channel, center.frontEnd.getChannel c = some channel → (links c).isSome
  unlinked : ∀ c, links c = none → requests c = []
  connections : ∀ c l, links c = some l → ∃ channel, Connection center c (requests c) l channel
  registry : ∀ t w, w ∈ center.infos.known t → (t = .centerserver ∧ w = regInfo t 0) ∨
    ∃ c l channel, links c = some l ∧ Joined c channel (requests c) l ∧
      l.receiver.peerType = t ∧ w = regInfo t c

section Connections

variable {c : UInt16} {channel : NetChannel} {requests : List ServerPacket}
  {l : Link ServerPacket Server}

theorem Waiting.not_joined (h : Waiting c channel requests l) {channel' : NetChannel}
    {requests' : List ServerPacket} : ¬ Joined c channel' requests' l := by
  intro hjoined
  obtain ⟨syncs, hpackets, -⟩ := hjoined.packets
  rw [h.received, h.pending] at hpackets
  cases hpackets

theorem Joined.send (h : Joined c channel requests l) {pkts : List ServerPacket}
    (hpkts : ∀ pkt ∈ pkts, SyncTo l.receiver.peerType c pkt) :
    Joined c channel requests (l.send pkts) := by
  obtain ⟨syncs, hpackets, hsyncs⟩ := h.packets
  refine ⟨⟨syncs ++ pkts, ?_, fun pkt hpkt => ?_⟩, h.dispatched, h.loggedIn, h.requests, h.server,
    h.center⟩
  · rw [Link.send, ← List.append_assoc, hpackets, List.cons_append]
  · rcases List.mem_append.mp hpkt with hpkt | hpkt
    · exact hsyncs pkt hpkt
    · exact hpkts pkt hpkt

/-- The server dispatches the next packet: the ack while it still has its old peer info, and
    everything else when it has the new one. -/
theorem Joined.receive (build : Build) {srv : Server} {pkt : ServerPacket}
    {pending : List ServerPacket} (h : Joined c channel requests ⟨pkt :: pending, srv⟩) :
    ∃ srv', srv.receive build pkt = .ok srv' ∧ Joined c channel requests ⟨pending, srv'⟩ ∧
      srv'.peerType = srv.peerType ∧ srv'.backEnd.connState = srv.backEnd.connState ∧
      srv'.received = srv.received ++ [(pkt, .backEnd)] := by
  obtain ⟨syncs, hpackets, hsyncs⟩ := h.packets
  have hserver := h.server
  dsimp only at hpackets hsyncs hserver
  -- The peer info of the back end changes with the first packet, and with no other.
  cases hreceived : srv.received with
  | nil =>
    rw [hreceived, List.map_nil, List.nil_append] at hpackets
    rw [if_pos hreceived] at hserver
    obtain ⟨rfl, rfl⟩ := List.cons.inj hpackets
    have hdest : srv.backEnd.getPeerInfo = (ackPacket srv.peerType c).destInfo := hserver
    have hreceive := Server.receive_registerAck build hdest (PeerInfo.getPeerType_serialize _) rfl
    rw [hreceived, List.nil_append] at hreceive
    refine ⟨_, hreceive, ?_, rfl, rfl, rfl⟩
    refine ⟨⟨pending, rfl, hsyncs⟩, fun entry hentry => ?_, h.loggedIn, h.requests, rfl, h.center⟩
    rw [List.mem_singleton.mp hentry]
  | cons first more =>
    have hpkt : pkt ∈ syncs := by
      rw [hreceived, List.map_cons, List.cons_append] at hpackets
      rw [← (List.cons.inj hpackets).2]
      exact List.mem_append_right _ List.mem_cons_self
    rw [hreceived, if_neg (List.cons_ne_nil _ _)] at hserver
    obtain ⟨hdest, sync, hmsg, hadd⟩ := hsyncs pkt hpkt
    obtain ⟨infos, hreceive⟩ := Server.receive_serverSync build (hserver.trans hdest.symm)
      (by rw [hdest, getPeerType_regInfo]) hmsg hadd
    rw [← hreceived]
    refine ⟨_, hreceive, ?_, rfl, rfl, rfl⟩
    refine ⟨⟨syncs, ?_, hsyncs⟩, fun entry hentry => ?_, h.loggedIn, h.requests, ?_, h.center⟩
    · simpa using hpackets
    · rcases List.mem_append.mp hentry with hentry | hentry
      · exact h.dispatched entry hentry
      · rw [List.mem_singleton.mp hentry]
    · rw [if_neg (List.append_ne_nil_of_right_ne_nil _ (List.cons_ne_nil _ _))]
      exact hserver

theorem Connection.isServer {center : CenterState}
    (h : Connection center c requests l channel) : IsServer l.receiver.peerType := by
  rcases h.server with htype | htype
  · exact Or.inl htype
  · exact Or.inr (Or.inr htype)

/-- What happens to other channels and what is added to the registry does not matter. -/
theorem Connection.congr {center center' : CenterState}
    (h : Connection center c requests l channel)
    (hfound : center'.frontEnd.getChannel c = center.frontEnd.getChannel c)
    (hknown : ∀ t w, w ∈ center.infos.known t → w ∈ center'.infos.known t) :
    Connection center' c requests l channel := by
  refine ⟨h.server, h.sends, hfound.trans h.found, h.connected, ?_⟩
  rcases h.stage with hwaiting | ⟨hjoined, hmem⟩
  · exact Or.inl hwaiting
  · exact Or.inr ⟨hjoined, hknown _ _ hmem⟩

end Connections

/-! ### The steps -/

variable {build maxConns clients} {s : State}

theorem init_inv : Inv (init maxConns).center (init maxConns).requests (init maxConns).links where
  indexed := NetServer.new_indexed maxConns
  typed := WellTyped.add (fun _ _ hw => absurd hw (Finset.notMem_empty _)) _
  linked _ _ h := nomatch h
  unlinked _ _ := rfl
  connections _ _ h := nomatch h
  registry t w hw := by
    rcases mem_known_add.mp hw with hw | ⟨rfl, ht⟩
    · exact absurd hw (Finset.notMem_empty w)
    · rw [PeerInfo.getPeerType_serialize] at ht
      exact Or.inl ⟨ht.symm, by rw [← ht]; rfl⟩

/-- A channel that the center has just accepted. -/
theorem waiting_connect (c : UInt16) (peerType : PeerType) :
    Waiting c (NetChannel.setChannelIndex { connState := .connected } c) []
      ⟨[], .connect peerType clients⟩ where
  pending := rfl
  received := rfl
  requests := rfl
  server := NetChannel.peerInfo_setPeerType ..
  center := NetChannel.peerInfo_setChannelIndex ..

theorem connect_inv (h : Inv s.center s.requests s.links) {peerType : PeerType}
    (htype : peerType = .gateserver ∨ peerType = .worldserver) :
    ∃ s', step build clients s (.connect peerType) = .ok s' ∧
      Inv s'.center s'.requests s'.links := by
  rcases s.center.frontEnd.onConnect_cases with hnone | ⟨c, freeIndexes, hfree, hsome⟩
  · exact ⟨s, by simp only [step, hnone], h⟩
  · obtain ⟨-, hnew⟩ := h.indexed.free c (by rw [hfree]; exact List.mem_cons_self)
    have hold : ∀ c' l, s.links c' = some l → c' ≠ c := by
      rintro c' l hl rfl
      obtain ⟨channel, hconn⟩ := h.connections c' l hl
      have hfound := hconn.found
      rw [hnew] at hfound
      cases hfound
    have hlink : s.links c = none := Option.eq_none_iff_forall_ne_some.mpr fun l hl => hold c l hl rfl
    refine ⟨_, by simp only [step, hsome]; rfl, ?_⟩
    dsimp only
    refine ⟨h.indexed.connect hfree _, h.typed, fun c' channel hfound => ?_, fun c' hc' => ?_,
      fun c' l hl => ?_, fun t w hw => ?_⟩
    · by_cases hc : c' = c
      · rw [hc, Function.update_self]
        rfl
      · rw [Function.update_of_ne hc]
        exact h.linked c' channel ((Function.update_of_ne hc ..).symm.trans hfound)
    · by_cases hc : c' = c
      · rw [hc]
        exact h.unlinked c hlink
      · rw [Function.update_of_ne hc] at hc'
        exact h.unlinked c' hc'
    · by_cases hc : c' = c
      · subst hc
        rw [Function.update_self] at hl
        cases hl
        rw [h.unlinked c' hlink]
        exact ⟨_, htype, rfl, Function.update_self .., rfl, Or.inl (waiting_connect c' peerType)⟩
      · rw [Function.update_of_ne hc] at hl
        obtain ⟨channel, hconn⟩ := h.connections c' l hl
        exact ⟨channel, hconn.congr (Function.update_of_ne hc ..) fun _ _ hw => hw⟩
    · rcases h.registry t w hw with ht | ⟨c', l, channel, hl, hjoined⟩
      · exact Or.inl ht
      · refine Or.inr ⟨c', l, channel, ?_, hjoined⟩
        rw [Function.update_of_ne (hold c' l hl)]
        exact hl

/-- A step of one connection: the others, and the registry, stay as they are. -/
theorem Inv.update (h : Inv s.center s.requests s.links) {c : UInt16}
    {l l' : Link ServerPacket Server} {requests' : List ServerPacket} {channel : NetChannel}
    (hl : s.links c = some l) (hconn : Connection s.center c requests' l' channel)
    (htype : l'.receiver.peerType = l.receiver.peerType)
    (hjoined : ∀ channel, Joined c channel (s.requests c) l →
      ∃ channel', Joined c channel' requests' l') :
    Inv s.center (Function.update s.requests c requests')
      (Function.update s.links c (some l')) := by
  refine ⟨h.indexed, h.typed, fun k channel' hfound => ?_, fun k hk => ?_, fun k lk hlk => ?_,
    fun t w hw => ?_⟩
  · by_cases hkc : k = c
    · rw [hkc, Function.update_self]
      rfl
    · rw [Function.update_of_ne hkc]
      exact h.linked k channel' hfound
  · by_cases hkc : k = c
    · rw [hkc, Function.update_self] at hk
      cases hk
    · rw [Function.update_of_ne hkc] at hk ⊢
      exact h.unlinked k hk
  · by_cases hkc : k = c
    · subst hkc
      rw [Function.update_self] at hlk ⊢
      cases hlk
      exact ⟨channel, hconn⟩
    · rw [Function.update_of_ne hkc] at hlk ⊢
      exact h.connections k lk hlk
  · rcases h.registry t w hw with ht | ⟨k, lk, chk, hlk, hjoinedK, hlt, hreg⟩
    · exact Or.inl ht
    · by_cases hkc : k = c
      · subst hkc
        rw [hl] at hlk
        cases hlk
        obtain ⟨channel', hjoined'⟩ := hjoined chk hjoinedK
        refine Or.inr ⟨k, l', channel', Function.update_self .., ?_, htype.trans hlt, hreg⟩
        rwa [Function.update_self]
      · refine Or.inr ⟨k, lk, chk, (Function.update_of_ne hkc ..).trans hlk, ?_, hlt, hreg⟩
        rwa [Function.update_of_ne hkc]

theorem login_inv (h : Inv s.center s.requests s.links) {c : UInt16}
    (henabled : enabled s (.login c)) :
    ∃ s', step build clients s (.login c) = .ok s' ∧ Inv s'.center s'.requests s'.links := by
  obtain ⟨l, hl, hlogged⟩ := henabled
  obtain ⟨channel, hconn⟩ := h.connections c l hl
  have hwaiting : Waiting c channel (s.requests c) l := by
    rcases hconn.stage with hwaiting | ⟨hjoined, -⟩
    · exact hwaiting
    · rw [hjoined.loggedIn] at hlogged
      cases hlogged
  have hrequests : s.requests c = [] := by
    rw [hwaiting.requests, hlogged]
    rfl
  refine ⟨_, by simp only [step, hl]; rfl, ?_⟩
  dsimp only
  rw [hrequests, hconn.sends]
  have hconn' : Connection s.center c ([] ++ [Server.login2Center l.receiver.peerType])
      { l with receiver := { l.receiver with loggedIn := true } } channel :=
    ⟨hconn.server, hconn.sends, hconn.found, hconn.connected,
      Or.inl ⟨hwaiting.pending, hwaiting.received, rfl, hwaiting.server, hwaiting.center⟩⟩
  exact h.update hl hconn' rfl fun _ hjoined => absurd hjoined hwaiting.not_joined

/-- A server takes the oldest packet on its link. -/
theorem serverReceive_eq (build : Build) (clients : NetServer) (h : Inv s.center s.requests s.links)
    {c : UInt16} {pkt : ServerPacket} {pending : List ServerPacket} {srv : Server}
    (hl : s.links c = some ⟨pkt :: pending, srv⟩) :
    ∃ srv', step build clients s (.serverReceive c) =
        .ok { s with links := Function.update s.links c (some ⟨pending, srv'⟩) } ∧
      Inv s.center s.requests (Function.update s.links c (some ⟨pending, srv'⟩)) ∧
      srv'.peerType = srv.peerType ∧ srv'.received = srv.received ++ [(pkt, .backEnd)] := by
  obtain ⟨channel, hconn⟩ := h.connections c _ hl
  obtain ⟨hjoined, hmem⟩ : Joined c channel (s.requests c) ⟨pkt :: pending, srv⟩ ∧
      regInfo srv.peerType c ∈ s.center.infos.known srv.peerType := by
    rcases hconn.stage with hwaiting | hjoined
    · exact absurd hwaiting.pending (List.cons_ne_nil _ _)
    · exact hjoined
  obtain ⟨srv', hreceive, hjoined', htype, hstate, hreceived⟩ := hjoined.receive build
  refine ⟨srv', ?_, ?_, htype, hreceived⟩
  · simp only [step, hl, Link.deliver_cons pending hreceive]
    rfl
  · have hconn' : Connection s.center c (s.requests c) ⟨pending, srv'⟩ channel := by
      refine ⟨htype ▸ hconn.server, ?_, hconn.found, hconn.connected,
        Or.inr ⟨hjoined', htype ▸ hmem⟩⟩
      rw [NetChannel.sendMsg, hstate]
      exact hconn.sends
    have hinv := h.update hl hconn' htype fun _ _ => ⟨channel, hjoined'⟩
    rwa [Function.update_eq_self] at hinv

theorem serverReceive_inv (h : Inv s.center s.requests s.links) {c : UInt16}
    (henabled : enabled s (.serverReceive c)) :
    ∃ s', step build clients s (.serverReceive c) = .ok s' ∧
      Inv s'.center s'.requests s'.links := by
  obtain ⟨⟨pending, srv⟩, hl, hpending⟩ := henabled
  obtain ⟨pkt, pending, rfl⟩ := List.exists_cons_of_ne_nil hpending
  obtain ⟨srv', hstep, hinv, -⟩ := serverReceive_eq build clients h hl
  exact ⟨_, hstep, hinv⟩

/-- Of the packets behind the ack, all are news, for the new server or for one that has
    joined before. -/
def News (s : State) (c : UInt16) (peerType : PeerType) (rest : List (UInt16 × ServerPacket)) :
    Prop :=
  ∀ k pkt, pkt ∈ sentTo k rest → (k = c ∧ SyncTo peerType c pkt) ∨
    ∃ l channel, s.links k = some l ∧ Joined k channel (s.requests k) l ∧
      SyncTo l.receiver.peerType k pkt

theorem news_of_onServerAdded (h : Inv s.center s.requests s.links) {c : UInt16}
    {peerType : PeerType} (htype : IsServer peerType) {rest : List (UInt16 × ServerPacket)}
    (hrest : ∀ x ∈ rest, ∃ o ∈ (onServerAdded s.center.infos (regInfo peerType c)).2,
      x = (o.channelIndex, ⟨o.destInfo, o.ownerInfo, .pktServerSync o.msg⟩)) :
    News s c peerType rest := by
  intro k pkt hpkt
  obtain ⟨x, hx, hk⟩ := List.mem_filterMap.mp hpkt
  obtain ⟨o, ho, rfl⟩ := hrest x hx
  obtain ⟨hdest, hchannel, hadd⟩ := onServerAdded_outgoing h.typed (by rwa [getPeerType_regInfo]) ho
  by_cases hok : o.channelIndex = k
  · rw [if_pos hok] at hk
    cases hk
    rcases hdest with hdest | ⟨t, ht, hknown⟩
    · refine Or.inl ⟨?_, hdest, o.msg, rfl, hadd⟩
      rw [← hok, hchannel, hdest, getChannelIndex_regInfo]
    · -- The registry has no peer info of a server type but those of joined servers.
      rcases h.registry t _ hknown with ⟨rfl, -⟩ | ⟨c', l, channel, hl, hjoined, hlt, hreg⟩
      · exact absurd ht (by decide)
      · have hc' : c' = k := by rw [← hok, hchannel, hreg, getChannelIndex_regInfo]
        subst hc'
        exact Or.inr ⟨l, channel, hl, hjoined, by rw [hlt]; exact hreg, o.msg, rfl, hadd⟩
  · rw [if_neg hok] at hk
    cases hk

section News

variable {c k : UInt16} {channel chk : NetChannel} {l lk : Link ServerPacket Server}
  {rest : List (UInt16 × ServerPacket)}

/-- The new server has joined: its link gets the ack first, and then only news. -/
theorem News.joined_new (hnews : News s c l.receiver.peerType rest) (hl : s.links c = some l)
    (hwaiting : Waiting c channel (s.requests c) l) (hlogged : l.receiver.loggedIn = true) :
    Joined c (channel.setPeerType l.receiver.peerType) []
      (l.send (ackPacket l.receiver.peerType c :: sentTo c rest)) := by
  refine ⟨⟨sentTo c rest, ?_, fun pkt hpkt => ?_⟩, fun entry hentry => ?_, hlogged, rfl, ?_, ?_⟩
  · rw [Link.send, hwaiting.received, hwaiting.pending]
    rfl
  · rcases hnews c pkt hpkt with ⟨-, hsync⟩ | ⟨lc, channel', hlc, hjoined, -⟩
    · exact hsync
    · rw [hl] at hlc
      cases hlc
      exact absurd hjoined hwaiting.not_joined
  · rw [Link.send, hwaiting.received] at hentry
    cases hentry
  · rw [Link.send, hwaiting.received, if_pos rfl]
    exact hwaiting.server
  · rw [NetChannel.peerInfo_setPeerType, NetChannel.getPeerIndex, NetChannel.getChannelIndex,
      hwaiting.center, PeerInfo.getPeerIndex_serialize, PeerInfo.getChannelIndex_serialize]
    rfl

/-- A server that has joined before gets nothing but news. -/
theorem News.joined_old {peerType : PeerType} (hnews : News s c peerType rest)
    (hlk : s.links k = some lk) (hk : k ≠ c) (hjoined : Joined k chk (s.requests k) lk) :
    Joined k chk (s.requests k) (lk.send (sentTo k rest)) := by
  refine hjoined.send fun pkt hpkt => ?_
  rcases hnews k pkt hpkt with ⟨hkc, -⟩ | ⟨lk', channel', hlk', -, hsync⟩
  · exact absurd hkc hk
  · rw [hlk] at hlk'
    cases hlk'
    exact hsync

/-- A server that waits gets nothing. -/
theorem News.waiting_old {peerType : PeerType} (hnews : News s c peerType rest)
    (hlk : s.links k = some lk) (hk : k ≠ c) (hwaiting : Waiting k chk (s.requests k) lk) :
    sentTo k rest = [] := by
  refine List.eq_nil_iff_forall_not_mem.mpr fun pkt hpkt => ?_
  rcases hnews k pkt hpkt with ⟨hkc, -⟩ | ⟨lk', channel', hlk', hjoined, -⟩
  · exact hk hkc
  · rw [hlk] at hlk'
    cases hlk'
    exact hwaiting.not_joined hjoined

/-- The other connections stay what they were. -/
theorem News.connection_old {peerType : PeerType} (hnews : News s c peerType rest)
    (hlk : s.links k = some lk) (hk : k ≠ c) (hconn : Connection s.center k (s.requests k) lk chk) :
    Connection ⟨s.center.frontEnd.setChannel c channel, s.center.infos.add (regInfo peerType c)⟩ k
      (s.requests k) (lk.send (sentTo k rest)) chk := by
  refine ⟨hconn.server, hconn.sends, ?_, hconn.connected, ?_⟩
  · rw [NetServer.getChannel_setChannel, if_neg hk]
    exact hconn.found
  · rcases hconn.stage with hwaiting | ⟨hjoined, hmem⟩
    · rw [hnews.waiting_old hlk hk hwaiting, Link.send, List.append_nil]
      exact Or.inl hwaiting
    · exact Or.inr ⟨hnews.joined_old hlk hk hjoined, mem_known_add.mpr (Or.inl hmem)⟩

/-- What the registry has is what it had before, or the entry of the new server. -/
theorem News.registry {links' : UInt16 → Option (Link ServerPacket Server)}
    (hnews : News s c l.receiver.peerType rest) (h : Inv s.center s.requests s.links)
    (hl : s.links c = some l) (hwaiting : Waiting c channel (s.requests c) l)
    (hnew : Joined c (channel.setPeerType l.receiver.peerType) []
      (l.send (ackPacket l.receiver.peerType c :: sentTo c rest)))
    (hpost : ∀ k lk, s.links k = some lk → links' k = some (lk.send
      ((if c = k then [ackPacket l.receiver.peerType c] else []) ++ sentTo k rest)))
    {t : PeerType} {w : Word}
    (hw : w ∈ (s.center.infos.add (regInfo l.receiver.peerType c)).known t) :
    (t = .centerserver ∧ w = regInfo t 0) ∨ ∃ k lk chk, links' k = some lk ∧
      Joined k chk (Function.update s.requests c [] k) lk ∧ lk.receiver.peerType = t ∧
        w = regInfo t k := by
  rcases mem_known_add.mp hw with hw | ⟨rfl, ht⟩
  · rcases h.registry t w hw with ht | ⟨k, lk, chk, hlk, hjoinedK, hlt, hreg⟩
    · exact Or.inl ht
    · have hk : k ≠ c := by
        rintro rfl
        rw [hl] at hlk
        cases hlk
        exact hwaiting.not_joined hjoinedK
      have hpostK := hpost k lk hlk
      rw [if_neg (Ne.symm hk), List.nil_append] at hpostK
      refine Or.inr ⟨k, _, chk, hpostK, ?_, hlt, hreg⟩
      rw [Function.update_of_ne hk]
      exact hnews.joined_old hlk hk hjoinedK
  · rw [getPeerType_regInfo] at ht
    have hpostC := hpost c l hl
    rw [if_pos rfl] at hpostC
    refine Or.inr ⟨c, _, channel.setPeerType l.receiver.peerType, hpostC, ?_, ht, by rw [ht]⟩
    rw [Function.update_self]
    exact hnew

end News

/-- A request in flight is that of a server that has not joined. The ack goes to it first, and
    what the center tells the servers comes behind it. -/
theorem centerReceive_eq (build : Build) (clients : NetServer) (h : Inv s.center s.requests s.links)
    {c : UInt16} (hrequest : s.requests c ≠ []) :
    ∃ l channel rest, s.links c = some l ∧ Connection s.center c (s.requests c) l channel ∧
      Waiting c channel (s.requests c) l ∧ l.receiver.loggedIn = true ∧
      step build clients s (.centerReceive c) = .ok
        ⟨⟨s.center.frontEnd.setChannel c (channel.setPeerType l.receiver.peerType),
            s.center.infos.add (regInfo l.receiver.peerType c)⟩,
          Function.update s.requests c [],
          post s.links ((c, ackPacket l.receiver.peerType c) :: rest)⟩ ∧
      ∀ x, x ∈ rest ↔
        ∃ o ∈ (onServerAdded s.center.infos (regInfo l.receiver.peerType c)).2,
          (s.center.frontEnd.setChannel c (channel.setPeerType l.receiver.peerType)).connected
            o.channelIndex = true ∧
          x = (o.channelIndex, ⟨o.destInfo, o.ownerInfo, .pktServerSync o.msg⟩) := by
  obtain ⟨l, hl⟩ : ∃ l, s.links c = some l :=
    Option.ne_none_iff_exists'.mp fun hnone => hrequest (h.unlinked c hnone)
  obtain ⟨channel, hconn⟩ := h.connections c l hl
  have hwaiting : Waiting c channel (s.requests c) l := by
    rcases hconn.stage with hwaiting | ⟨hjoined, -⟩
    · exact hwaiting
    · exact absurd hjoined.requests hrequest
  have hlogged : l.receiver.loggedIn = true := by
    by_contra hno
    exact hrequest (by rw [hwaiting.requests, if_neg hno])
  have hrequests := hwaiting.requests
  rw [if_pos hlogged] at hrequests
  obtain ⟨rest, hreceive, hrest⟩ := CenterState.receive_registerReq build
    (h.indexed.used c channel hconn.found) hconn.found hconn.connected
    (by rw [hwaiting.center, toUInt16_serialize]) hconn.isServer
  refine ⟨l, channel, rest, hl, hconn, hwaiting, hlogged, ?_, hrest⟩
  simp only [step, hrequests, hconn.found, hreceive]
  rfl

theorem centerReceive_inv (h : Inv s.center s.requests s.links) {c : UInt16}
    (henabled : enabled s (.centerReceive c)) :
    ∃ s', step build clients s (.centerReceive c) = .ok s' ∧
      Inv s'.center s'.requests s'.links := by
  obtain ⟨l, channel, rest, hl, hconn, hwaiting, hlogged, hstep, hrest⟩ :=
    centerReceive_eq build clients h henabled
  have hnews : News s c l.receiver.peerType rest := by
    refine news_of_onServerAdded h hconn.isServer fun x hx => ?_
    obtain ⟨o, ho, -, hx⟩ := (hrest x).mp hx
    exact ⟨o, ho, hx⟩
  have hnew := hnews.joined_new hl hwaiting hlogged
  -- the answer goes to `c` alone, the news to the servers that have joined
  have hpost : ∀ k lk, s.links k = some lk →
      post s.links ((c, ackPacket l.receiver.peerType c) :: rest) k = some (lk.send
        ((if c = k then [ackPacket l.receiver.peerType c] else []) ++ sentTo k rest)) := by
    intro k lk hlk
    rw [post, hlk, Option.map_some, sentTo_cons]
  refine ⟨_, hstep, ?_⟩
  dsimp only
  refine ⟨h.indexed.setChannel hconn.found _, h.typed.add _, fun k chk hfound => ?_,
    fun k hk => ?_, fun k lk hlk => ?_, fun t w hw => ?_⟩
  · rw [isSome_post]
    by_cases hk : k = c
    · rw [hk, hl]
      rfl
    · rw [NetServer.getChannel_setChannel, if_neg hk] at hfound
      exact h.linked k chk hfound
  · have hnone : s.links k = none := by
      rwa [← Option.not_isSome_iff_eq_none, isSome_post, Option.not_isSome_iff_eq_none] at hk
    have hkc : k ≠ c := by
      rintro rfl
      rw [hl] at hnone
      cases hnone
    rw [Function.update_of_ne hkc]
    exact h.unlinked k hnone
  · obtain ⟨lk', hlk', rfl⟩ := post_eq_some.mp hlk
    rw [hpost k lk' hlk'] at hlk
    rw [← Option.some_inj.mp hlk]
    by_cases hk : k = c
    · subst hk
      rw [hl] at hlk'
      cases hlk'
      rw [if_pos rfl, Function.update_self]
      refine ⟨channel.setPeerType l.receiver.peerType, hconn.server, hconn.sends, ?_,
        hconn.connected, Or.inr ⟨hnew, mem_known_add.mpr (Or.inr ⟨rfl, getPeerType_regInfo _ _⟩)⟩⟩
      rw [NetServer.getChannel_setChannel, if_pos rfl]
    · obtain ⟨chk, hconnK⟩ := h.connections k lk' hlk'
      rw [if_neg (Ne.symm hk), List.nil_append, Function.update_of_ne hk]
      exact ⟨chk, hnews.connection_old hlk' hk hconnK⟩
  · exact hnews.registry h hl hwaiting hnew hpost hw

/-- A server that has received something has joined. -/
theorem Inv.joined_of_received (h : Inv s.center s.requests s.links) {c : UInt16}
    {l : Link ServerPacket Server} (hl : s.links c = some l) (hreceived : l.receiver.received ≠ []) :
    ∃ channel, Connection s.center c (s.requests c) l channel ∧ Joined c channel (s.requests c) l ∧
      regInfo l.receiver.peerType c ∈ s.center.infos.known l.receiver.peerType := by
  obtain ⟨channel, hconn⟩ := h.connections c l hl
  rcases hconn.stage with hwaiting | ⟨hjoined, hmem⟩
  · exact absurd hwaiting.received hreceived
  · exact ⟨channel, hconn, hjoined, hmem⟩

/-- The one entry of the registry for a joined server. -/
theorem Inv.known_iff (h : Inv s.center s.requests s.links) {c : UInt16}
    {l : Link ServerPacket Server} {channel : NetChannel} (hl : s.links c = some l)
    (hconn : Connection s.center c (s.requests c) l channel)
    (hmem : regInfo l.receiver.peerType c ∈ s.center.infos.known l.receiver.peerType)
    (t : PeerType) (w : Word) :
    (w ∈ s.center.infos.known t ∧ PeerInfo.getChannelIndex w = c) ↔
      (t = l.receiver.peerType ∧ w = regInfo l.receiver.peerType c) := by
  constructor
  · rintro ⟨hw, hc⟩
    rcases h.registry t w hw with ⟨-, rfl⟩ | ⟨k, lk, -, hlk, -, hlt, rfl⟩
    · rw [getChannelIndex_regInfo] at hc
      exact absurd hc.symm (h.indexed.used c channel hconn.found)
    · rw [getChannelIndex_regInfo] at hc
      subst hc
      rw [hl] at hlk
      cases hlk
      rw [hlt]
      exact ⟨rfl, rfl⟩
  · rintro ⟨rfl, rfl⟩
    exact ⟨hmem, getChannelIndex_regInfo _ _⟩

/-- A new server is sent its ack, and something behind it. -/
theorem centerReceive_snapshot (h : Inv s.center s.requests s.links) {c : UInt16}
    {l : Link ServerPacket Server} (hrequest : s.requests c ≠ []) (hl : s.links c = some l)
    {s' : State} (hstep : step build clients s (.centerReceive c) = .ok s') :
    ∃ pkts, s'.links c = some (l.send (ackPacket l.receiver.peerType c :: pkts)) ∧ pkts ≠ [] := by
  obtain ⟨_, channel, rest, hl', hconn, -, -, hstep', hrest⟩ :=
    centerReceive_eq build clients h hrequest
  cases hl.symm.trans hl'
  cases hstep.symm.trans hstep'
  have htype : IsServer (PeerInfo.getPeerType (regInfo l.receiver.peerType c)) := by
    rw [getPeerType_regInfo]
    exact hconn.isServer
  obtain ⟨serverInfo, -, hsent⟩ := onServerAdded_sent s.center.infos htype
  rw [hsent] at hrest
  have hsnapshot : (c, (⟨regInfo l.receiver.peerType c, 0, .pktServerSync ⟨.add, serverInfo⟩⟩ :
      ServerPacket)) ∈ rest := by
    refine (hrest _).mpr ⟨_, List.mem_cons_self, ?_, ?_⟩
    · have hfound : (s.center.frontEnd.setChannel c
          (channel.setPeerType l.receiver.peerType)).getChannel c =
          some (channel.setPeerType l.receiver.peerType) := by
        rw [NetServer.getChannel_setChannel, if_pos rfl]
      rw [getChannelIndex_regInfo]
      exact NetServer.connected_of_getChannel hfound hconn.connected
    · rw [getChannelIndex_regInfo]
  refine ⟨sentTo c rest, ?_, List.ne_nil_of_mem (mem_sentTo.mpr hsnapshot)⟩
  dsimp only
  rw [post, hl, Option.map_some, sentTo_cons, if_pos rfl]
  rfl

/-- A server that has joined is told of a new one of another type, and of nothing else. -/
theorem centerReceive_news (h : Inv s.center s.requests s.links) {c k : UInt16}
    {l lk : Link ServerPacket Server} {chk : NetChannel} (hrequest : s.requests c ≠ [])
    (hl : s.links c = some l) (hlk : s.links k = some lk)
    (hjoined : Joined k chk (s.requests k) lk)
    (hne : lk.receiver.peerType ≠ l.receiver.peerType) {s' : State}
    (hstep : step build clients s (.centerReceive c) = .ok s') :
    ∃ pkts, s'.links k = some (lk.send pkts) ∧ pkts ≠ [] ∧
      ∀ pkt ∈ pkts, pkt = ⟨regInfo lk.receiver.peerType k, 0,
        .pktServerSync ⟨.add, [regInfo l.receiver.peerType c]⟩⟩ := by
  obtain ⟨_, channel, rest, hl', hconn, -, -, hstep', hrest⟩ :=
    centerReceive_eq build clients h hrequest
  cases hl.symm.trans hl'
  cases hstep.symm.trans hstep'
  have hkc : k ≠ c := by
    rintro rfl
    cases hl.symm.trans hlk
    exact hne rfl
  obtain ⟨channel', hconnK⟩ := h.connections k lk hlk
  have hreg : regInfo lk.receiver.peerType k ∈ s.center.infos.known lk.receiver.peerType := by
    rcases hconnK.stage with hwaiting | ⟨-, hmem⟩
    · exact absurd hjoined hwaiting.not_joined
    · exact hmem
  have htype : IsServer (PeerInfo.getPeerType (regInfo l.receiver.peerType c)) := by
    rw [getPeerType_regInfo]
    exact hconn.isServer
  obtain ⟨serverInfo, -, hsent⟩ := onServerAdded_sent s.center.infos htype
  obtain ⟨told, -, hmem, hbroadcast⟩ := broadCastServerInfoChanged_eq h.typed htype
  rw [hsent, hbroadcast] at hrest
  have htold : (k, (⟨regInfo lk.receiver.peerType k, 0,
      .pktServerSync ⟨.add, [regInfo l.receiver.peerType c]⟩⟩ : ServerPacket)) ∈ rest := by
    refine (hrest _).mpr ⟨_, List.mem_cons_of_mem _ (List.mem_map.mpr ⟨_, (hmem _).mpr
      ⟨lk.receiver.peerType, ⟨hconnK.isServer, ?_⟩, hreg⟩, rfl⟩), ?_, ?_⟩
    · rwa [getPeerType_regInfo]
    · have hfound : (s.center.frontEnd.setChannel c
          (channel.setPeerType l.receiver.peerType)).getChannel k = some channel' := by
        rw [NetServer.getChannel_setChannel, if_neg hkc]
        exact hconnK.found
      rw [getChannelIndex_regInfo]
      exact NetServer.connected_of_getChannel hfound hconnK.connected
    · rw [getChannelIndex_regInfo]
  refine ⟨sentTo k rest, ?_, List.ne_nil_of_mem (mem_sentTo.mpr htold), fun pkt hpkt => ?_⟩
  · dsimp only
    rw [post, hlk, Option.map_some, sentTo_cons, if_neg (Ne.symm hkc), List.nil_append]
  · obtain ⟨o, ho, -, hx⟩ := (hrest _).mp (mem_sentTo.mp hpkt)
    obtain ⟨hk, rfl⟩ := Prod.mk.inj hx
    rcases List.mem_cons.mp ho with rfl | ho
    · -- The snapshot goes to the new server.
      exact absurd (hk.trans (getChannelIndex_regInfo _ _)) hkc
    · obtain ⟨var, hvar, rfl⟩ := List.mem_map.mp ho
      obtain ⟨t, ⟨ht, -⟩, hknown⟩ := (hmem var).mp hvar
      -- Of the registered servers, only this one has the channel.
      obtain ⟨-, rfl⟩ := (h.known_iff hlk hconnK hreg t var).mp ⟨hknown, hk.symm⟩
      rfl

theorem step_inv (h : Inv s.center s.requests s.links) {e : Event} (henabled : enabled s e) :
    ∃ s', step build clients s e = .ok s' ∧ Inv s'.center s'.requests s'.links := by
  cases e with
  | connect peerType => exact connect_inv h henabled
  | login c => exact login_inv h henabled
  | centerReceive c => exact centerReceive_inv h henabled
  | serverReceive c => exact serverReceive_inv h henabled

theorem runs_inv {es : List Event} {r : Except Fault State}
    (h : (system build maxConns clients).Runs es r) :
    ∃ s, r = .ok s ∧ Inv s.center s.requests s.links := by
  have hstep : ∀ (_ : List Event) s e, Inv s.center s.requests s.links →
      (system build maxConns clients).enabled s e →
      ∃ s', (system build maxConns clients).step s e = .ok s' ∧
        Inv s'.center s'.requests s'.links := fun _ _ _ hinv henabled => step_inv hinv henabled
  exact Run.System.invariant init_inv hstep h

/-- A joined server that has received something has received its ack. -/
theorem Joined.received_eq {c : UInt16} {channel : NetChannel} {requests : List ServerPacket}
    {l : Link ServerPacket Server} (h : Joined c channel requests l)
    (hreceived : l.receiver.received ≠ []) :
    ∃ rest, l.receiver.received = (ackPacket l.receiver.peerType c, .backEnd) :: rest ∧
      (∀ entry ∈ rest, entry.2 = .backEnd ∧ SyncTo l.receiver.peerType c entry.1) ∧
      ∀ pkt ∈ l.pending, SyncTo l.receiver.peerType c pkt := by
  obtain ⟨syncs, hpackets, hsyncs⟩ := h.packets
  have hdispatched := h.dispatched
  obtain ⟨first, rest, hfirst⟩ := List.exists_cons_of_ne_nil hreceived
  rw [hfirst, List.map_cons, List.cons_append] at hpackets
  obtain ⟨hack, hrest⟩ := List.cons.inj hpackets
  rw [hfirst] at hdispatched
  refine ⟨rest, ?_, fun entry hentry => ⟨?_, hsyncs _ ?_⟩, fun pkt hpkt => hsyncs _ ?_⟩
  · rw [hfirst, ← hack, ← hdispatched first List.mem_cons_self]
  · exact hdispatched entry (List.mem_cons_of_mem _ hentry)
  · rw [← hrest]
    exact List.mem_append_left _ (List.mem_map_of_mem hentry)
  · rw [← hrest]
    exact List.mem_append_right _ hpkt

/-- In every run no assertion fails. The first packet that a server receives is the ack for
    it, and all packets pass the test of destinations and are dispatched. From the ack on,
    the back end of the server, its channel at the center and the one entry of the
    registry for that channel have the same peer info, and no other server has it. -/
theorem peerInfos_agree (build : Build) (maxConns : UInt16) (clients : NetServer)
    (es : List Event) (r : Except Fault State) (h : (system build maxConns clients).Runs es r) :
    ∃ s, r = .ok s ∧
      (∀ c l, s.links c = some l → l.receiver.received ≠ [] → ∃ info rest channel,
        l.receiver.received = (⟨PeerInfo.serialize { peerType := l.receiver.peerType }, info,
          .pktRegisterAck info⟩, .backEnd) :: rest ∧
        (∀ entry ∈ rest, entry.2 = .backEnd ∧ entry.1.destInfo = info ∧
          ∃ sync, entry.1.msg = .pktServerSync sync) ∧
        (∀ pkt ∈ l.pending, l.receiver.target build pkt.destInfo = .ok .backEnd) ∧
        l.receiver.backEnd.getPeerInfo = info ∧
        s.center.frontEnd.getChannel c = some channel ∧ channel.getPeerInfo = info ∧
        ∀ t w, (w ∈ s.center.infos.known t ∧ PeerInfo.getChannelIndex w = c) ↔
          (t = l.receiver.peerType ∧ w = info)) ∧
      ∀ c c' l l', s.links c = some l → s.links c' = some l' → l.receiver.received ≠ [] →
        l'.receiver.received ≠ [] →
        l.receiver.backEnd.getPeerInfo = l'.receiver.backEnd.getPeerInfo → c = c' := by
  obtain ⟨s, hs, hinv⟩ := runs_inv h
  -- the first packet that a server receives is the acknowledgement, which sets its peer info
  have hback : ∀ c l, s.links c = some l → l.receiver.received ≠ [] →
      l.receiver.backEnd.getPeerInfo = regInfo l.receiver.peerType c := by
    intro c l hl hreceived
    obtain ⟨channel, -, hjoinedC, -⟩ := hinv.joined_of_received hl hreceived
    have hserver := hjoinedC.server
    rwa [if_neg hreceived] at hserver
  refine ⟨s, hs, fun c l hl hreceived => ?_, fun c c' l l' hl hl' hreceived hreceived' heq => ?_⟩
  · obtain ⟨channel, hconn, hjoinedC, hmem⟩ := hinv.joined_of_received hl hreceived
    obtain ⟨rest, hfirst, hrest, hpending⟩ := hjoinedC.received_eq hreceived
    refine ⟨_, rest, channel, hfirst, fun entry hentry => ?_, fun pkt hpkt => ?_,
      hback c l hl hreceived, hconn.found, hjoinedC.center, hinv.known_iff hl hconn hmem⟩
    · obtain ⟨htarget, hdest, sync, hmsg, -⟩ := hrest entry hentry
      exact ⟨htarget, hdest, sync, hmsg⟩
    · refine Server.target_of_eq build ((hback c l hl hreceived).trans (hpending pkt hpkt).dest.symm)
        ?_
      rw [(hpending pkt hpkt).dest, getPeerType_regInfo]
  · rw [hback c l hl hreceived, hback c' l' hl' hreceived'] at heq
    have hindex := congrArg PeerInfo.getChannelIndex heq
    rwa [getChannelIndex_regInfo, getChannelIndex_regInfo] at hindex

/-! ### A run with two servers -/

theorem runs_serverReceive {es : List Event} (h : (system build maxConns clients).Runs es (.ok s))
    {c : UInt16} {pkt : ServerPacket} {pending : List ServerPacket} {srv : Server}
    (hl : s.links c = some ⟨pkt :: pending, srv⟩) :
    ∃ s' srv', (system build maxConns clients).Runs (es ++ [.serverReceive c]) (.ok s') ∧
      s'.links = Function.update s.links c (some ⟨pending, srv'⟩) ∧
      srv'.peerType = srv.peerType ∧ srv'.received = srv.received ++ [(pkt, .backEnd)] := by
  obtain ⟨_, hs, hinv⟩ := runs_inv h
  cases hs
  obtain ⟨srv', hstep, -, htype, hreceived⟩ := serverReceive_eq build clients hinv hl
  exact ⟨_, srv', h.next _ ⟨_, hl, List.cons_ne_nil _ _⟩ hstep, rfl, htype, hreceived⟩

/-- A gate and a world server connect, and the gate logs in and receives its ack and its snapshot.
    Up to the request of the world server, all states can be computed. -/
theorem runs_gate_joined :
    ∃ s gate world received, (system .debug 3 ⟨[], fun _ => none⟩).Runs
      [.connect .gateserver, .connect .worldserver, .login 1, .centerReceive 1, .serverReceive 1,
        .serverReceive 1, .login 2] (.ok s) ∧
      s.links 1 = some ⟨[], gate⟩ ∧ s.links 2 = some ⟨[], world⟩ ∧
      gate.received = (ackPacket .gateserver 1, .backEnd) :: received ∧ world.received = [] ∧
      gate.peerType = .gateserver ∧ world.peerType = .worldserver ∧ s.requests 2 ≠ [] := by
  have hconnect : (system .debug 3 ⟨[], fun _ => none⟩).Runs [.connect .gateserver] (.ok _) :=
    .concat .nil (Or.inl rfl)
  have hconnect' := hconnect.concat (l := Event.connect .worldserver) (Or.inr rfl)
  have hlogin := hconnect'.concat (l := Event.login 1) ⟨_, rfl, rfl⟩
  have hcenter := hlogin.concat (l := Event.centerReceive 1) (List.cons_ne_nil _ _)
  have hack := hcenter.concat (l := Event.serverReceive 1) ⟨_, rfl, List.cons_ne_nil _ _⟩
  have hsnapshot := hack.concat (l := Event.serverReceive 1) ⟨_, rfl, List.cons_ne_nil _ _⟩
  have hlogin' := hsnapshot.concat (l := Event.login 2) ⟨_, rfl, rfl⟩
  exact ⟨_, _, _, _, hlogin', rfl, rfl, rfl, rfl, rfl, rfl, List.cons_ne_nil _ _⟩

/-- The world server logs in, too, and receives its ack and its snapshot; and the gate receives the
    news about it. -/
theorem runs_both_joined :
    ∃ s gate world received snapshot news pkts, (system .debug 3 ⟨[], fun _ => none⟩).Runs
        [.connect .gateserver, .connect .worldserver, .login 1, .centerReceive 1, .serverReceive 1,
          .serverReceive 1, .login 2, .centerReceive 2, .serverReceive 2, .serverReceive 2,
          .serverReceive 1] (.ok s) ∧
      s.links 1 = some ⟨news, gate⟩ ∧ s.links 2 = some ⟨pkts, world⟩ ∧
      gate.peerType = .gateserver ∧ world.peerType = .worldserver ∧
      gate.received = (ackPacket .gateserver 1, .backEnd) :: (received ++
        [(⟨regInfo .gateserver 1, 0, .pktServerSync ⟨.add, [regInfo .worldserver 2]⟩⟩, .backEnd)]) ∧
      world.received = [(ackPacket .worldserver 2, .backEnd), (snapshot, .backEnd)] := by
  obtain ⟨s₇, gate, world, received, hrun₇, hgate₇, hworld₇, hgateReceived, hworldReceived,
    hgateType, hworldType, hrequest⟩ := runs_gate_joined
  obtain ⟨_, hs, hinv₇⟩ := runs_inv hrun₇
  cases hs
  obtain ⟨chk, -, hjoined, -⟩ := hinv₇.joined_of_received hgate₇
    (by rw [hgateReceived]; exact List.cons_ne_nil _ _)
  have hne : gate.peerType ≠ world.peerType := by
    rw [hgateType, hworldType]
    decide
  obtain ⟨s₈, hstep₈, -⟩ : ∃ s₈, step .debug ⟨[], fun _ => none⟩ s₇ (.centerReceive 2) = .ok s₈ ∧
      Inv s₈.center s₈.requests s₈.links := centerReceive_inv hinv₇ hrequest
  obtain ⟨pkts, hworld₈, hpkts⟩ := centerReceive_snapshot hinv₇ hrequest hworld₇ hstep₈
  obtain ⟨news, hgate₈, hnewsNe, hnews⟩ :=
    centerReceive_news hinv₇ hrequest hworld₇ hgate₇ hjoined hne hstep₈
  obtain ⟨snapshot, pkts, rfl⟩ := List.exists_cons_of_ne_nil hpkts
  obtain ⟨first, news, rfl⟩ := List.exists_cons_of_ne_nil hnewsNe
  have hbroadcast := hnews first List.mem_cons_self
  have hrun₈ := hrun₇.next (.centerReceive 2) hrequest hstep₈
  obtain ⟨s₉, world₉, hrun₉, hlinks₉, htype₉, hreceived₉⟩ := runs_serverReceive hrun₈ hworld₈
  have hworld₉ : s₉.links 2 = some ⟨snapshot :: pkts, world₉⟩ := by
    rw [hlinks₉, Function.update_self]
  obtain ⟨s₁₀, world₁₀, hrun₁₀, hlinks₁₀, htype₁₀, hreceived₁₀⟩ := runs_serverReceive hrun₉ hworld₉
  have hgate₁₀ : s₁₀.links 1 = some ⟨first :: news, gate⟩ := by
    rw [hlinks₁₀, Function.update_of_ne (by decide), hlinks₉, Function.update_of_ne (by decide)]
    exact hgate₈
  obtain ⟨s₁₁, gate₁₁, hrun₁₁, hlinks₁₁, htype₁₁, hreceived₁₁⟩ := runs_serverReceive hrun₁₀ hgate₁₀
  have hgate₁₁ : s₁₁.links 1 = some ⟨news, gate₁₁⟩ := by
    rw [hlinks₁₁, Function.update_self]
  have hworld₁₁ : s₁₁.links 2 = some ⟨pkts, world₁₀⟩ := by
    rw [hlinks₁₁, Function.update_of_ne (by decide), hlinks₁₀, Function.update_self]
  rw [hgateReceived, List.cons_append, hbroadcast, hgateType, hworldType] at hreceived₁₁
  rw [hreceived₉, hworldReceived, hworldType] at hreceived₁₀
  rw [hgateType] at htype₁₁
  rw [htype₉, hworldType] at htype₁₀
  exact ⟨s₁₁, gate₁₁, world₁₀, received, snapshot, news, pkts, hrun₁₁, hgate₁₁, hworld₁₁, htype₁₁,
    htype₁₀, hreceived₁₁, hreceived₁₀⟩

/-- A gate and a world server connect. The gate logs in and receives its ack and its snapshot.
    Then the world server logs in and receives both, and the gate receives the news about it. -/
theorem peerInfos_agree_gate :
    ∃ s l l' channel channel', (system .debug 3 ⟨[], fun _ => none⟩).Runs
        [.connect .gateserver, .connect .worldserver, .login 1, .centerReceive 1, .serverReceive 1,
          .serverReceive 1, .login 2, .centerReceive 2, .serverReceive 2, .serverReceive 2,
          .serverReceive 1] (.ok s) ∧
      s.links 1 = some l ∧ s.links 2 = some l' ∧
      l.receiver.backEnd.getPeerInfo = regInfo .gateserver 1 ∧
      l'.receiver.backEnd.getPeerInfo = regInfo .worldserver 2 ∧
      s.center.frontEnd.getChannel 1 = some channel ∧
      channel.getPeerInfo = regInfo .gateserver 1 ∧
      s.center.frontEnd.getChannel 2 = some channel' ∧
      channel'.getPeerInfo = regInfo .worldserver 2 ∧
      regInfo .gateserver 1 ∈ s.center.infos.known .gateserver ∧
      regInfo .worldserver 2 ∈ s.center.infos.known .worldserver ∧
      (⟨regInfo .gateserver 1, 0, .pktServerSync ⟨.add, [regInfo .worldserver 2]⟩⟩, .backEnd) ∈
        l.receiver.received ∧
      (∃ owner sync, (⟨regInfo .worldserver 2, owner, .pktServerSync sync⟩, .backEnd) ∈
        l'.receiver.received) ∧
      l.receiver.backEnd.getPeerInfo ≠ l'.receiver.backEnd.getPeerInfo := by
  obtain ⟨s, gate, world, received, snapshot, news, pkts, hrun, hgate, hworld, hgateType, hworldType,
    hgateReceived, hworldReceived⟩ := runs_both_joined
  obtain ⟨_, hs, hagree, hdistinct⟩ := peerInfos_agree .debug 3 ⟨[], fun _ => none⟩ _ _ hrun
  cases hs
  have hgateNe : gate.received ≠ [] := by
    rw [hgateReceived]
    exact List.cons_ne_nil _ _
  have hworldNe : world.received ≠ [] := by
    rw [hworldReceived]
    exact List.cons_ne_nil _ _
  obtain ⟨info, rest, channel, hfirst, -, -, hback, hfound, hchannel, hknown⟩ :=
    hagree 1 _ hgate hgateNe
  obtain ⟨info', rest', channel', hfirst', hrest', -, hback', hfound', hchannel', hknown'⟩ :=
    hagree 2 _ hworld hworldNe
  dsimp only at hfirst hfirst' hback hback' hknown hknown'
  rw [hgateReceived] at hfirst
  rw [hworldReceived] at hfirst'
  obtain ⟨hack, -⟩ := List.cons.inj hfirst
  obtain ⟨hack', hsnapshot⟩ := List.cons.inj hfirst'
  obtain rfl : regInfo .gateserver 1 = info := congrArg (fun entry => entry.1.ownerInfo) hack
  obtain rfl : regInfo .worldserver 2 = info' := congrArg (fun entry => entry.1.ownerInfo) hack'
  obtain ⟨-, hdest, sync, hmsg⟩ := hrest' (snapshot, .backEnd) (hsnapshot ▸ List.mem_singleton_self _)
  refine ⟨s, _, _, channel, channel', hrun, hgate, hworld, hback, hback', hfound, hchannel,
    hfound', hchannel', ?_, ?_, ?_, ⟨snapshot.ownerInfo, sync, ?_⟩, ?_⟩
  · exact ((hknown .gateserver _).mpr ⟨hgateType.symm, rfl⟩).1
  · exact ((hknown' .worldserver _).mpr ⟨hworldType.symm, rfl⟩).1
  · rw [hgateReceived]
    exact List.mem_cons_of_mem _ (List.mem_append_right _ List.mem_cons_self)
  · rw [hworldReceived, ← hdest, ← hmsg]
    exact List.mem_cons_of_mem _ List.mem_cons_self
  · intro heq
    exact absurd (hdistinct 1 2 _ _ hgate hworld hgateNe hworldNe heq) (by decide)

end Registration

end TerraX
