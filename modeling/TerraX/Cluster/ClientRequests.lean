import TerraX.Cluster.ClientRelayRuns
import Mathlib.Data.List.Forall2

/-!
# What the servers are told by clients

Of what a client sends, the center dispatches exactly the requests that its guest can send to a
center, in order, and it dispatches nothing else in the name of this client. As long as the guests
know no server but the center, all other servers dispatch only what servers have sent, and nobody
dispatches the other requests.

## Main definitions

- `Request.AtCenter` — the requests that reach a center
- `ClientRelay.SpeaksAlone` — nobody else sends in the name of a client
- `Guest.CenterOnly` — a guest as `Guest::InitCenterConnection` makes it
- `ClientRelay.ByOrigin` — what was dispatched, told by where the packets come from
- `ClientRelay.Records` — what a state keeps of a run

## Main results

- `ClientRelay.center_hears`, `ClientRelay.servers_hear_servers`
-/

namespace TerraX

open Bytes Memory Framing Fifo

/-- The gate relays the request, and its guest sends it to a center. -/
def Request.AtCenter (guest : Guest) (r : Request) : Prop :=
  r.ForOthers ∧ PeerInfo.getPeerType (guest.getDestPeerInfo r.peerType) = .centerserver

instance (guest : Guest) (r : Request) : Decidable (r.AtCenter guest) := by
  unfold Request.AtCenter
  infer_instance

/-- A guest that knows no server but a center, and this as the center. -/
structure Guest.CenterOnly (guest : Guest) : Prop where
  center : guest.getDestPeerInfo .centerserver = 0 ∨
    PeerInfo.getPeerType (guest.getDestPeerInfo .centerserver) = .centerserver
  others : ∀ t ≠ .centerserver, guest.getDestPeerInfo t = 0

/-- `CreateGuest` makes such guests, whether the gate knows the center or not. -/
theorem Guest.new_centerOnly (guestId : Word) {centerPeerInfo : Word}
    (h : centerPeerInfo = 0 ∨ PeerInfo.getPeerType centerPeerInfo = .centerserver) :
    (Guest.new guestId centerPeerInfo).CenterOnly := by
  refine ⟨h, fun t ht => ?_⟩
  rw [getDestPeerInfo, new]
  dsimp only
  rw [Function.update_of_ne ht]
  rfl

namespace ClientRelay

open ClientLogin (Key)

/-- Nobody else sends to a center in the name of the client: no other client of its gate, and not
    the gate itself. -/
structure SpeaksAlone (clients : Key → Option NetChannel) (nodes : UInt16 → Option Node) (s : State)
    (key : Key) (guest : Guest) : Prop where
  others : ∀ k guest', Joined clients nodes (key.1, k) guest' →
    guest'.ownerInfo = guest.ownerInfo → k = key.2
  own : ∀ m ∈ s.cluster.sent, m.1 = key.1 → PeerInfo.getPeerType m.2.destInfo = .centerserver →
    m.2.ownerInfo ≠ guest.ownerInfo

/-- A server has dispatched what the center has sent on its channel, and what servers have sent that
    the center has taken and forwarded to it: the first packets of each, and all of them when nothing
    is on the way. -/
structure HearsServers (s : State) (taken : List (Option Key × (UInt16 × Sent))) (j : UInt16)
    (node : Node) (handled : List (Option UInt16 × Sent)) : Prop where
  parts : ∃ parts, node.log = parts.flatten ∧
    List.Forall₂ (Cluster.NodeDispatched node.peerType j) handled parts
  fromCenter : fromHub handled <+: sentTo j s.cluster.centerSent
  fromServers : fromOthers handled <+: forwardedTo Sent.hop j (fromHub taken)
  all : s.cluster.downlink j = [] → fromHub handled = sentTo j s.cluster.centerSent ∧
    fromOthers handled = forwardedTo Sent.hop j (fromHub taken)

/-- What was dispatched, told by the origins of the packets that the center has taken. Each packet
    that a gate has relayed has the client as its origin, and those that the servers have sent
    themselves have none; on each link the first of them are taken. The indexes of channels start
    with 1. -/
structure ByOrigin (clients : Key → Option NetChannel) (nodes : UInt16 → Option Node) (s : State)
    (origins taken : List (Option Key × (UInt16 × Sent))) : Prop where
  own : fromHub origins = s.cluster.sent
  requested : ∀ key guest, Joined clients nodes key guest →
    ∃ read, Requested s origins key guest read
  links : ∀ i, fromLink i taken <+: fromLink i origins
  linksAll : ∀ i, s.cluster.uplink i = [] → fromLink i taken = fromLink i origins
  center : List.Forall₂ (fun m entry => Cluster.CenterDispatched m.2 entry)
    (taken.filter fun m => PeerInfo.getPeerType m.2.2.destInfo = .centerserver) s.cluster.centerLog
  clients : ∀ key m, (some key, m) ∈ taken → PeerInfo.getPeerType m.2.destInfo = .centerserver →
    ∃ guest r, Joined clients nodes key guest ∧ r ∈ s.requests key ∧
      r.peerType = .centerserver ∧ m = (key.1, Request.relayed guest r)
  servers : ∀ j node, 0 < j → s.cluster.nodes j = some node →
    ∃ handled, HearsServers s taken j node handled

/-- What is sent to a center in the name of a guest. -/
def InName (guest : Guest) (m : Sent) : Prop :=
  PeerInfo.getPeerType m.destInfo = .centerserver ∧ m.ownerInfo = guest.ownerInfo

instance (guest : Guest) (m : Sent) : Decidable (InName guest m) := by
  unfold InName
  infer_instance

section Requests

variable {env : Env} {net : NetServer} {clients : Key → Option NetChannel}
  {nodes : UInt16 → Option Node} {s : State} {star : Star UInt16 Sent}
  {origins : List (Option Key × (UInt16 × Sent))} {key : Key} {guest : Guest}

theorem inName_relayed {r : Request} :
    InName guest (r.relayed guest) ↔
      PeerInfo.getPeerType (guest.getDestPeerInfo r.peerType) = .centerserver :=
  and_iff_left rfl

/-- What a gate has relayed comes from a client of it, and has the address and the owner that the
    guest gives to it. -/
theorem Running.of_relayed (h : Running env net clients nodes s star origins) {m : UInt16 × Sent}
    (hm : (some key, m) ∈ origins) :
    ∃ guest r, Joined clients nodes key guest ∧ r ∈ s.requests key ∧
      m = (key.1, Request.relayed guest r) := by
  obtain ⟨guest, hjoined⟩ := h.relays (key, m) (mem_fromOthers.mpr hm)
  obtain ⟨handled, pending, hup⟩ := h.up key guest hjoined
  have hsent : m ∈ sentTo key (fromOthers origins) := mem_sentTo.mpr (mem_fromOthers.mpr hm)
  rw [hup.relayed] at hsent
  obtain ⟨r, hr, rfl⟩ := List.mem_map.mp hsent
  refine ⟨guest, r, hjoined, ?_, rfl⟩
  rw [hup.requests]
  exact List.mem_append_left _ (List.mem_filter.mp hr).1

/-- In the name of a client that speaks alone, its gate has sent to a center what it has relayed for
    this client, and nothing else. -/
theorem Running.inName (h : Running env net clients nodes s star origins)
    (halone : SpeaksAlone clients nodes s key guest)
    {read : List Request} (hread : Requested s origins key guest read) :
    (sentTo key.1 (origins.map Prod.snd)).filter (fun m => InName guest m) =
      (read.filter fun r => r.AtCenter guest).map (Request.relayed guest) := by
  have hsame : ∀ m ∈ origins, (m.2.1 = key.1 ∧ InName guest m.2.2) ↔
      (m.1 = some key ∧ InName guest m.2.2) := by
    rintro ⟨origin, m⟩ hm
    refine and_congr_left fun hname => ?_
    cases origin with
    | none =>
      refine iff_of_false (fun hi => ?_) nofun
      have hown : m ∈ s.cluster.sent := by
        rw [← h.own]
        exact mem_fromHub.mpr hm
      exact halone.own m hown hi hname.1 hname.2
    | some key' =>
      obtain ⟨guest', r, hjoined', -, rfl⟩ := h.of_relayed hm
      constructor
      · intro hi
        have hkey : key' = (key.1, key'.2) := Prod.ext hi rfl
        rw [hkey] at hjoined'
        have hk := halone.others key'.2 guest' hjoined' hname.2
        rw [hkey, hk]
      · rintro ⟨⟩
        rfl
  have hsame' : ∀ m ∈ origins, (m.2.1 = key.1 ∧ decide (InName guest m.2.2) = true) ↔
      (m.1 = some key ∧ decide (InName guest m.2.2) = true) := fun m hm => by
    rw [decide_eq_true_iff]
    exact hsame m hm
  have hrelayed : (sentTo key (fromOthers origins)).map Prod.snd =
      (read.filter Request.ForOthers).map (Request.relayed guest) := by
    rw [hread.relayed, List.map_map]
    rfl
  rw [filter_sentTo_snd hsame', hrelayed, List.filter_map, List.filter_filter]
  refine congrArg (List.map _) (List.filter_congr fun r _ => ?_)
  rw [Function.comp_apply, ← Bool.decide_and, decide_eq_decide, inName_relayed]
  exact and_comm

/-- The center has dispatched what it has taken in the name of a client. -/
theorem centerLog_inName {order : List (UInt16 × Sent)} {log : List (UInt16 × Dispatch)}
    (h : List.Forall₂ Cluster.CenterDispatched
      (order.filter fun m => PeerInfo.getPeerType m.2.destInfo = .centerserver) log) :
    List.Forall₂ (fun m entry => entry.2.Carries m)
      ((sentTo key.1 order).filter fun m => InName guest m)
      (log.filter fun entry => entry.1 = key.1 ∧ entry.2.ownerInfo = guest.ownerInfo) := by
  have hentries : (sentTo key.1 order).filter (fun m => InName guest m) =
      ((order.filter fun m => PeerInfo.getPeerType m.2.destInfo = .centerserver).filter fun m =>
        m.1 = key.1 ∧ m.2.ownerInfo = guest.ownerInfo).map Prod.snd := by
    rw [sentTo_eq_map_filter, List.filter_map, List.filter_filter, List.filter_filter]
    refine congrArg (List.map _) (List.filter_congr fun m _ => ?_)
    rw [Function.comp_apply, ← Bool.decide_and, ← Bool.decide_and, decide_eq_decide, InName]
    tauto
  rw [hentries, List.forall₂_map_left_iff]
  refine (List.rel_filter (fun m entry hentry => ?_) h).imp fun m entry hentry => hentry.carries
  dsimp only
  rw [decide_eq_true_iff, decide_eq_true_iff, hentry.channel, hentry.carries.ownerInfo]

/-- What the center has dispatched in the name of a client that speaks alone. -/
theorem Running.heard_at_center (h : Running env net clients nodes s star origins)
    (htypes : ∀ k, ((nodes k).map Node.peerType).isSome → net.connected k = true)
    (hjoined : Joined clients nodes key guest) (halone : SpeaksAlone clients nodes s key guest) :
    ∃ heard, heard <+: ((s.requests key).filter fun r => r.AtCenter guest) ∧
      (s.clientUp key = [] → s.cluster.uplink key.1 = [] →
        heard = (s.requests key).filter fun r => r.AtCenter guest) ∧
      List.Forall₂ (fun r entry => entry.2.Carries (r.relayed guest)) heard
        (s.cluster.centerLog.filter fun entry =>
          entry.1 = key.1 ∧ entry.2.ownerInfo = guest.ownerInfo) := by
  obtain ⟨read, hread⟩ := h.requested hjoined
  have honce := h.carried.exactlyOnce htypes
  have hlog : List.Forall₂ _ ((sentTo key.1 star.taken).filter fun m => InName guest m) _ :=
    centerLog_inName honce.center
  have htaken : ((sentTo key.1 star.taken).filter fun m => InName guest m) <+:
      (read.filter fun r => r.AtCenter guest).map (Request.relayed guest) := by
    rw [← h.inName halone hread]
    exact (honce.taken key.1).filter _
  -- what the center has taken is what was made of the first requests that the gate has read
  have htake : ((sentTo key.1 star.taken).filter fun m => InName guest m) =
      ((read.filter fun r => r.AtCenter guest).take
        ((sentTo key.1 star.taken).filter fun m => InName guest m).length).map
          (Request.relayed guest) := by
    rw [List.map_take]
    exact List.prefix_iff_eq_take.mp htaken
  rw [htake, List.forall₂_map_left_iff] at hlog
  refine ⟨_, (List.take_prefix _ _).trans (hread.isPrefix.filter _), fun hup hlink => ?_, hlog⟩
  have hall : ((sentTo key.1 star.taken).filter fun m => InName guest m) =
      (read.filter fun r => r.AtCenter guest).map (Request.relayed guest) := by
    rw [← h.inName halone hread]
    exact congrArg (List.filter _) (honce.takenAll key.1 hlink)
  rw [hall, List.length_map, List.take_length, hread.all hup]

/-- What a guest that knows no server but a center sends to others leads nowhere. -/
theorem hop_relayed (hguest : guest.CenterOnly) (r : Request) :
    (r.relayed guest).hop = none ∧ r.peerType = .centerserver ∨
      (r.relayed guest).hop = some 0 := by
  have hzero : ∀ s : Sent, s.destInfo = 0 → s.hop = some 0 := by
    intro s hs
    rw [Sent.hop, hs]
    rfl
  by_cases hr : r.peerType = .centerserver
  · rcases hguest.center with hunknown | hcenter
    · refine Or.inr (hzero _ ?_)
      rw [Request.relayed, hr]
      exact hunknown
    · refine Or.inl ⟨Cluster.hop_eq_none.mpr ?_, hr⟩
      rw [Request.relayed, hr]
      exact hcenter
  · exact Or.inr (hzero _ (hguest.others _ hr))

/-- What was dispatched where the guests know no server but a center. -/
theorem Running.byOrigin (h : Running env net clients nodes s star origins)
    (htypes : ∀ k, ((nodes k).map Node.peerType).isSome → net.connected k = true)
    (hguests : ∀ key guest, Joined clients nodes key guest → guest.CenterOnly) :
    ∃ taken, ByOrigin clients nodes s origins taken := by
  have honce := h.carried.exactlyOnce htypes
  obtain ⟨taken, htaken, hlinks⟩ := exists_origins honce.taken
  have hrelayed : ∀ key m, (some key, m) ∈ taken → ∃ guest r, Joined clients nodes key guest ∧
      r ∈ s.requests key ∧ m = (key.1, Request.relayed guest r) := fun key m hm =>
    h.of_relayed (mem_of_prefix_fromLink hlinks hm)
  refine ⟨taken, h.own, fun key guest => h.requested, hlinks, fun i hi => fromLink_eq (hlinks i) ?_,
    ?_, fun key m hm hcenter => ?_, fun j node hpos hnode => ?_⟩
  · rw [htaken]
    exact honce.takenAll i hi
  · have hcenter := honce.center
    rw [← htaken, List.filter_map, List.forall₂_map_left_iff] at hcenter
    exact hcenter
  · obtain ⟨guest, r, hjoined, hr, rfl⟩ := hrelayed key m hm
    refine ⟨guest, r, hjoined, hr, ?_, rfl⟩
    rcases hop_relayed (hguests key guest hjoined) r with ⟨-, htype⟩ | hzero
    · exact htype
    · exact absurd (hzero.symm.trans (Cluster.hop_eq_none.mpr hcenter)) (Option.some_ne_none _)
  · -- no relayed packet has a server as its next hop
    have hforward : forwardedTo Sent.hop j star.taken = forwardedTo Sent.hop j (fromHub taken) := by
      rw [← htaken]
      refine forwardedTo_fromHub fun key m hm hhop => ?_
      obtain ⟨guest, r, hjoined, -, rfl⟩ := hrelayed key m hm
      rcases hop_relayed (hguests key guest hjoined) r with ⟨hnone, -⟩ | hzero
      · exact absurd (hnone.symm.trans hhop) (Option.some_ne_none j).symm
      · have hj : 0 = j := Option.some.inj (hzero.symm.trans hhop)
        exact absurd hpos (hj ▸ by decide)
    have hown : sentTo j s.cluster.centerSent = fromHub (star.handled j ++ star.waiting j) := by
      rw [← h.carried.ordered.own j]
      exact congrArg _ h.carried.centerSent
    refine ⟨star.handled j, (h.carried.nodes j node hnode).parts, ?_, ?_, fun hempty => ?_⟩
    · rw [hown, fromHub_append]
      exact List.prefix_append _ _
    · rw [← hforward, h.carried.ordered.forwarded j, fromOthers_append]
      exact List.prefix_append _ _
    · rw [← hforward, h.carried.ordered.forwarded j, hown,
        h.carried.waiting_eq_nil htypes hnode hempty, List.append_nil]
      exact ⟨rfl, rfl⟩

/-- Where servers have sent nothing, no packet is theirs. -/
theorem ByOrigin.fromHub_eq_nil {taken : List (Option Key × (UInt16 × Sent))}
    (h : ByOrigin clients nodes s origins taken) (hsent : s.cluster.sent = []) :
    fromHub taken = [] := by
  refine List.eq_nil_iff_forall_not_mem.mpr fun m hm => ?_
  have horigin := mem_fromHub.mpr (mem_of_prefix_fromLink h.links (mem_fromHub.mp hm))
  rw [h.own, hsent] at horigin
  cases horigin

/-- If no client requests anything of a center then, the center dispatches nothing. -/
theorem ByOrigin.centerLog_eq_nil {taken : List (Option Key × (UInt16 × Sent))}
    (h : ByOrigin clients nodes s origins taken) (hsent : s.cluster.sent = [])
    (hrequests : ∀ key, ∀ r ∈ s.requests key, r.peerType ≠ .centerserver) :
    s.cluster.centerLog = [] := by
  have hnone : (taken.filter fun m =>
      PeerInfo.getPeerType m.2.2.destInfo = .centerserver) = [] := by
    refine List.filter_eq_nil_iff.mpr ?_
    rintro ⟨_ | key, m⟩ hm hcenter
    · have hown := mem_fromHub.mpr hm
      rw [h.fromHub_eq_nil hsent] at hown
      cases hown
    · obtain ⟨guest, r, -, hr, htype, -⟩ := h.clients key m hm (of_decide_eq_true hcenter)
      exact hrequests key r hr htype
  have hcenter := h.center
  rw [hnone] at hcenter
  exact List.forall₂_nil_left_iff.mp hcenter

end Requests

/-! ### What was sent in a run -/

/-- What a server sends in an event. -/
def sentBy : Event → List (UInt16 × Sent)
  | .server e => Cluster.sentBy e
  | .request _ _ => []
  | .tell _ _ => []
  | .frontArrive _ _ => []
  | .clientArrive _ _ => []

/-- What the center sends in an event. -/
def centerSentBy : Event → List (UInt16 × Sent)
  | .server (.centerSend k s) => [(k, s)]
  | .server _ => []
  | .request _ _ => []
  | .tell _ _ => []
  | .frontArrive _ _ => []
  | .clientArrive _ _ => []

/-- What a client requests in an event. -/
def requestedBy (key : Key) : Event → List Request
  | .server _ => []
  | .request key' r => if key' = key then [r] else []
  | .tell _ _ => []
  | .frontArrive _ _ => []
  | .clientArrive _ _ => []

/-- A state keeps what was sent and requested in the events up to it. -/
structure Records (events : List Event) (s : State) : Prop where
  sent : s.cluster.sent = events.flatMap sentBy
  centerSent : s.cluster.centerSent = events.flatMap centerSentBy
  requests : ∀ key, s.requests key = events.flatMap (requestedBy key)

/-- Without anything that is sent or requested the record is as before. -/
theorem Records.same {events : List Event} {s s' : State} {e : Event} (h : Records events s)
    (hsent : sentBy e = []) (hcenter : centerSentBy e = []) (hrequested : ∀ key, requestedBy key e = [])
    (hsame : s'.cluster.sent = s.cluster.sent ∧ s'.cluster.centerSent = s.cluster.centerSent ∧
      s'.requests = s.requests) : Records (events ++ [e]) s' := by
  refine ⟨?_, ?_, fun key => ?_⟩
  · rw [hsame.1, h.sent, List.flatMap_append, List.flatMap_singleton, hsent, List.append_nil]
  · rw [hsame.2.1, h.centerSent, List.flatMap_append, List.flatMap_singleton, hcenter,
      List.append_nil]
  · rw [hsame.2.2, h.requests, List.flatMap_append, List.flatMap_singleton, hrequested,
      List.append_nil]

section Records

variable {env : Env} {overread : Packet → Packet × Bool} {net : NetServer}
  {clients : Key → Option NetChannel} {nodes : UInt16 → Option Node} {s s' : State} {key : Key}
  {n : ℕ}

theorem centerSent_of_step {handlers : Handlers} {cluster cluster' : Cluster} {e : ClusterEvent}
    (h : Cluster.step env overread net handlers cluster e = .ok cluster') :
    cluster'.centerSent = cluster.centerSent ++ centerSentBy (.server e) := by
  cases e with
  | send i s =>
    obtain ⟨bytes, -, heq⟩ := bind_eq_ok.mp h
    cases heq
    exact (List.append_nil _).symm
  | centerSend k s =>
    obtain ⟨bytes, -, heq⟩ := bind_eq_ok.mp h
    cases heq
    rfl
  | centerArrive i n =>
    refine Eq.trans ?_ (List.append_nil _).symm
    rw [Cluster.step, Cluster.centerArrive] at h
    split at h
    · cases h
      rfl
    · obtain ⟨⟨evbuf, queue, out⟩, -, heq⟩ := bind_eq_ok.mp h
      cases heq
      rfl
  | nodeArrive j n =>
    refine Eq.trans ?_ (List.append_nil _).symm
    rw [Cluster.step, Cluster.nodeArrive] at h
    split at h
    · cases h
      rfl
    · obtain ⟨⟨evbuf, queue, node⟩, -, heq⟩ := bind_eq_ok.mp h
      cases heq
      rfl

theorem Records.step {events : List Event} {e : Event} (h : Records events s)
    (hstep : step env overread net clients s e = .ok s') : Records (events ++ [e]) s' := by
  cases e with
  | server e =>
    obtain ⟨cluster', hcluster, heq⟩ := bind_eq_ok.mp hstep
    cases heq
    refine ⟨?_, ?_, fun key => ?_⟩
    · rw [List.flatMap_append, List.flatMap_singleton, ← h.sent]
      exact Cluster.sent_of_step hcluster
    · rw [List.flatMap_append, List.flatMap_singleton, ← h.centerSent]
      exact centerSent_of_step hcluster
    · rw [List.flatMap_append, List.flatMap_singleton, ← h.requests]
      exact (List.append_nil _).symm
  | request key r =>
    obtain ⟨bytes, -, heq⟩ := bind_eq_ok.mp hstep
    cases heq
    refine ⟨?_, ?_, fun key' => ?_⟩
    · rw [List.flatMap_append, List.flatMap_singleton, ← h.sent]
      exact (List.append_nil _).symm
    · rw [List.flatMap_append, List.flatMap_singleton, ← h.centerSent]
      exact (List.append_nil _).symm
    · rw [List.flatMap_append, List.flatMap_singleton, ← h.requests, requestedBy]
      by_cases hkey : key = key'
      · subst hkey
        rw [if_pos rfl]
        exact Function.update_self ..
      · rw [if_neg hkey, List.append_nil]
        exact Function.update_of_ne (Ne.symm hkey) ..
  | tell key t =>
    obtain ⟨bytes, -, heq⟩ := bind_eq_ok.mp hstep
    cases heq
    exact h.same rfl rfl (fun _ => rfl) ⟨rfl, rfl, rfl⟩
  | frontArrive key n =>
    refine h.same rfl rfl (fun _ => rfl) ?_
    rw [ClientRelay.step, frontArrive] at hstep
    split at hstep
    · split at hstep
      · cases hstep
        exact ⟨rfl, rfl, rfl⟩
      · obtain ⟨⟨evbuf, queue, gate'⟩, -, heq⟩ := bind_eq_ok.mp hstep
        cases heq
        exact ⟨rfl, rfl, rfl⟩
    · cases hstep
      exact ⟨rfl, rfl, rfl⟩
  | clientArrive key n =>
    refine h.same rfl rfl (fun _ => rfl) ?_
    rw [ClientRelay.step, clientArrive] at hstep
    split at hstep
    · cases hstep
      exact ⟨rfl, rfl, rfl⟩
    · obtain ⟨⟨evbuf, log⟩, -, heq⟩ := bind_eq_ok.mp hstep
      cases heq
      exact ⟨rfl, rfl, rfl⟩

/-- The record of a run. -/
theorem records_of_runs {events : List Event}
    (hrun : (system env overread net clients nodes).Runs events (.ok s)) : Records events s := by
  have hstep : ∀ (ls : List Event) (s : State) (e : Event) s', Records ls s →
      Enabled net clients s e → step env overread net clients s e = .ok s' →
      Records (ls ++ [e]) s' := fun _ _ _ _ hrecords _ hstep => hrecords.step hstep
  exact @Run.System.preserves _ _ _ (system env overread net clients nodes) Records
    ⟨rfl, rfl, fun _ => rfl⟩ hstep _ _ hrun

/-! ### What is left on the way -/

/-- An arrival at a gate takes its bytes off the link. -/
theorem clientUp_frontArrive {guest : Guest} (hjoined : Joined clients s.cluster.nodes key guest)
    (h : step env overread net clients s (.frontArrive key n) = .ok s') :
    s'.clientUp key = (s.clientUp key).drop n := by
  obtain ⟨gate, front, -, hgate, hfront, -⟩ := hjoined.gate
  rw [step, frontArrive, hgate] at h
  dsimp only at h
  rw [hfront] at h
  obtain ⟨⟨evbuf, queue, gate'⟩, -, heq⟩ := bind_eq_ok.mp h
  cases heq
  exact Function.update_self ..

/-- What happens among the servers leaves what the clients have sent on the way. -/
theorem clientUp_server {e : ClusterEvent}
    (h : step env overread net clients s (.server e) = .ok s') : s'.clientUp = s.clientUp := by
  obtain ⟨cluster', -, heq⟩ := bind_eq_ok.mp h
  cases heq
  rfl

theorem uplink_centerArrive {i : UInt16} (hi : (net.getChannel i).isSome)
    (h : step env overread net clients s (.server (.centerArrive i n)) = .ok s') :
    s'.cluster.uplink i = (s.cluster.uplink i).drop n := by
  obtain ⟨cluster', hcluster, heq⟩ := bind_eq_ok.mp h
  cases heq
  exact Cluster.uplink_centerArrive hi hcluster

theorem downlink_nodeArrive {j : UInt16} (hj : (s.cluster.nodes j).isSome)
    (h : step env overread net clients s (.server (.nodeArrive j n)) = .ok s') :
    s'.cluster.downlink j = (s.cluster.downlink j).drop n := by
  obtain ⟨cluster', hcluster, heq⟩ := bind_eq_ok.mp h
  cases heq
  exact Cluster.downlink_nodeArrive hj hcluster

end Records

section Runs

variable (env : Env) (overread : Packet → Packet × Bool) (net : NetServer)
  (clients : Key → Option NetChannel) (nodes : UInt16 → Option Node)

/-- In every run, for each client in whose name nobody else sends to a center, what the center has
    dispatched in its name is what the client has requested of a center: the first of these
    requests, each once and in order, and all of them when nothing is on the way. -/
theorem center_hears (hnodes : ∀ j node, nodes j = some node →
      node.RegisteredAt j ∧ node.log = [] ∧ net.connected j = true)
    (hnet : ∀ i front, net.getChannel i = some front → front.getChannelIndex = i)
    (events : List Event) (s : State)
    (hrun : (system env overread net clients nodes).Runs events (.ok s)) (key : Key) (guest : Guest)
    (hjoined : Joined clients nodes key guest) (halone : SpeaksAlone clients nodes s key guest) :
    ∃ heard, heard <+: ((s.requests key).filter fun r => r.AtCenter guest) ∧
      (s.clientUp key = [] → s.cluster.uplink key.1 = [] →
        heard = (s.requests key).filter fun r => r.AtCenter guest) ∧
      List.Forall₂ (fun r entry => entry.2.Carries (r.relayed guest)) heard
        (s.cluster.centerLog.filter fun entry =>
          entry.1 = key.1 ∧ entry.2.ownerInfo = guest.ownerInfo) := by
  obtain ⟨star, origins, h⟩ := goesOn_of_runs env overread net clients nodes hnodes hnet hrun
  exact h.heard_at_center (connected_of_types net nodes hnodes) hjoined halone

/-- In every run of clients whose guests know no server but a center, what a gate or a world server
    has dispatched are, packet by packet, those that servers or the center have sent to it, and what
    the center has dispatched of clients are requests for a center. Nobody dispatches any other
    request. -/
theorem servers_hear_servers (hnodes : ∀ j node, nodes j = some node →
      node.RegisteredAt j ∧ node.log = [] ∧ net.connected j = true)
    (hnet : ∀ i front, net.getChannel i = some front → front.getChannelIndex = i)
    (hguests : ∀ key guest, Joined clients nodes key guest → guest.CenterOnly)
    (events : List Event) (s : State)
    (hrun : (system env overread net clients nodes).Runs events (.ok s)) :
    ∃ origins taken, ByOrigin clients nodes s origins taken := by
  obtain ⟨star, origins, h⟩ := goesOn_of_runs env overread net clients nodes hnodes hnet hrun
  obtain ⟨taken, htaken⟩ := h.byOrigin (connected_of_types net nodes hnodes) hguests
  exact ⟨origins, taken, htaken⟩

end Runs

/-! ### One client -/

theorem oneClient_joined_iff {key : Key} {guest : Guest} (h : Joined oneClient twoServers key guest) :
    key = (1, 1) ∧ guest = .new (guestInfo 1 1) 0x02000000 := by
  obtain ⟨channel, hchannel, -⟩ := h.client
  rw [oneClient] at hchannel
  split at hchannel
  · next hkey =>
    subst hkey
    exact ⟨rfl, h.unique oneClient_joined⟩
  · cases hchannel

/-- A request for the center. -/
def toCenter : Request := ⟨.centerserver, ⟨[80], [8, 1]⟩⟩

/-- When all of its bytes have arrived, what the center has heard is the request. -/
theorem center_hears_oneClient : ∃ m n s entry,
    (system Selection.plainEnv (fun pkt => (pkt, false)) Cluster.allConnected oneClient
      twoServers).Runs [.request (1, 1) toCenter, .frontArrive (1, 1) m,
        .server (.centerArrive 1 n)] (.ok s) ∧
    (s.cluster.centerLog.filter fun entry =>
      entry.1 = 1 ∧ entry.2.ownerInfo = guestInfo 1 1) = [entry] ∧
    entry.2.Carries (toCenter.relayed (.new (guestInfo 1 1) 0x02000000)) := by
  obtain ⟨s₁, hsent, -⟩ := oneClient_next (e := .request (1, 1) toCenter) .nil
    ⟨⟨_, oneClient_joined⟩, ⟨by decide, by decide⟩, by decide⟩
  obtain ⟨s₂, hatGate, hok₂⟩ := oneClient_next
    (e := .frontArrive (1, 1) (s₁.clientUp (1, 1)).length) hsent ⟨_, oneClient_joined_of_runs hsent⟩
  obtain ⟨s, hatCenter, hok⟩ := oneClient_next
    (e := .server (.centerArrive 1 (s₂.cluster.uplink 1).length)) hatGate ⟨trivial, trivial⟩
  have hrecords := records_of_runs hatCenter
  have halone : SpeaksAlone oneClient twoServers s (1, 1) (.new (guestInfo 1 1) 0x02000000) := by
    refine ⟨fun k guest' hjoined _ => ?_, fun m hm => ?_⟩
    · exact congrArg Prod.snd (oneClient_joined_iff hjoined).1
    · rw [hrecords.sent] at hm
      cases hm
  obtain ⟨heard, -, hall, hheard⟩ := center_hears Selection.plainEnv (fun pkt => (pkt, false))
    Cluster.allConnected oneClient twoServers twoServers_registered allConnected_index _ s hatCenter
    (1, 1) _ oneClient_joined halone
  have hup : s.clientUp (1, 1) = [] := by
    rw [clientUp_server hok, clientUp_frontArrive (oneClient_joined_of_runs hsent) hok₂,
      List.drop_length]
  have huplink : s.cluster.uplink 1 = [] := by
    rw [uplink_centerArrive rfl hok, List.drop_length]
  have hrequests : s.requests (1, 1) = [toCenter] := hrecords.requests (1, 1)
  have hcenter : toCenter.AtCenter (.new (guestInfo 1 1) 0x02000000) := by decide
  have hone : ([toCenter].filter fun r => r.AtCenter (.new (guestInfo 1 1) 0x02000000)) =
      [toCenter] := List.filter_cons_of_pos (decide_eq_true hcenter)
  rw [hall hup huplink, hrequests, hone] at hheard
  obtain ⟨entry, rest, hentry, hrest, hlog⟩ := List.forall₂_cons_left_iff.mp hheard
  rw [List.forall₂_nil_left_iff.mp hrest] at hlog
  exact ⟨_, _, s, entry, hatCenter, hlog, hentry⟩

/-- A packet of the center for the world server, with what a client may ask of it. -/
def fromCenter : Sent := ⟨regInfo .worldserver 2, 0x02000000, ⟨[80], [8, 1]⟩⟩

/-- The world server dispatches the packet of the center, and nobody the request with the same
    message. -/
theorem servers_hear_servers_oneClient : ∃ n s origins taken node packet,
    (system Selection.plainEnv (fun pkt => (pkt, false)) Cluster.allConnected oneClient
      twoServers).Runs [.request (1, 1) toWorldServer, .frontArrive (1, 1) 20,
        .server (.centerArrive 1 30), .server (.centerSend 2 fromCenter),
        .server (.nodeArrive 2 n)] (.ok s) ∧
    ByOrigin oneClient twoServers s origins taken ∧ s.cluster.centerLog = [] ∧
    s.cluster.nodes 2 = some node ∧ node.log = [(.backEnd, packet)] ∧
    packet.Carries fromCenter := by
  have hname : ¬ PacketType.pktRegisterAck.descriptor.Named fromCenter.msg.name := by decide
  obtain ⟨s₁, hrequest, -⟩ := oneClient_next (e := .request (1, 1) toWorldServer) .nil
    ⟨⟨_, oneClient_joined⟩, ⟨by decide, by decide⟩, by decide⟩
  obtain ⟨s₂, hatGate, -⟩ := oneClient_next (e := .frontArrive (1, 1) 20) hrequest
    ⟨_, oneClient_joined_of_runs hrequest⟩
  obtain ⟨s₃, hatCenter, -⟩ := oneClient_next (e := .server (.centerArrive 1 30)) hatGate
    ⟨trivial, trivial⟩
  obtain ⟨s₄, hsent, -⟩ := oneClient_next (e := .server (.centerSend 2 fromCenter)) hatCenter
    ⟨⟨rfl, by decide, by decide⟩, hname⟩
  obtain ⟨s, hatWorld, hok⟩ := oneClient_next
    (e := .server (.nodeArrive 2 (s₄.cluster.downlink 2).length)) hsent ⟨trivial, trivial⟩
  have hworld : ∀ {events s}, (system Selection.plainEnv (fun pkt => (pkt, false))
      Cluster.allConnected oneClient twoServers).Runs events (.ok s) →
        (s.cluster.nodes 2).map Node.peerType = some .worldserver := by
    intro events s hrun
    obtain ⟨_, _, h⟩ := goesOn_of_runs Selection.plainEnv (fun pkt => (pkt, false))
      Cluster.allConnected oneClient twoServers twoServers_registered allConnected_index hrun
    exact h.carried.types 2
  obtain ⟨node, hnode, htype⟩ := Option.map_eq_some_iff.mp (hworld hatWorld)
  obtain ⟨origins, taken, horigin⟩ := servers_hear_servers Selection.plainEnv
    (fun pkt => (pkt, false)) Cluster.allConnected oneClient twoServers twoServers_registered
    allConnected_index (fun key guest hjoined => by
      obtain ⟨-, rfl⟩ := oneClient_joined_iff hjoined
      exact Guest.new_centerOnly _ (Or.inr (by decide))) _ s hatWorld
  have hrecords := records_of_runs hatWorld
  have hcenterLog : s.cluster.centerLog = [] := by
    refine horigin.centerLog_eq_nil hrecords.sent fun key r hr => ?_
    have hrequests : s.requests key = if (1, 1) = key then [toWorldServer] else [] :=
      (hrecords.requests key).trans (List.append_nil _)
    rw [hrequests] at hr
    split at hr
    · cases List.mem_singleton.mp hr
      decide
    · cases hr
  obtain ⟨handled, hhears⟩ := horigin.servers 2 node (by decide) hnode
  have hdown : s.cluster.downlink 2 = [] := by
    rw [downlink_nodeArrive (Option.isSome_map.symm.trans (congrArg Option.isSome (hworld hsent))) hok,
      List.drop_length]
  obtain ⟨hcenter, hothers⟩ := hhears.all hdown
  rw [horigin.fromHub_eq_nil hrecords.sent] at hothers
  rw [hrecords.centerSent] at hcenter
  have hhandled : handled = [(none, fromCenter)] := by
    rw [eq_untagged_of_fromOthers_eq_nil hothers, hcenter]
    rfl
  obtain ⟨parts, hlog, hparts⟩ := hhears.parts
  rw [hhandled, htype] at hparts
  obtain ⟨packet, rfl, hcarries⟩ := Cluster.nodeDispatched_singleton rfl hparts
  exact ⟨_, s, origins, taken, node, packet, hatWorld, horigin, hcenterLog, hnode, hlog, hcarries⟩

end ClientRelay

end TerraX
