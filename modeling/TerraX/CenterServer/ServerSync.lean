import TerraX.CenterServer.ServerManagerCenter
import TerraX.Lib.Outcome
import TerraX.Lib.Run

/-!
# The registry of the center and the views of the servers

The center and the servers that are registered at it, each with a link on which its
`PktServerSync` messages arrive in order. Servers come and go and messages arrive in any
order. A message goes to the link of the server that it is addressed to.

## Main definitions

- `ServerSync.system` — the events, and what they do
- `ServerSync.ViewOf` — what a server has to know of a registry
- `ServerSync.Synced` — the invariant

## Main results

- `ServerSync.step_synced` — every event keeps the invariant, and no assertion fails
- `ServerSync.views_eq_registry` — every server will know what the center knows
-/

namespace TerraX

open Memory Fifo ServerInfos ServerManager ServerManagerCenter

namespace ServerSync

/-- The registry of the center, and the link of every server that is registered. -/
structure State where
  infos : ServerInfos
  links : Word → Option (Link PktServerSync ServerInfos)

inductive Event
  | serverAdded (peerInfo : Word)
  | serverRemoved (peerInfo : Word)
  | deliver (peerInfo : Word)
deriving DecidableEq, Repr

/-- `PeerInfo(PeerType_t::centerserver)`, which `CenterServer::InitNetModule` registers. -/
def centerInfo : Word := PeerInfo.serialize { peerType := .centerserver }

/-- A message goes to the server that it is addressed to. -/
def addressed (o : Outgoing PktServerSync) : Word × PktServerSync := (o.destInfo, o.msg)

/-- A new server knows nothing. -/
def newLink : Link PktServerSync ServerInfos := ⟨[], fun _ => none⟩

def init : State := ⟨(onServerAdded (fun _ => none) centerInfo).1, fun _ => none⟩

/-- A server joins with a peer info that no other one has; only a server that is there
    leaves; and only what has been sent arrives. -/
def enabled (s : State) : Event → Prop
  | .serverAdded p => IsServer (PeerInfo.getPeerType p) ∧ s.links p = none
  | .serverRemoved p => (s.links p).isSome
  | .deliver p => ∃ l, s.links p = some l ∧ l.pending ≠ []

def step (build : Build) (s : State) : Event → Except Fault State
  | .serverAdded p =>
    let (infos, sent) := onServerAdded s.infos p
    .ok ⟨infos, post (Function.update s.links p (some newLink)) (sent.map addressed)⟩
  | .serverRemoved p =>
    let (infos, sent) := onServerRemoved s.infos p
    .ok ⟨infos, post (Function.update s.links p none) (sent.map addressed)⟩
  | .deliver p =>
    match s.links p with
    | none => .ok s
    | some l => do
      let l ← l.deliver (onMessagePktServerSync build)
      return ⟨s.infos, Function.update s.links p (some l)⟩

def system (build : Build) : Run.System State Event Fault := ⟨init, enabled, step build⟩

/-- The servers that have come and have not left. -/
def registered (es : List Event) : Finset Word :=
  es.foldl (fun servers e =>
    match e with
    | .serverAdded p => insert p servers
    | .serverRemoved p => servers.erase p
    | .deliver _ => servers) ∅

/-! ### The invariant -/

/-- What a server of type `peerType` has to know of the registry. -/
def ViewOf (infos : ServerInfos) (peerType : PeerType) (view : ServerInfos) : Prop :=
  ∀ t w, w ∈ view.known t ↔ Sees peerType t ∧ w ∈ infos.known t

/-- What a server of type `peerType` is sent when `peerInfo` comes or leaves. -/
def news (peerType : PeerType) (syncType : SyncType) (peerInfo : Word) : List PktServerSync :=
  if peerType = PeerInfo.getPeerType peerInfo then [] else [⟨syncType, [peerInfo]⟩]

/-- The registry holds the center and the servers with a link; and every server will know
    what it has to know when all that is on its link has arrived. -/
structure Synced (build : Build) (infos : ServerInfos)
    (links : Word → Option (Link PktServerSync ServerInfos)) : Prop where
  typed : infos.WellTyped
  registered : ∀ p, p ∈ infos.known (PeerInfo.getPeerType p) ↔ p = centerInfo ∨ (links p).isSome
  servers : ∀ p, (links p).isSome → IsServer (PeerInfo.getPeerType p)
  views : ∀ p l, links p = some l →
    l.Settles (onMessagePktServerSync build) (ViewOf infos (PeerInfo.getPeerType p))

theorem Synced.mem_known {build : Build} {infos : ServerInfos}
    {links : Word → Option (Link PktServerSync ServerInfos)} (h : Synced build infos links)
    {t : PeerType} {p : Word} : p ∈ infos.known t ↔
      PeerInfo.getPeerType p = t ∧ (p = centerInfo ∨ (links p).isSome) := by
  rw [← h.registered p]
  constructor
  · intro hp
    have htype := h.typed t p hp
    exact ⟨htype, htype ▸ hp⟩
  · rintro ⟨rfl, hp⟩
    exact hp

theorem sees_iff {peerType seen : PeerType} (h : IsServer seen) :
    Sees peerType seen ↔ seen ≠ peerType := by
  constructor
  · rintro (rfl | ⟨-, hne⟩)
    · exact absurd h (by decide)
    · exact hne
  · exact fun hne => Or.inr ⟨h, hne⟩

theorem ViewOf.congr {infos infos' : ServerInfos} {peerType : PeerType} {view : ServerInfos}
    (h : ViewOf infos peerType view)
    (heq : ∀ t w, Sees peerType t → (w ∈ infos.known t ↔ w ∈ infos'.known t)) :
    ViewOf infos' peerType view := by
  intro t w
  rw [h t w]
  exact and_congr_right fun hsees => heq t w hsees

/-- A server does not see those of its own type. -/
theorem ViewOf.congr_same {infos infos' : ServerInfos} {p : Word} {view : ServerInfos}
    {peerType : PeerType} (h : ViewOf infos peerType view)
    (hp : IsServer (PeerInfo.getPeerType p)) (hsame : peerType = PeerInfo.getPeerType p)
    (heq : ∀ t w, PeerInfo.getPeerType p ≠ t → (w ∈ infos.known t ↔ w ∈ infos'.known t)) :
    ViewOf infos' peerType view := by
  refine h.congr fun t w hsees => heq t w ?_
  rintro rfl
  exact (sees_iff hp).mp hsees hsame.symm

/-- A registered server of another type gets one message for a change, and nobody else. -/
theorem sentTo_broadCast {infos : ServerInfos} (hinfos : infos.WellTyped) {peerType : PeerType}
    (h : IsServer peerType) (q peerInfo : Word) (syncType : SyncType) :
    sentTo q ((broadCastServerInfoChanged infos peerType peerInfo syncType).map addressed) =
      if (IsServer (PeerInfo.getPeerType q) ∧ PeerInfo.getPeerType q ≠ peerType) ∧
        q ∈ infos.known (PeerInfo.getPeerType q) then [⟨syncType, [peerInfo]⟩] else [] := by
  obtain ⟨told, hnodup, hmem, heq⟩ := broadCastServerInfoChanged_eq hinfos h
  have hiff : q ∈ told ↔ (IsServer (PeerInfo.getPeerType q) ∧ PeerInfo.getPeerType q ≠ peerType) ∧
      q ∈ infos.known (PeerInfo.getPeerType q) := by
    rw [hmem]
    constructor
    · rintro ⟨t, ht, hq⟩
      rw [hinfos t q hq]
      exact ⟨ht, hq⟩
    · rintro ⟨ht, hq⟩
      exact ⟨_, ht, hq⟩
  rw [heq, List.map_map]
  exact (sentTo_broadcast q _ hnodup).trans (if_congr hiff rfl rfl)

theorem sentTo_map_addressed_cons (q : Word) (o : Outgoing PktServerSync)
    (sent : List (Outgoing PktServerSync)) :
    sentTo q ((o :: sent).map addressed) =
      (if o.destInfo = q then [o.msg] else []) ++ sentTo q (sent.map addressed) :=
  sentTo_cons q (addressed o) (sent.map addressed)

/-! ### What a message does to a view -/

section Views

variable {build : Build} {infos : ServerInfos} {peerType : PeerType} {view : ServerInfos} {p : Word}

/-- The message about a new server. -/
theorem ViewOf.add (h : ViewOf infos peerType view) (hp : IsServer (PeerInfo.getPeerType p))
    (hne : PeerInfo.getPeerType p ≠ peerType) :
    ∃ view', [(⟨.add, [p]⟩ : PktServerSync)].foldlM (onMessagePktServerSync build) view =
      .ok view' ∧ ViewOf (infos.add p) peerType view' := by
  refine ⟨view.add p, rfl, fun t w => ?_⟩
  rw [mem_known_add, mem_known_add, h t w]
  have hsees : Sees peerType (PeerInfo.getPeerType p) := (sees_iff hp).mpr hne
  constructor
  · rintro (⟨ht, hw⟩ | ⟨rfl, rfl⟩)
    · exact ⟨ht, Or.inl hw⟩
    · exact ⟨hsees, Or.inr ⟨rfl, rfl⟩⟩
  · rintro ⟨ht, hw | hw⟩
    · exact Or.inl ⟨ht, hw⟩
    · exact Or.inr hw

/-- The message about a server that leaves. -/
theorem ViewOf.remove (h : ViewOf infos peerType view) (hp : IsServer (PeerInfo.getPeerType p))
    (hne : PeerInfo.getPeerType p ≠ peerType) (hmem : p ∈ infos.known (PeerInfo.getPeerType p)) :
    ∃ view', [(⟨.remove, [p]⟩ : PktServerSync)].foldlM (onMessagePktServerSync build) view =
      .ok view' ∧ ViewOf (onServerRemoved infos p).1 peerType view' := by
  obtain ⟨view', hview', hknown⟩ := removeInfo_of_mem build
    ((h (PeerInfo.getPeerType p) p).mpr ⟨(sees_iff hp).mpr hne, hmem⟩)
  refine ⟨view', ?_, fun t w => ?_⟩
  · rw [List.foldlM_cons, onMessagePktServerSync_remove, List.foldlM_cons, hview']
    rfl
  · rw [hknown, mem_known_onServerRemoved, h t w, and_assoc]

/-- The first message that a new server gets. -/
theorem viewOf_snapshot (build : Build) {serverInfo : List Word} (htyped : infos.WellTyped)
    (hmem : ∀ w, w ∈ serverInfo ↔ ∃ t, Sees peerType t ∧ w ∈ infos.known t) :
    ∃ view', [(⟨.add, serverInfo⟩ : PktServerSync)].foldlM (onMessagePktServerSync build)
      (fun _ => none) = .ok view' ∧ ViewOf infos peerType view' := by
  refine ⟨serverInfo.foldl ServerInfos.add (fun _ => none), rfl, fun t w => ?_⟩
  rw [mem_known_foldl_add, known_empty, hmem]
  constructor
  · rintro (hw | ⟨⟨t', hsees, hw⟩, ht⟩)
    · exact absurd hw (Finset.notMem_empty _)
    · rw [← ht, htyped t' w hw]
      exact ⟨hsees, hw⟩
  · rintro ⟨hsees, hw⟩
    exact Or.inr ⟨⟨t, hsees, hw⟩, htyped t w hw⟩

end Views

/-! ### The steps -/

theorem not_isServer_centerInfo : ¬ IsServer (PeerInfo.getPeerType centerInfo) := by
  rw [centerInfo, PeerInfo.getPeerType_serialize]
  decide

theorem wellTyped_empty : WellTyped fun _ => none := by
  intro t w hw
  exact absurd hw (Finset.notMem_empty w)

theorem init_synced (build : Build) : Synced build init.infos init.links where
  typed := wellTyped_empty.add centerInfo
  registered p := by
    refine mem_known_add.trans ?_
    rw [known_empty]
    constructor
    · rintro (hp | ⟨hp, -⟩)
      · exact absurd hp (Finset.notMem_empty p)
      · exact Or.inl hp
    · rintro (rfl | hp)
      · exact Or.inr ⟨rfl, rfl⟩
      · exact nomatch hp
  servers p hp := nomatch hp
  views p l hl := nomatch hl

/-- Changing the link of a server leaves links of servers only. -/
theorem Synced.isServer_update {build : Build} {infos : ServerInfos}
    {links : Word → Option (Link PktServerSync ServerInfos)} (h : Synced build infos links)
    {p q : Word} (hp : IsServer (PeerInfo.getPeerType p))
    {link : Option (Link PktServerSync ServerInfos)}
    (hq : (Function.update links p link q).isSome) : IsServer (PeerInfo.getPeerType q) := by
  by_cases hqp : q = p
  · rwa [hqp]
  · rw [Function.update_of_ne hqp] at hq
    exact h.servers q hq

/-- The news is for the registered servers of another type. -/
theorem news_eq_sentTo {build : Build} {s : State} {p q : Word} (h : Synced build s.infos s.links)
    (hp : IsServer (PeerInfo.getPeerType p)) (hq : (s.links q).isSome) (syncType : SyncType) :
    sentTo q ((broadCastServerInfoChanged s.infos (PeerInfo.getPeerType p) p syncType).map
      addressed) = news (PeerInfo.getPeerType q) syncType p := by
  have hreg : q ∈ s.infos.known (PeerInfo.getPeerType q) := (h.registered q).mpr (Or.inr hq)
  rw [sentTo_broadCast h.typed hp, news]
  by_cases htype : PeerInfo.getPeerType q = PeerInfo.getPeerType p
  · rw [if_pos htype, if_neg fun hc => hc.1.2 htype]
  · rw [if_neg htype, if_pos ⟨⟨h.servers q hq, htype⟩, hreg⟩]

/-- The new server gets its snapshot, a server of another type the news, and a server of the
    same type nothing. -/
theorem links_serverAdded {build : Build} {s s' : State} {p : Word}
    (h : Synced build s.infos s.links) (hp : IsServer (PeerInfo.getPeerType p))
    (hstep : step build s (.serverAdded p) = .ok s') :
    (∃ serverInfo : List Word,
      (∀ w, w ∈ serverInfo ↔ ∃ t, Sees (PeerInfo.getPeerType p) t ∧ w ∈ s.infos.known t) ∧
      s'.links p = some (newLink.send [⟨.add, serverInfo⟩])) ∧
    ∀ q, q ≠ p →
      s'.links q = (s.links q).map fun l => l.send (news (PeerInfo.getPeerType q) .add p) := by
  have hlinks : s'.links = post (Function.update s.links p (some newLink))
      ((onServerAdded s.infos p).2.map addressed) := by
    cases hstep
    rfl
  obtain ⟨serverInfo, hmem, hsent⟩ := onServerAdded_sent s.infos hp
  rw [hlinks, hsent]
  refine ⟨⟨serverInfo, hmem, ?_⟩, fun q hqp => ?_⟩
  · rw [post, Function.update_self, Option.map_some, sentTo_map_addressed_cons, if_pos rfl,
      sentTo_broadCast h.typed hp, if_neg fun hc => hc.1.2 rfl, List.append_nil]
  · rw [post, Function.update_of_ne hqp, sentTo_map_addressed_cons, if_neg (Ne.symm hqp),
      List.nil_append]
    cases hq : s.links q with
    | none => rfl
    | some l => rw [Option.map_some, Option.map_some, news_eq_sentTo h hp (by rw [hq]; rfl)]

/-- A server that leaves has no link any more, and those of the other types have the news. -/
theorem links_serverRemoved {build : Build} {s s' : State} {p : Word}
    (h : Synced build s.infos s.links) (hp : IsServer (PeerInfo.getPeerType p))
    (hstep : step build s (.serverRemoved p) = .ok s') :
    s'.links p = none ∧ ∀ q, q ≠ p →
      s'.links q = (s.links q).map fun l => l.send (news (PeerInfo.getPeerType q) .remove p) := by
  have hlinks : s'.links = post (Function.update s.links p none)
      ((onServerRemoved s.infos p).2.map addressed) := by
    cases hstep
    rfl
  rw [hlinks, onServerRemoved_sent hp]
  refine ⟨by rw [post, Function.update_self, Option.map_none], fun q hqp => ?_⟩
  rw [post, Function.update_of_ne hqp]
  cases hq : s.links q with
  | none => rfl
  | some l => rw [Option.map_some, Option.map_some, news_eq_sentTo h hp (by rw [hq]; rfl)]

theorem serverAdded_synced {build : Build} {s : State} {p : Word} (h : Synced build s.infos s.links)
    (hp : IsServer (PeerInfo.getPeerType p)) (hnew : s.links p = none) :
    ∃ s', step build s (.serverAdded p) = .ok s' ∧ Synced build s'.infos s'.links := by
  have hinfos : (onServerAdded s.infos p).1 = s.infos.add p := rfl
  refine ⟨⟨(onServerAdded s.infos p).1, post (Function.update s.links p (some newLink))
    ((onServerAdded s.infos p).2.map addressed)⟩, rfl, ?_⟩
  rw [hinfos]
  refine ⟨h.typed.add p, fun q => ?_, fun q hq => ?_, fun q l hl => ?_⟩
  · rw [isSome_post]
    by_cases hqp : q = p
    · subst hqp
      rw [Function.update_self]
      exact ⟨fun _ => Or.inr rfl, fun _ => mem_known_add.mpr (Or.inr ⟨rfl, rfl⟩)⟩
    · rw [Function.update_of_ne hqp, ← h.registered q]
      exact mem_known_add.trans (by simp [hqp])
  · rw [isSome_post] at hq
    exact h.isServer_update hp hq
  · have hlinks := links_serverAdded h hp (rfl : step build s (.serverAdded p) = .ok _)
    by_cases hqp : q = p
    · subst hqp
      obtain ⟨serverInfo, hmem, hlink⟩ := hlinks.1
      cases hlink.symm.trans hl
      have hempty : newLink.Settles (onMessagePktServerSync build) fun view => view = fun _ => none :=
        Link.settles_nil_iff.mpr rfl
      refine hempty.send ?_
      rintro view rfl
      obtain ⟨view', hview', hof⟩ := viewOf_snapshot build h.typed hmem
      -- The snapshot lacks the new server itself, which does not see its own type.
      refine ⟨view', hview', hof.congr_same hp rfl fun t w hne => ?_⟩
      simp [mem_known_add, hne]
    · obtain ⟨l', hl', rfl⟩ := Option.map_eq_some_iff.mp ((hlinks.2 q hqp).symm.trans hl)
      refine (h.views q l' hl').send fun view hview => ?_
      rw [news]
      -- A server of the same type gets no message, and has no difference to see.
      by_cases hsame : PeerInfo.getPeerType q = PeerInfo.getPeerType p
      · rw [if_pos hsame]
        refine ⟨view, rfl, hview.congr_same hp hsame fun t w hpt => ?_⟩
        simp [mem_known_add, hpt]
      · rw [if_neg hsame]
        exact hview.add hp (Ne.symm hsame)

theorem serverRemoved_synced {build : Build} {s : State} {p : Word} (h : Synced build s.infos s.links)
    (hlive : (s.links p).isSome) :
    ∃ s', step build s (.serverRemoved p) = .ok s' ∧ Synced build s'.infos s'.links := by
  have hp := h.servers p hlive
  have hreg := (h.registered p).mpr (Or.inr hlive)
  refine ⟨⟨(onServerRemoved s.infos p).1, post (Function.update s.links p none)
    ((onServerRemoved s.infos p).2.map addressed)⟩, rfl, fun t w hw => ?_, fun q => ?_,
    fun q hq => ?_, fun q l hl => ?_⟩
  · exact h.typed t w (mem_known_onServerRemoved.mp hw).1
  · rw [isSome_post]
    refine mem_known_onServerRemoved.trans ?_
    by_cases hqp : q = p
    · subst hqp
      have hcenter : q ≠ centerInfo := fun hc => not_isServer_centerInfo (hc ▸ hp)
      simp [hcenter]
    · rw [Function.update_of_ne hqp, ← h.registered q]
      simp [hqp]
  · rw [isSome_post] at hq
    exact h.isServer_update hp hq
  · have hlinks := links_serverRemoved h hp (rfl : step build s (.serverRemoved p) = .ok _)
    have hqp : q ≠ p := by
      rintro rfl
      cases hlinks.1.symm.trans hl
    obtain ⟨l', hl', rfl⟩ := Option.map_eq_some_iff.mp ((hlinks.2 q hqp).symm.trans hl)
    refine (h.views q l' hl').send fun view hview => ?_
    rw [news]
    by_cases hsame : PeerInfo.getPeerType q = PeerInfo.getPeerType p
    · rw [if_pos hsame]
      refine ⟨view, rfl, hview.congr_same hp hsame fun t w hpt => ?_⟩
      simp [mem_known_onServerRemoved, hpt]
    · rw [if_neg hsame]
      exact hview.remove hp (Ne.symm hsame) hreg

theorem deliver_synced {build : Build} {s : State} {p : Word} (h : Synced build s.infos s.links) :
    ∃ s', step build s (.deliver p) = .ok s' ∧ Synced build s'.infos s'.links := by
  cases hl : s.links p with
  | none => exact ⟨s, by simp only [step, hl], h⟩
  | some l =>
    obtain ⟨l', hdeliver, hsettles⟩ := (h.views p l hl).deliver
    have hstep : step build s (.deliver p) =
        .ok ⟨s.infos, Function.update s.links p (some l')⟩ := by
      simp only [step, hl, hdeliver]
      rfl
    refine ⟨_, hstep, ?_⟩
    dsimp only
    refine ⟨h.typed, fun q => ?_, fun q hq => ?_, fun q lq hlq => ?_⟩
    · rw [h.registered q]
      by_cases hqp : q = p
      · subst hqp
        simp [hl]
      · rw [Function.update_of_ne hqp]
    · by_cases hqp : q = p
      · subst hqp
        exact h.servers q (by rw [hl]; rfl)
      · rw [Function.update_of_ne hqp] at hq
        exact h.servers q hq
    · by_cases hqp : q = p
      · subst hqp
        rw [Function.update_self] at hlq
        cases hlq
        exact hsettles
      · rw [Function.update_of_ne hqp] at hlq
        exact h.views q lq hlq

theorem step_synced {build : Build} {s : State} {e : Event} (h : Synced build s.infos s.links)
    (henabled : enabled s e) : ∃ s', step build s e = .ok s' ∧ Synced build s'.infos s'.links := by
  cases e with
  | serverAdded p => exact serverAdded_synced h henabled.1 henabled.2
  | serverRemoved p => exact serverRemoved_synced h henabled
  | deliver p => exact deliver_synced h

/-- A run of the system does not fail, and is `Synced` at its end. -/
theorem runs_synced {build : Build} {es : List Event} {r : Except Fault State}
    (h : (system build).Runs es r) : ∃ s, r = .ok s ∧ Synced build s.infos s.links := by
  have hstep : ∀ (_ : List Event) s e, Synced build s.infos s.links → (system build).enabled s e →
      ∃ s', (system build).step s e = .ok s' ∧ Synced build s'.infos s'.links :=
    fun _ _ _ hinv henabled => step_synced hinv henabled
  exact Run.System.invariant (init_synced build) hstep h

theorem registered_concat (es : List Event) (e : Event) :
    registered (es ++ [e]) =
      match e with
      | .serverAdded p => insert p (registered es)
      | .serverRemoved p => (registered es).erase p
      | .deliver _ => registered es := by
  rw [registered, List.foldl_append]
  rfl

/-- What one event does to the links that there are. -/
theorem isSome_links_step {build : Build} {es : List Event} {s s' : State} {e : Event}
    (h : ∀ p, (s.links p).isSome ↔ p ∈ registered es) (hstep : step build s e = .ok s') (p : Word) :
    (s'.links p).isSome ↔ p ∈ registered (es ++ [e]) := by
  rw [registered_concat]
  cases e with
  | serverAdded q =>
    cases hstep
    rw [isSome_post, Finset.mem_insert, ← h p]
    by_cases hpq : p = q
    · simp [hpq]
    · simp [hpq]
  | serverRemoved q =>
    cases hstep
    rw [isSome_post, Finset.mem_erase, ← h p]
    by_cases hpq : p = q
    · simp [hpq]
    · simp [hpq]
  | deliver q =>
    rw [← h p]
    cases hq : s.links q with
    | none =>
      simp only [step, hq] at hstep
      cases hstep
      rfl
    | some l =>
      simp only [step, hq] at hstep
      obtain ⟨l', -, hs'⟩ := Outcome.bind_eq_ok_iff.mp hstep
      cases hs'
      by_cases hpq : p = q
      · simp [hpq, hq]
      · simp [hpq]

/-- The servers with a link are those that have come and have not left. -/
theorem isSome_links_iff {build : Build} {es : List Event} {s : State}
    (h : (system build).Runs es (.ok s)) : ∀ p, (s.links p).isSome ↔ p ∈ registered es := by
  have hinit : ∀ p, (init.links p).isSome ↔ p ∈ registered [] := by
    intro p
    simp [init, registered]
  have hstep : ∀ es s e s', (∀ p, (s.links p).isSome ↔ p ∈ registered es) →
      (system build).enabled s e → (system build).step s e = .ok s' →
      ∀ p, (s'.links p).isSome ↔ p ∈ registered (es ++ [e]) :=
    fun _ _ _ _ hinv _ hstep => isSome_links_step hinv hstep
  exact Run.System.preserves hinit hstep h

theorem mem_restricted {seen : Prop} [Decidable seen] {servers : Finset Word} {w : Word} :
    (w ∈ if seen then servers else ∅) ↔ seen ∧ w ∈ servers := by
  by_cases h : seen <;> simp [h]

/-- In every run no assertion fails; the registry of the center holds the center itself and the
    servers that have come and have not left, each under its own type; these servers have links;
    and for every one of them, applying what is still on its link to its view gives that registry,
    restricted to the centers and the servers of the two other types. With an empty link the view
    is that already. -/
theorem views_eq_registry (build : Build) (es : List Event) (r : Except Fault State)
    (h : (system build).Runs es r) :
    ∃ s, r = .ok s ∧
      (∀ t p, p ∈ s.infos.known t ↔
        PeerInfo.getPeerType p = t ∧ (p = centerInfo ∨ p ∈ registered es)) ∧
      (∀ p, (s.links p).isSome ↔ p ∈ registered es) ∧
      ∀ p l, s.links p = some l →
      (∃ view, l.pending.foldlM (onMessagePktServerSync build) l.receiver = .ok view ∧
        ∀ t, view.known t = if Sees (PeerInfo.getPeerType p) t then s.infos.known t else ∅) ∧
      (l.pending = [] → ∀ t, l.receiver.known t =
        if Sees (PeerInfo.getPeerType p) t then s.infos.known t else ∅) := by
  obtain ⟨s, hs, hsynced⟩ := runs_synced h
  have hlinks := isSome_links_iff (hs ▸ h)
  refine ⟨s, hs, fun t p => ?_, hlinks, fun p l hl => ?_⟩
  · rw [hsynced.mem_known, hlinks p]
  obtain ⟨view, hview, hof⟩ := hsynced.views p l hl
  have hknown : ∀ t, view.known t =
      if Sees (PeerInfo.getPeerType p) t then s.infos.known t else ∅ := by
    intro t
    ext w
    rw [hof t w, mem_restricted]
  refine ⟨⟨view, hview, hknown⟩, fun hnil t => ?_⟩
  rw [hnil] at hview
  cases hview
  exact hknown t

/-! ### A run with two servers -/

theorem runs_serverAdded {build : Build} {es : List Event} {s : State}
    (h : (system build).Runs es (.ok s)) {p : Word} (hp : IsServer (PeerInfo.getPeerType p))
    (hnew : s.links p = none) :
    ∃ s' serverInfo, (system build).Runs (es ++ [.serverAdded p]) (.ok s') ∧
      s'.links p = some ⟨[⟨.add, serverInfo⟩], fun _ => none⟩ ∧ ∀ q, q ≠ p →
        s'.links q = (s.links q).map fun l => l.send (news (PeerInfo.getPeerType q) .add p) := by
  obtain ⟨_, hs, hsynced⟩ := runs_synced h
  cases hs
  obtain ⟨s', hstep, -⟩ := serverAdded_synced hsynced hp hnew
  obtain ⟨⟨serverInfo, -, hlink⟩, hothers⟩ := links_serverAdded hsynced hp hstep
  exact ⟨s', serverInfo, h.next _ ⟨hp, hnew⟩ hstep, hlink, hothers⟩

theorem runs_serverRemoved {build : Build} {es : List Event} {s : State}
    (h : (system build).Runs es (.ok s)) {p : Word} (hlive : (s.links p).isSome) :
    ∃ s', (system build).Runs (es ++ [.serverRemoved p]) (.ok s') ∧ s'.links p = none ∧
      ∀ q, q ≠ p →
        s'.links q = (s.links q).map fun l => l.send (news (PeerInfo.getPeerType q) .remove p) := by
  obtain ⟨_, hs, hsynced⟩ := runs_synced h
  cases hs
  obtain ⟨s', hstep, -⟩ := serverRemoved_synced hsynced hlive
  obtain ⟨hlink, hothers⟩ := links_serverRemoved hsynced (hsynced.servers p hlive) hstep
  exact ⟨s', h.next _ hlive hstep, hlink, hothers⟩

/-- The oldest message of a link that arrives, which changes no other link. -/
theorem runs_deliver {build : Build} {es : List Event} {s : State}
    (h : (system build).Runs es (.ok s)) {p : Word} {m : PktServerSync} {ms : List PktServerSync}
    {receiver : ServerInfos} (hl : s.links p = some ⟨m :: ms, receiver⟩) :
    ∃ s' receiver', (system build).Runs (es ++ [.deliver p]) (.ok s') ∧
      s'.links = Function.update s.links p (some ⟨ms, receiver'⟩) := by
  obtain ⟨_, hs, hsynced⟩ := runs_synced h
  cases hs
  obtain ⟨s', hstep, -⟩ := deliver_synced (p := p) hsynced
  have hrun := h.next (.deliver p) ⟨_, hl, List.cons_ne_nil m ms⟩ hstep
  cases hreceive : onMessagePktServerSync build receiver m with
  | error e =>
    simp only [step, hl, Link.deliver, hreceive] at hstep
    cases hstep
  | ok receiver' =>
    simp only [step, hl, Link.deliver_cons ms hreceive] at hstep
    cases hstep
    exact ⟨_, receiver', hrun, rfl⟩

/-- A gate and then a world server join and get their snapshots, and the gate hears of the world
    server. -/
theorem runs_gate_world :
    ∃ s receiver, (system .debug).Runs [.serverAdded 0x03000001, .deliver 0x03000001,
        .serverAdded 0x06000002, .deliver 0x06000002, .deliver 0x03000001] (.ok s) ∧
      s.links 0x03000001 = some ⟨[], receiver⟩ := by
  have hgate : IsServer (PeerInfo.getPeerType 0x03000001) := by decide
  have hworld : IsServer (PeerInfo.getPeerType 0x06000002) := by decide
  have hne : (0x06000002 : Word) ≠ 0x03000001 := by decide
  obtain ⟨s₁, _, hrun₁, hgate₁, hothers₁⟩ := runs_serverAdded .nil hgate rfl
  obtain ⟨s₂, receiver₂, hrun₂, hlinks₂⟩ := runs_deliver hrun₁ hgate₁
  have hnew : s₂.links 0x06000002 = none := by
    rw [hlinks₂, Function.update_of_ne hne, hothers₁ _ hne]
    rfl
  obtain ⟨s₃, _, hrun₃, hworld₃, hothers₃⟩ := runs_serverAdded hrun₂ hworld hnew
  obtain ⟨s₄, _, hrun₄, hlinks₄⟩ := runs_deliver hrun₃ hworld₃
  have hgate₄ : s₄.links 0x03000001 = some ⟨[⟨.add, [0x06000002]⟩], receiver₂⟩ := by
    rw [hlinks₄, Function.update_of_ne hne.symm, hothers₃ _ hne.symm, hlinks₂, Function.update_self]
    rfl
  obtain ⟨s₅, receiver₅, hrun₅, hlinks₅⟩ := runs_deliver hrun₄ hgate₄
  have hgate₅ : s₅.links 0x03000001 = some ⟨[], receiver₅⟩ := by
    rw [hlinks₅, Function.update_self]
  exact ⟨s₅, receiver₅, hrun₅, hgate₅⟩

/-- A gate and then a world server join and get their snapshots, and the gate hears of the world
    server. When the world server has left and the gate has heard of that as well, the gate knows
    of the center only. -/
theorem views_eq_registry_gate :
    (∃ s l, (system .debug).Runs [.serverAdded 0x03000001, .deliver 0x03000001,
        .serverAdded 0x06000002, .deliver 0x06000002, .deliver 0x03000001] (.ok s) ∧
      s.links 0x03000001 = some l ∧ l.pending = [] ∧
      ∀ t w, w ∈ l.receiver.known t ↔
        t = .centerserver ∧ w = centerInfo ∨ t = .worldserver ∧ w = 0x06000002) ∧
    ∃ s l, (system .debug).Runs [.serverAdded 0x03000001, .deliver 0x03000001,
        .serverAdded 0x06000002, .deliver 0x06000002, .deliver 0x03000001,
        .serverRemoved 0x06000002, .deliver 0x03000001] (.ok s) ∧
      s.links 0x03000001 = some l ∧ l.pending = [] ∧
      ∀ t w, w ∈ l.receiver.known t ↔ t = .centerserver ∧ w = centerInfo := by
  have htype : PeerInfo.getPeerType centerInfo = .centerserver :=
    PeerInfo.getPeerType_serialize _
  obtain ⟨s₅, receiver₅, hrun₅, hgate₅⟩ := runs_gate_world
  have hworld₅ : (s₅.links 0x06000002).isSome := (isSome_links_iff hrun₅ _).mpr (by decide)
  obtain ⟨s₆, hrun₆, hworld₆, hothers₆⟩ := runs_serverRemoved hrun₅ hworld₅
  have hgate₆ : s₆.links 0x03000001 = some ⟨[⟨.remove, [0x06000002]⟩], receiver₅⟩ := by
    rw [hothers₆ _ (by decide), hgate₅]
    rfl
  obtain ⟨s₇, receiver₇, hrun₇, hlinks₇⟩ := runs_deliver hrun₆ hgate₆
  have hgate₇ : s₇.links 0x03000001 = some ⟨[], receiver₇⟩ := by
    rw [hlinks₇, Function.update_self]
  refine ⟨⟨s₅, _, hrun₅, hgate₅, rfl, fun t w => ?_⟩, s₇, _, hrun₇, hgate₇, rfl, fun t w => ?_⟩
  · obtain ⟨_, hs, hregistry, -, hviews⟩ := views_eq_registry .debug _ _ hrun₅
    cases hs
    rw [(hviews _ _ hgate₅).2 rfl t, mem_restricted, hregistry]
    constructor
    · rintro ⟨hsees, rfl, rfl | hw⟩
      · exact Or.inl ⟨htype, rfl⟩
      · rcases (by simpa [registered] using hw : w = 0x06000002 ∨ w = 0x03000001) with rfl | rfl
        · exact Or.inr ⟨by decide, rfl⟩
        · exact absurd hsees (by decide)
    · rintro (⟨rfl, rfl⟩ | ⟨rfl, rfl⟩)
      · exact ⟨Or.inl rfl, htype, Or.inl rfl⟩
      · exact ⟨by decide, by decide, Or.inr (by decide)⟩
  · obtain ⟨_, hs, hregistry, -, hviews⟩ := views_eq_registry .debug _ _ hrun₇
    cases hs
    rw [(hviews _ _ hgate₇).2 rfl t, mem_restricted, hregistry]
    constructor
    · rintro ⟨hsees, rfl, rfl | hw⟩
      · exact ⟨htype, rfl⟩
      · obtain rfl : w = 0x03000001 := by simpa [registered] using hw
        exact absurd hsees (by decide)
    · rintro ⟨rfl, rfl⟩
      exact ⟨Or.inl rfl, htype, Or.inl rfl⟩

end ServerSync

end TerraX
