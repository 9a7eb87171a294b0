import TerraX.CenterServer.CenterServer
import TerraX.Lib.Run
import TerraX.Net.ChannelIndexes

/-!
# Connections to the center, and their loss

Channels connect to the center, register, and are lost again, in any order. `Accept` has
registered `OnNetEvent_BackEnd` for the channels of the front end, so that the handlers which
the center has for a lost channel are never called: the channel stays in the map, its index
stays in use, and its server stays registered.

## Main definitions

- `Connections.system` — the events, and what they do
- `Connections.Tidy` — the registry and the channels are those of the live connections
- `Connections.Inv` — the invariant

## Main results

- `Connections.step_inv` — every event keeps the invariant, and no assertion fails
- `Connections.tidy_iff` — the center is tidy as long as no connection has been lost
-/

namespace TerraX

open Memory ServerInfos

namespace Connections

/-- The center, and the channels whose connection is there, with the type that each of them
    has registered. -/
structure State where
  center : CenterServer
  live : UInt16 → Option (Option PeerType)

inductive Event
  | connect
  | register (channelIndex : UInt16) (peerType : PeerType)
  | lose (channelIndex : UInt16) (event : NetEvent)

def Event.IsLoss : Event → Prop
  | lose _ _ => True
  | _ => False

/-- What `OnMessage_PktRegisterReq` asserts about the type of a server. -/
def Registrable (t : PeerType) : Prop :=
  PeerType.client.code < t.code ∧ t.code < PeerType.peerCount.code

variable (build : Build) (maxConns : UInt16)

/-- A channel registers one type, and it is lost by a disconnection or an error. -/
def enabled (s : State) : Event → Prop
  | .connect => True
  | .register c t => Registrable t ∧ (s.live c = some none ∨ s.live c = some (some t))
  | .lose c event => (s.live c).isSome ∧ event ≠ .connected

def step (s : State) : Event → Except Fault State
  | .connect => do
    let center ← s.center.onConnect build
    match s.center.frontEnd.onConnect.2 with
    | none => return ⟨center, s.live⟩
    | some c => return ⟨center, Function.update s.live c (some none)⟩
  | .register c t => do
    let center ←
      s.center.onMessagePktRegisterReq build c (PeerInfo.serialize { peerType := t })
    return ⟨center, Function.update s.live c (some (some t))⟩
  | .lose c event => do
    let center ← s.center.netEvent build c event
    return ⟨center, Function.update s.live c none⟩

def system : Run.System State Event Fault where
  init := ⟨.initNetModule maxConns, fun _ => none⟩
  enabled := enabled
  step := step build

/-- The registry holds the center and the servers that are registered and connected. -/
def Registered (s : State) : Prop :=
  ∀ t w, w ∈ s.center.infos.known t ↔
    (t = .centerserver ∧ w = PeerInfo.serialize { peerType := .centerserver }) ∨
      ∃ c, s.live c = some (some t) ∧ w = regInfo t c

/-- The registry holds the center and the servers that are registered and connected; the
    channels of the others are gone, and their indexes are free; and a connection is refused
    only when all indexes are in use by live connections. -/
structure Tidy (s : State) : Prop where
  registry : Registered s
  gone : ∀ c, s.live c = none → s.center.frontEnd.getChannel c = none
  free : ∀ c, 0 < c → c < maxConns → s.live c = none → c ∈ s.center.frontEnd.freeIndexes
  refused : s.center.frontEnd.onConnect.2 = none →
    Set.ncard {c | (s.live c).isSome} = maxConns.toNat - 1

/-- The invariant. A live connection has its channel; the free indexes are those in the range
    that have no channel; a channel without a connection is there if one was lost; and up to
    the first loss the registry is right. -/
structure Inv (es : List Event) (s : State) : Prop where
  indexed : s.center.frontEnd.Indexed
  found : ∀ c, (s.live c).isSome → (s.center.frontEnd.getChannel c).isSome
  free : ∀ c, c ∈ s.center.frontEnd.freeIndexes ↔
    (0 < c ∧ c < maxConns) ∧ s.center.frontEnd.getChannel c = none
  inRange : ∀ c, (s.center.frontEnd.getChannel c).isSome → 0 < c ∧ c < maxConns
  lost : (∃ e ∈ es, e.IsLoss) →
    ∃ c, (s.center.frontEnd.getChannel c).isSome ∧ s.live c = none
  kept : (∀ e ∈ es, ¬ e.IsLoss) → ∀ c, (s.center.frontEnd.getChannel c).isSome → (s.live c).isSome
  registry : (∀ e ∈ es, ¬ e.IsLoss) → Registered s

variable {build maxConns} {es : List Event} {s : State}

theorem init_inv : Inv maxConns [] (system build maxConns).init := by
  refine ⟨NetServer.new_indexed maxConns, (fun c hc => nomatch hc),
    fun c => (NetServer.mem_freeIndexes_new maxConns c).trans ⟨fun h => ⟨h, rfl⟩, And.left⟩, (fun c hc => nomatch hc), ?_,
    (fun _ c hc => nomatch hc), fun _ t w => ?_⟩
  · rintro ⟨e, he, -⟩
    cases he
  · have hinfos : (system build maxConns).init.center.infos =
        ServerInfos.add (fun _ => none) (PeerInfo.serialize { peerType := .centerserver }) := rfl
    rw [hinfos, mem_known_add, PeerInfo.getPeerType_serialize, known_empty]
    constructor
    · rintro (hw | ⟨rfl, rfl⟩)
      · exact absurd hw (Finset.notMem_empty w)
      · exact Or.inl ⟨rfl, rfl⟩
    · rintro (⟨rfl, rfl⟩ | ⟨c, hc, -⟩)
      · exact Or.inr ⟨rfl, rfl⟩
      · cases hc

theorem isLoss_append {e : Event} (he : ¬ e.IsLoss) :
    (∃ e' ∈ es ++ [e], e'.IsLoss) ↔ ∃ e' ∈ es, e'.IsLoss := by
  simp [he]

theorem not_isLoss_append {e : Event} (h : ∀ e' ∈ es ++ [e], ¬ e'.IsLoss) : ∀ e' ∈ es, ¬ e'.IsLoss :=
  fun e' he' => h e' (List.mem_append_left _ he')

/-- A connection is refused, or gets the first free index. -/
theorem step_connect (build : Build) (s : State) :
    step build s .connect = .ok s ∨
    ∃ s' idx rest, step build s .connect = .ok s' ∧
      s.center.frontEnd.freeIndexes = idx :: rest ∧ s'.center.frontEnd.freeIndexes = rest ∧
      (∃ channel, ∀ c, s'.center.frontEnd.getChannel c =
        if c = idx then some channel else s.center.frontEnd.getChannel c) ∧
      (s.center.frontEnd.Indexed → s'.center.frontEnd.Indexed) ∧
      (∀ c, s'.live c = if c = idx then some none else s.live c) ∧
      s'.center.infos = s.center.infos := by
  rcases NetServer.onConnect_cases s.center.frontEnd with hrefused | ⟨idx, rest, hfree, haccepted⟩
  · refine Or.inl ?_
    rw [step, CenterServer.onConnect, hrefused]
    rfl
  · generalize NetChannel.setChannelIndex { connState := .connected } idx = channel at haccepted
    refine Or.inr ⟨⟨{ s.center with frontEnd :=
        ⟨rest, Function.update s.center.frontEnd.channels idx (some channel)⟩ },
      Function.update s.live idx (some none)⟩, idx, rest, ?_, hfree, rfl, ⟨channel, fun c => ?_⟩,
      fun h => h.connect hfree channel, fun c => ?_, rfl⟩
    · rw [step, CenterServer.onConnect, haccepted]
      rfl
    · exact Function.update_apply ..
    · exact Function.update_apply ..

theorem connect_inv (h : Inv maxConns es s) :
    ∃ s', step build s .connect = .ok s' ∧ Inv maxConns (es ++ [.connect]) s' := by
  have hloss : ¬ Event.connect.IsLoss := id
  rcases step_connect build s with
    hrefused | ⟨s', idx, rest, hstep, hfree, hfree', ⟨channel, hget⟩, hindexed, hlive, hinfos⟩
  · exact ⟨s, hrefused, h.indexed, h.found, h.free, h.inRange,
      fun hlost => h.lost ((isLoss_append hloss).mp hlost),
      fun hkept => h.kept (not_isLoss_append hkept),
      fun hkept => h.registry (not_isLoss_append hkept)⟩
  · obtain ⟨hrange, hnone⟩ := (h.free idx).mp (by rw [hfree]; exact List.mem_cons_self)
    obtain ⟨hnew, -⟩ := List.nodup_cons.mp (hfree ▸ h.indexed.nodup)
    -- a free index is not that of a live server, since these are found in the map
    have hdead : s.live idx = none := by
      cases hl : s.live idx with
      | none => rfl
      | some o =>
        have hfound := h.found idx (by rw [hl]; rfl)
        rw [hnone] at hfound
        cases hfound
    refine ⟨s', hstep, hindexed h.indexed, fun c hc => ?_, fun c => ?_, fun c hc => ?_,
      fun hlost => ?_, fun hkept c hc => ?_, fun hkept t w => ?_⟩
    · by_cases hcidx : c = idx
      · rw [hget, if_pos hcidx]
        rfl
      · rw [hlive, if_neg hcidx] at hc
        rw [hget, if_neg hcidx]
        exact h.found c hc
    · have hmem := h.free c
      rw [hfree, List.mem_cons] at hmem
      rw [hfree', hget]
      by_cases hcidx : c = idx
      · rw [if_pos hcidx, hcidx]
        exact ⟨fun hc => absurd hc hnew, fun hc => nomatch hc.2⟩
      · rw [if_neg hcidx, ← hmem]
        exact ⟨Or.inr, fun hc => hc.resolve_left hcidx⟩
    · by_cases hcidx : c = idx
      · rw [hcidx]
        exact hrange
      · rw [hget, if_neg hcidx] at hc
        exact h.inRange c hc
    · obtain ⟨c, hc, hcl⟩ := h.lost ((isLoss_append hloss).mp hlost)
      have hcidx : c ≠ idx := by
        rintro rfl
        rw [hnone] at hc
        cases hc
      exact ⟨c, by rw [hget, if_neg hcidx]; exact hc, by rw [hlive, if_neg hcidx]; exact hcl⟩
    · rw [hlive]
      by_cases hcidx : c = idx
      · rw [if_pos hcidx]
        rfl
      · rw [hget, if_neg hcidx] at hc
        rw [if_neg hcidx]
        exact h.kept (not_isLoss_append hkept) c hc
    · rw [hinfos, h.registry (not_isLoss_append hkept) t w]
      refine or_congr_right (exists_congr fun c => and_congr_left fun _ => ?_)
      rw [hlive]
      by_cases hcidx : c = idx
      · rw [if_pos hcidx, hcidx, hdead]
        constructor <;> intro hc <;> cases hc
      · rw [if_neg hcidx]

/-- A channel keeps its index and its place while its own state changes. -/
theorem getChannel_setChannel_isSome {net : NetServer} {c : UInt16} {channel : NetChannel}
    (hc : net.getChannel c = some channel) (channel' : NetChannel) (c' : UInt16) :
    ((net.setChannel c channel').getChannel c').isSome = (net.getChannel c').isSome := by
  rw [NetServer.getChannel_setChannel]
  by_cases hcc : c' = c
  · rw [if_pos hcc, hcc, hc]
    rfl
  · rw [if_neg hcc]

theorem getChannel_setChannel_none {net : NetServer} {c : UInt16} {channel : NetChannel}
    (hc : net.getChannel c = some channel) (channel' : NetChannel) (c' : UInt16) :
    (net.setChannel c channel').getChannel c' = none ↔ net.getChannel c' = none := by
  rw [← Option.not_isSome_iff_eq_none, ← Option.not_isSome_iff_eq_none,
    getChannel_setChannel_isSome hc channel' c']

/-- A request files the server under the type that it registers. -/
theorem step_register (build : Build) {c : UInt16} {t : PeerType} {channel : NetChannel} (hc : c ≠ 0)
    (hchannel : s.center.frontEnd.getChannel c = some channel) (ht : Registrable t) :
    ∃ s', step build s (.register c t) = .ok s' ∧
      s'.center.frontEnd = s.center.frontEnd.setChannel c (channel.setPeerType t) ∧
      s'.center.infos = s.center.infos.add (regInfo t c) ∧
      ∀ c', s'.live c' = if c' = c then some (some t) else s.live c' := by
  obtain ⟨center, hcenter, hstate⟩ := CenterServer.onMessagePktRegisterReq_eq build hc hchannel ht
  refine ⟨⟨center, Function.update s.live c (some (some t))⟩, ?_,
    congrArg CenterState.frontEnd hstate, congrArg CenterState.infos hstate, fun c' => ?_⟩
  · rw [step, hcenter]
    rfl
  · exact Function.update_apply ..

theorem register_inv {c : UInt16} {t : PeerType} (h : Inv maxConns es s)
    (henabled : enabled s (.register c t)) :
    ∃ s', step build s (.register c t) = .ok s' ∧ Inv maxConns (es ++ [.register c t]) s' := by
  have hloss : ¬ (Event.register c t).IsLoss := id
  obtain ⟨ht, hlive⟩ := henabled
  have hsome : (s.live c).isSome := by rcases hlive with hlive | hlive <;> rw [hlive] <;> rfl
  obtain ⟨channel, hchannel⟩ := Option.isSome_iff_exists.mp (h.found c hsome)
  obtain ⟨s', hstep, hfront, hinfos, hlive'⟩ := step_register build
    (h.indexed.used c channel hchannel) hchannel ht
  have hget : ∀ c', (s'.center.frontEnd.getChannel c').isSome =
      (s.center.frontEnd.getChannel c').isSome := by
    intro c'
    rw [hfront]
    exact getChannel_setChannel_isSome hchannel _ c'
  have hisSome : ∀ c', (s'.live c').isSome = (s.live c').isSome := by
    intro c'
    rw [hlive']
    by_cases hcc : c' = c
    · rw [if_pos hcc, hcc, hsome]
      rfl
    · rw [if_neg hcc]
  refine ⟨s', hstep, ?_, fun c' hc' => ?_, fun c' => ?_, fun c' hc' => ?_, fun hlost => ?_,
    fun hkept c' hc' => ?_, fun hkept t' w => ?_⟩
  · rw [hfront]
    exact h.indexed.setChannel hchannel _
  · rw [hisSome] at hc'
    rw [hget]
    exact h.found c' hc'
  · rw [hfront, getChannel_setChannel_none hchannel]
    exact h.free c'
  · rw [hget] at hc'
    exact h.inRange c' hc'
  · obtain ⟨c', hc', hdead⟩ := h.lost ((isLoss_append hloss).mp hlost)
    refine ⟨c', by rw [hget]; exact hc', ?_⟩
    rw [← Option.not_isSome_iff_eq_none] at hdead ⊢
    rwa [hisSome]
  · rw [hget] at hc'
    rw [hisSome]
    exact h.kept (not_isLoss_append hkept) c' hc'
  · -- `c` may be registered already, but then with the same type
    rw [hinfos, mem_known_add, h.registry (not_isLoss_append hkept) t' w, getPeerType_regInfo,
      or_assoc]
    refine or_congr_right ⟨?_, ?_⟩
    · rintro (⟨c', hc', rfl⟩ | ⟨rfl, rfl⟩)
      · refine ⟨c', ?_, rfl⟩
        rw [hlive']
        by_cases hcc : c' = c
        · rw [if_pos hcc]
          rcases hlive with hlive | hlive <;> rw [hcc, hlive] at hc' <;> cases hc'
          rfl
        · rw [if_neg hcc]
          exact hc'
      · exact ⟨c, by rw [hlive', if_pos rfl], rfl⟩
    · rintro ⟨c', hc', rfl⟩
      rw [hlive'] at hc'
      by_cases hcc : c' = c
      · rw [if_pos hcc] at hc'
        cases hc'
        exact Or.inr ⟨by rw [hcc], rfl⟩
      · rw [if_neg hcc] at hc'
        exact Or.inl ⟨c', hc', rfl⟩

/-- A channel that is lost changes its own state, and nothing else happens. -/
theorem step_lose (build : Build) (event : NetEvent) {c : UInt16} {channel : NetChannel}
    (hchannel : s.center.frontEnd.getChannel c = some channel) :
    ∃ s' channel', step build s (.lose c event) = .ok s' ∧
      s'.center.frontEnd = s.center.frontEnd.setChannel c channel' ∧
      s'.live = Function.update s.live c none := by
  generalize hfront : s.center.frontEnd.setChannel c { channel with connState := event.connState } =
    frontEnd
  refine ⟨⟨{ s.center with frontEnd }, Function.update s.live c none⟩, _, ?_, hfront.symm, rfl⟩
  rw [step, CenterServer.netEvent, hchannel]
  cases event <;> simp only [hfront] <;> rfl

theorem lose_inv {c : UInt16} {event : NetEvent} (h : Inv maxConns es s)
    (henabled : enabled s (.lose c event)) :
    ∃ s', step build s (.lose c event) = .ok s' ∧ Inv maxConns (es ++ [.lose c event]) s' := by
  obtain ⟨channel, hchannel⟩ := Option.isSome_iff_exists.mp (h.found c henabled.1)
  obtain ⟨s', channel', hstep, hfront, hlive⟩ := step_lose build event hchannel
  have hget : ∀ c', (s'.center.frontEnd.getChannel c').isSome =
      (s.center.frontEnd.getChannel c').isSome := by
    intro c'
    rw [hfront]
    exact getChannel_setChannel_isSome hchannel _ c'
  have hself : ¬ ∀ e ∈ es ++ [Event.lose c event], ¬ e.IsLoss :=
    fun hall => hall _ (List.mem_append_right _ (List.mem_singleton_self _)) trivial
  refine ⟨s', hstep, ?_, fun c' hc' => ?_, fun c' => ?_, fun c' hc' => ?_, fun _ => ⟨c, ?_, ?_⟩,
    fun hkept => absurd hkept hself, fun hkept => absurd hkept hself⟩
  · rw [hfront]
    exact h.indexed.setChannel hchannel _
  · have hne : c' ≠ c := by
      rintro rfl
      rw [hlive, Function.update_self] at hc'
      cases hc'
    rw [hlive, Function.update_of_ne hne] at hc'
    rw [hget]
    exact h.found c' hc'
  · rw [hfront, getChannel_setChannel_none hchannel]
    exact h.free c'
  · rw [hget] at hc'
    exact h.inRange c' hc'
  · rw [hget]
    exact h.found c henabled.1
  · rw [hlive, Function.update_self]

/-- Every event keeps the invariant, and no assertion fails. -/
theorem step_inv {e : Event} (h : Inv maxConns es s) (henabled : enabled s e) :
    ∃ s', step build s e = .ok s' ∧ Inv maxConns (es ++ [e]) s' := by
  cases e with
  | connect => exact connect_inv h
  | register c t => exact register_inv h henabled
  | lose c event => exact lose_inv h henabled

/-- Up to the first loss the center is tidy, and from then on it is not. -/
theorem Inv.tidy_iff (h : Inv maxConns es s) : Tidy maxConns s ↔ ∀ e ∈ es, ¬ e.IsLoss := by
  constructor
  · intro htidy e he hloss
    obtain ⟨c, hc, hdead⟩ := h.lost ⟨e, he, hloss⟩
    rw [htidy.gone c hdead] at hc
    cases hc
  · intro hkept
    have hgone : ∀ c, s.live c = none → s.center.frontEnd.getChannel c = none := by
      intro c hdead
      cases hc : s.center.frontEnd.getChannel c with
      | none => rfl
      | some channel =>
        have hlive := h.kept hkept c (by rw [hc]; rfl)
        rw [hdead] at hlive
        cases hlive
    refine ⟨h.registry hkept, hgone, fun c hpos hlt hdead => ?_, fun hrefused => ?_⟩
    · exact (h.free c).mpr ⟨⟨hpos, hlt⟩, hgone c hdead⟩
    · have hempty := (NetServer.onConnect_refused _).mp hrefused
      rw [← NetServer.ncard_range]
      congr 1
      ext c
      constructor
      · exact fun hlive => h.inRange c (h.found c hlive)
      · intro hrange
        by_contra hdead
        have hnone := hgone c (Option.not_isSome_iff_eq_none.mp hdead)
        have hmem := (h.free c).mpr ⟨hrange, hnone⟩
        rw [hempty] at hmem
        cases hmem

theorem runs_inv {r : Except Fault State} (h : (system build maxConns).Runs es r) :
    ∃ s, r = .ok s ∧ Inv maxConns es s := by
  apply Run.System.invariant init_inv (fun _ _ _ hinv henabled => step_inv hinv henabled) h

/-- No run of the center fails. At its end the registry holds the center and the servers that
    are registered and connected, the channels of the others are gone, and their indexes are
    free, exactly if no connection has been lost in the run. -/
theorem registry_tidy_iff (build : Build) (maxConns : UInt16) (es : List Event)
    (r : Except Fault State) (h : (system build maxConns).Runs es r) :
    ∃ s, r = .ok s ∧ (Tidy maxConns s ↔ ∀ e ∈ es, ¬ e.IsLoss) := by
  obtain ⟨s, hs, hinv⟩ := runs_inv h
  exact ⟨s, hs, hinv.tidy_iff⟩

/-- A gate and a world server register. -/
theorem registry_tidy_iff_registered :
    ∃ s, (system .debug 64).Runs
        [.connect, .connect, .register 2 .worldserver, .register 1 .gateserver] (.ok s) ∧
      Tidy 64 s := by
  have hfirst : (system .debug 64).Runs [.connect] (.ok _) := .concat .nil trivial
  have hsecond := hfirst.concat (l := Event.connect) trivial
  have hworld := hsecond.concat (l := Event.register 2 .worldserver)
    ⟨⟨by decide, by decide⟩, Or.inl rfl⟩
  have hgate := hworld.concat (l := Event.register 1 .gateserver)
    ⟨⟨by decide, by decide⟩, Or.inl rfl⟩
  obtain ⟨s, hs, htidy⟩ := registry_tidy_iff .debug 64 _ _ hgate
  rw [hs] at hgate
  refine ⟨s, hgate, htidy.mpr fun e he => ?_⟩
  simp only [List.nil_append, List.cons_append, List.mem_cons, List.not_mem_nil, or_false] at he
  rcases he with rfl | rfl | rfl | rfl <;> exact id

/-- A world server that has disconnected is still registered, and keeps its channel and the
    index of it. -/
theorem not_tidy_lost :
    ∃ s, (system .debug 64).Runs
        [.connect, .register 1 .worldserver, .lose 1 .disconnected] (.ok s) ∧
      s.live 1 = none ∧ regInfo .worldserver 1 ∈ s.center.infos.known .worldserver ∧
      (s.center.frontEnd.getChannel 1).isSome ∧ 1 ∉ s.center.frontEnd.freeIndexes ∧
      ¬ Tidy 64 s := by
  have hconnect : (system .debug 64).Runs [.connect] (.ok _) := .concat .nil trivial
  have hregister := hconnect.concat (l := Event.register 1 .worldserver)
    ⟨⟨by decide, by decide⟩, Or.inl rfl⟩
  have hlost := hregister.concat (l := Event.lose 1 .disconnected) ⟨rfl, by decide⟩
  obtain ⟨s, hs, hinv⟩ := runs_inv hlost
  rw [hs] at hlost
  cases hs
  refine ⟨_, hlost, rfl, ?_, rfl, fun hfree => ?_, fun htidy => ?_⟩
  · exact mem_known_add.mpr (Or.inr ⟨rfl, getPeerType_regInfo _ _⟩)
  · have hnone := ((hinv.free 1).mp hfree).2
    cases hnone
  · cases htidy.gone 1 rfl

end Connections

end TerraX
