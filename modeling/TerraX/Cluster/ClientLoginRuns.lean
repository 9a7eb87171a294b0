import TerraX.Cluster.ClientLoginTraffic

/-!
# Every client gets its role list

The login of a client is always in exactly one place. So nothing fails, no client gets more role lists
than it has sent logins, and when nothing is on the way any more, each connected client has its role
list. From every state that is reached, the run can go on so that a given client comes to its avatars.

## Main results

- `ClientLogin.GateUp.connect` — where the gates come from
- `ClientLogin.inv_start`, `ClientLogin.inv_step` — the invariant of the runs
- `ClientLogin.logins_answered` — every run
-/

namespace TerraX

open Bytes Memory Framing

namespace ClientLogin

/-- Nothing is on the way for a client. -/
structure Quiet (s : State) (key : Key) : Prop where
  clientUp : s.clientUp key = []
  uplink : s.uplink key.1 = []
  downlink : s.downlink key.1 = []
  clientDown : s.clientDown key = []

/-- A client that has sent its login, been given its role list once and chooses its avatar. -/
structure Answered (client : ClientProgram) : Prop where
  logins : client.logins = 1
  roleLists : client.roleLists = 1
  curGameState : client.states.curGameState = .accountSelectingAvatar

/-! ### The runs -/

section Runs

variable {env : Env} {overread : Packet → Packet × Bool} {clients : Key → Option ClientProgram}
  {gates : UInt16 → Option GateServer} {center : CenterServer} {guestOf : Key → LocalGuest}
  {centerOf : UInt16 → Word} {s : State} {t : Traffic}

/-- The programs before the first login, each client with its guest and each gate with its center. -/
theorem inv_start (h : Serving env clients gates center) :
    ∃ guestOf centerOf, Inv env guestOf centerOf (start clients gates center) .empty := by
  let guestOf : Key → LocalGuest := fun key => ((clients key).map (·.localGuest)).getD {}
  let centerOf : UInt16 → Word := fun g =>
    ((gates g).map fun gate => ServerManager.getCenterPeerInfo gate.infos).getD 0
  have hguestOf : ∀ key client, clients key = some client → guestOf key = client.localGuest := by
    intro key client hclient
    simp [guestOf, hclient]
  have hcenterOf : ∀ g gate, gates g = some gate →
      ServerManager.getCenterPeerInfo gate.infos = centerOf g := by
    intro g gate hgate
    simp [centerOf, hgate]
  refine ⟨guestOf, centerOf, ⟨h.centerReady, fun g gate hgate => ?_, fun g k hkey => ?_⟩, ?_,
    fun _ _ hk => (nomatch hk), fun _ _ hk => (nomatch hk), fun _ => Splitter.carries_nil,
    fun _ => Splitter.carries_nil, fun _ => Splitter.carries_nil, fun _ => Splitter.carries_nil⟩
  · exact ⟨(h.up g gate hgate).1, (h.up g gate hgate).2, hcenterOf g gate hgate⟩
  · obtain ⟨client, hclient⟩ := Option.isSome_iff_exists.mp hkey
    exact (h.connecting g k client hclient).2
  · rintro ⟨g, k⟩ client hclient
    obtain ⟨⟨account, password, hinit, hfits⟩, -⟩ := h.connecting g k client hclient
    rw [hguestOf _ client hclient]
    rw [ClientProgram.init_eq] at hinit
    cases hinit
    exact ⟨rfl, hfits, rfl, ⟨_, rfl, Or.inl ⟨rfl, rfl⟩⟩, fun hpos => (nomatch hpos)⟩

/-- Each step follows the traffic, and the same clients stay there. -/
theorem inv_step (overread : Packet → Packet × Bool) (hund : Understood env)
    (h : Inv env guestOf centerOf s t) {e : Event} (he : Enabled s e) :
    ∃ s' t', step env overread s e = .ok s' ∧ Inv env guestOf centerOf s' t' ∧
      ∀ key, (s'.clients key).isSome = (s.clients key).isSome := by
  cases e with
  | connected key =>
    obtain ⟨s', hstep, hinv, hclients, -⟩ := inv_connected h he
    exact ⟨s', _, hstep, hinv, hclients⟩
  | frontArrive key n =>
    obtain ⟨s', j, hstep, hinv, hclients, -⟩ := inv_frontArrive overread h he n
    exact ⟨s', _, hstep, hinv, fun key => by rw [hclients]⟩
  | centerArrive g n =>
    obtain ⟨s', j, hstep, hinv, hclients, -⟩ := inv_centerArrive hund overread h he n
    exact ⟨s', _, hstep, hinv, fun key => by rw [hclients]⟩
  | gateArrive g n =>
    obtain ⟨s', j, hstep, hinv, hclients, -⟩ := inv_gateArrive hund overread h he n
    exact ⟨s', _, hstep, hinv, fun key => by rw [hclients]⟩
  | clientArrive key n =>
    obtain ⟨s', j, hstep, hinv, hclients, -⟩ := inv_clientArrive hund h he n
    exact ⟨s', _, hstep, hinv, hclients⟩

/-- A connected client for which nothing is on the way has been answered. -/
theorem Inv.answered (h : Inv env guestOf centerOf s t) {key : Key} {client : ClientProgram}
    (hclient : s.clients key = some client) (hconn : ¬ Connecting s key) (htotal : t.total key = 0) :
    Answered client := by
  have hup := h.clients key client hclient
  obtain ⟨channel, hback, ⟨hstate, -⟩ | ⟨-, hlogins⟩⟩ := hup.stage
  · exact absurd ⟨client, channel, hclient, hback, hstate⟩ hconn
  · have hbalance := hup.balance
    have hlists : client.roleLists = 1 := by omega
    exact ⟨hlogins, hlists, hup.selecting (by omega)⟩

/-- In empty streams nothing is on the way. -/
theorem Inv.total_of_quiet (h : Inv env guestOf centerOf s t) {key : Key} (hquiet : Quiet s key) :
    t.total key = 0 := by
  obtain ⟨g, k⟩ := key
  have hlogins : t.logins (g, k) = [] := by
    have hcarries := h.clientUp (g, k)
    rw [hquiet.clientUp] at hcarries
    exact hcarries.eq_nil
  have hasks : t.asks g = [] := by
    have hcarries := h.uplink g
    rw [show s.uplink g = [] from hquiet.uplink] at hcarries
    exact hcarries.eq_nil
  have hacks : t.acks g = [] := by
    have hcarries := h.downlink g
    rw [show s.downlink g = [] from hquiet.downlink] at hcarries
    exact hcarries.eq_nil
  have hlists : t.lists (g, k) = [] := by
    have hcarries := h.clientDown (g, k)
    rw [hquiet.clientDown] at hcarries
    exact hcarries.eq_nil
  simp [Traffic.total, hlogins, hasks, hacks, hlists]

/-- When a connected client, its gate and the center get what is on the way, in this order, the client
    comes to its avatars. -/
theorem exists_answered_of_connected (hund : Understood env) {es : List Event}
    (hrun : (system env overread clients gates center).Runs es (.ok s))
    (h : Inv env guestOf centerOf s t) {key : Key} (hkey : (s.clients key).isSome)
    (hconn : ¬ Connecting s key) :
    ∃ es' s' client, (system env overread clients gates center).Runs (es ++ es') (.ok s') ∧
      s'.clients key = some client ∧ Answered client := by
  -- the login arrives at the gate
  obtain ⟨s₁, j₁, hstep₁, h₁, hclients₁, hempty₁⟩ :=
    inv_frontArrive overread h hkey (s.clientUp key).length
  have hrun₁ := hrun.next (.frontArrive key (s.clientUp key).length) hkey hstep₁
  have hlogins := h₁.clientUp key
  rw [hempty₁, List.drop_length] at hlogins
  -- the request of the gate arrives at the center
  have hgate₁ : (s₁.gates key.1).isSome := by
    obtain ⟨gate, hgate, -⟩ := h₁.servers.channels key.1 key.2 (by rwa [hclients₁])
    rw [hgate]
    rfl
  obtain ⟨s₂, j₂, hstep₂, h₂, hclients₂, hempty₂⟩ :=
    inv_centerArrive hund overread h₁ hgate₁ (s₁.uplink key.1).length
  have hrun₂ := hrun₁.next (.centerArrive key.1 (s₁.uplink key.1).length) hgate₁ hstep₂
  have hasks := h₂.uplink key.1
  rw [hempty₂, List.drop_length] at hasks
  -- the answer of the center arrives at the gate
  have hgate₂ : (s₂.gates key.1).isSome := by
    obtain ⟨gate, hgate, -⟩ := h₂.servers.channels key.1 key.2 (by rwa [hclients₂, hclients₁])
    rw [hgate]
    rfl
  obtain ⟨s₃, j₃, hstep₃, h₃, hclients₃, hempty₃⟩ :=
    inv_gateArrive hund overread h₂ hgate₂ (s₂.downlink key.1).length
  have hrun₃ := hrun₂.next (.gateArrive key.1 (s₂.downlink key.1).length) hgate₂ hstep₃
  have hacks := h₃.downlink key.1
  rw [hempty₃, List.drop_length] at hacks
  -- the role list arrives at the client
  have hclients : s₃.clients = s.clients := hclients₃.trans (hclients₂.trans hclients₁)
  have hkey₃ : (s₃.clients key).isSome := by rwa [hclients]
  obtain ⟨s₄, j₄, hstep₄, h₄, hisSome, hstay, hempty₄⟩ :=
    inv_clientArrive hund h₃ hkey₃ (s₃.clientDown key).length
  have hrun₄ := hrun₃.next (.clientArrive key (s₃.clientDown key).length) hkey₃ hstep₄
  have hlists := h₄.clientDown key
  rw [hempty₄, List.drop_length] at hlists
  have hkey₄ := hisSome key
  rw [hkey₃] at hkey₄
  obtain ⟨client, hclient⟩ := Option.isSome_iff_exists.mp hkey₄
  have hconn₄ : ¬ Connecting s₄ key := by
    intro hconn₄
    obtain ⟨client₃, channel, hclient₃, hconnecting⟩ := hstay hconn₄
    exact hconn ⟨client₃, channel, by rwa [hclients] at hclient₃, hconnecting⟩
  have htotal : ((((t.atGate key j₁).atCenter key.1 j₂).backAtGate key.1 j₃).atClient key j₄).total
      key = 0 := by
    have hlogins := hlogins.eq_nil
    have hasks := hasks.eq_nil
    have hacks := hacks.eq_nil
    have hlists := hlists.eq_nil
    simp only [Traffic.total, Traffic.atGate, Traffic.atCenter, Traffic.backAtGate, Traffic.atClient,
      Function.update_self] at hlogins hasks hacks hlists ⊢
    rw [hlogins, hasks, hacks, hlists]
    rfl
  refine ⟨[.frontArrive key (s.clientUp key).length, .centerArrive key.1 (s₁.uplink key.1).length,
    .gateArrive key.1 (s₂.downlink key.1).length, .clientArrive key (s₃.clientDown key).length],
    s₄, client, ?_, hclient, h₄.answered hclient hconn₄ htotal⟩
  simpa only [List.append_assoc, List.cons_append, List.nil_append] using hrun₄

/-- Any client can come to its avatars: if it is still connecting, its connection is there first. -/
theorem exists_answered (hund : Understood env) {es : List Event}
    (hrun : (system env overread clients gates center).Runs es (.ok s))
    (h : Inv env guestOf centerOf s t) {key : Key} (hkey : (s.clients key).isSome) :
    ∃ es' s' client, (system env overread clients gates center).Runs (es ++ es') (.ok s') ∧
      s'.clients key = some client ∧ Answered client := by
  by_cases hconn : Connecting s key
  · obtain ⟨s₁, hstep, h₁, hclients, hconn₁⟩ := inv_connected h hconn
    have hrun₁ := hrun.next (.connected key) hconn hstep
    obtain ⟨es', s', client, hrun', hclient⟩ :=
      exists_answered_of_connected hund hrun₁ h₁ ((hclients key).trans hkey) hconn₁
    exact ⟨.connected key :: es', s', client, by simpa using hrun', hclient⟩
  · exact exists_answered_of_connected hund hrun h hkey hconn

/-- In every run nothing fails, and each client has sent at most one login and has at most as many role
    lists; it has the one it waits for when nothing is on the way any more, and the run can go on so
    that it gets it. -/
theorem logins_answered (hund : Understood env) (h : Serving env clients gates center)
    {es : List Event} {r : Except Fault State}
    (hrun : (system env overread clients gates center).Runs es r) :
    ∃ s, r = .ok s ∧ ∀ key, (clients key).isSome → ∃ client, s.clients key = some client ∧
      client.roleLists ≤ client.logins ∧ client.logins ≤ 1 ∧
      (0 < client.roleLists → client.states.curGameState = .accountSelectingAvatar) ∧
      (¬ Connecting s key → Quiet s key → Answered client) ∧
      ∃ es' s' client', (system env overread clients gates center).Runs (es ++ es') (.ok s') ∧
        s'.clients key = some client' ∧ Answered client' := by
  obtain ⟨guestOf, centerOf, hstart⟩ := inv_start h
  let Reached : List Event → State → Prop := fun _ s =>
    (∃ t, Inv env guestOf centerOf s t) ∧ ∀ key, (s.clients key).isSome = (clients key).isSome
  have hreached : ∃ s, r = .ok s ∧ Reached es s := by
    refine Run.System.invariant ⟨⟨_, hstart⟩, fun _ => rfl⟩ ?_ hrun
    rintro _ s e ⟨⟨t, hinv⟩, hclients⟩ he
    obtain ⟨s', t', hstep, hinv', hclients'⟩ := inv_step overread hund hinv he
    exact ⟨s', hstep, ⟨t', hinv'⟩, fun key => (hclients' key).trans (hclients key)⟩
  obtain ⟨s, rfl, ⟨t, hinv⟩, hclients⟩ := hreached
  refine ⟨s, rfl, fun key hkey => ?_⟩
  have hkey' : (s.clients key).isSome := (hclients key).trans hkey
  obtain ⟨client, hclient⟩ := Option.isSome_iff_exists.mp hkey'
  have hup := hinv.clients key client hclient
  have hbalance := hup.balance
  refine ⟨client, hclient, by omega, ?_, hup.selecting, fun hconn hquiet => ?_,
    exists_answered hund hrun hinv hkey'⟩
  · obtain ⟨channel, -, ⟨-, hlogins⟩ | ⟨-, hlogins⟩⟩ := hup.stage <;> omega
  · exact hinv.answered hclient hconn (hinv.total_of_quiet hquiet)

end Runs

/-! ### Where the gates come from -/

/-- A registered gate without channels that knows the center. -/
theorem gateUp_of_none {g : UInt16} {gate : GateServer} (hreg : gate.RegisteredAt g)
    (hlinked : ∀ back, gate.backEnd = some back → back.sendMsg = true)
    (hknows : PeerInfo.getPeerType (ServerManager.getCenterPeerInfo gate.infos) = .centerserver)
    (hchannels : ∀ k, gate.frontEnd.getChannel k = none) : GateUp g gate where
  registered := hreg
  linked := hlinked
  knows := hknows
  channels := by
    intro k front hfront
    rw [hchannels] at hfront
    cases hfront

/-- A gate stays up when a client connects and `DoFrontEnd_Connected` runs for it. -/
theorem GateUp.connect {g k : UInt16} {gate : GateServer} (h : GateUp g gate)
    {freeIndexes : List UInt16} (hfree : gate.frontEnd.freeIndexes = k :: freeIndexes) :
    GateUp g
      ({ gate with frontEnd := gate.frontEnd.onConnect.1 }.doFrontEndConnected (.frontEnd k)) := by
  let fresh := NetChannel.setChannelIndex { connState := .connected } k
  let gate₁ : GateServer := { gate with frontEnd := gate.frontEnd.onConnect.1 }
  have hconnect : gate.frontEnd.onConnect.1 =
      ⟨freeIndexes, Function.update gate.frontEnd.channels k (some fresh)⟩ := by
    rw [NetServer.onConnect, hfree]
  have hfresh : gate₁.toPacketProcessor.getChannel (.frontEnd k) = some fresh := by
    change gate.frontEnd.onConnect.1.getChannel k = some fresh
    rw [hconnect]
    exact Function.update_self ..
  obtain ⟨back, hback, hinfo⟩ := h.registered.backEnd
  have hreg : gate₁.RegisteredAt g := ⟨h.registered.pos, h.registered.lt, h.registered.backEnd⟩
  let made := (fresh.setPeerType .gateserver).setPeerIndex back.getChannelIndex.toUInt8
  have hdone : gate₁.doFrontEndConnected (.frontEnd k) =
      { gate₁ with
        toPacketProcessor := gate₁.toPacketProcessor.setChannel (.frontEnd k) made
        guests := gate₁.guests.createGuest made.getPeerInfo
          (ServerManager.getCenterPeerInfo gate₁.infos) } := by
    rw [GateServer.doFrontEndConnected, show gate₁.backEnd = some back from hback, hfresh]
  -- the channel that it makes is a connected one, with the address of the guest
  have hmade : made.getPeerInfo = guestInfo g k := by
    have hindex : fresh.getChannelIndex = k := by
      rw [NetChannel.getChannelIndex, NetChannel.peerInfo_setChannelIndex,
        PeerInfo.getChannelIndex_serialize]
    obtain ⟨made', hinfo', hstate⟩ := GateServer.doFrontEndConnected_state hreg hfresh hindex
    have hchannel := congrArg (fun gate : GateServer => gate.frontEnd.getChannel k)
      (hdone.symm.trans hstate)
    have hsame : some made = some made' := by
      simpa [PacketProcessor.setChannel, NetServer.getChannel_setChannel] using hchannel
    cases hsame
    exact hinfo'
  change GateUp g (gate₁.doFrontEndConnected (.frontEnd k))
  rw [hdone, hmade]
  refine ⟨⟨hreg.pos, hreg.lt, hreg.backEnd⟩, h.linked, h.knows, fun k' front hfront => ?_⟩
  change (gate₁.frontEnd.setChannel k made).getChannel k' = some front at hfront
  change _ ∧ _ ∧ Function.update gate.guests (guestInfo g k) (some (.new (guestInfo g k)
    (ServerManager.getCenterPeerInfo gate.infos))) (guestInfo g k') = _
  rw [NetServer.getChannel_setChannel] at hfront
  by_cases hk : k' = k
  · rw [if_pos hk] at hfront
    cases hfront
    subst hk
    exact ⟨hmade, rfl, Function.update_self ..⟩
  · rw [if_neg hk] at hfront
    have hold : gate.frontEnd.getChannel k' = some front := by
      change gate.frontEnd.onConnect.1.getChannel k' = some front at hfront
      rw [hconnect] at hfront
      exact (Function.update_of_ne hk ..).symm.trans hfront
    obtain ⟨hinfo', hsend, hguest⟩ := h.channels k' front hold
    have hne : guestInfo g k' ≠ guestInfo g k := fun heq =>
      hk (guestInfo_inj h.registered.lt h.registered.lt heq).2
    exact ⟨hinfo', hsend, (Function.update_of_ne hne ..).trans hguest⟩

/-! ### One client -/

/-- A guest whose user has typed in two names. -/
def shortGuest : LocalGuest := ⟨[65, 98], [112], []⟩

theorem shortEnv_understood : Understood shortEnv where
  answer := shortEnv_reads rfl
  answerFits := by decide
  roleList := shortEnv_reads rfl
  roleListFits := by decide

theorem shortGuest_fits : Fits shortEnv shortGuest where
  login := shortEnv_reads rfl
  loginFits := by decide
  request := shortEnv_reads rfl
  requestFits := by decide

/-- A gate without clients that knows the center. -/
def shortGate : GateServer :=
  { GuestRouting.registeredGate with
    frontEnd := .new 4
    infos := Function.update (fun _ => none) .centerserver (some {0x02000000}) }

theorem shortGate_up : GateUp 1 shortGate := by
  refine gateUp_of_none ⟨by decide, by decide, _, rfl, rfl⟩ ?_ ?_ fun _ => rfl
  · rintro back ⟨⟩
    rfl
  · rw [ServerManager.getCenterPeerInfo, ServerManager.firstPeerInfo_eq]
    have hknown : shortGate.infos.known .centerserver = {0x02000000} := rfl
    rw [hknown, ServerInfos.inOrder, Finset.sort_singleton]
    decide

/-- When one client is there, on its channel 1. -/
def shortGateWithClient : GateServer :=
  { shortGate with frontEnd := shortGate.frontEnd.onConnect.1 }.doFrontEndConnected (.frontEnd 1)

/-- The client, when it connects. -/
def shortClient : ClientProgram :=
  { typedAccount := shortGuest.accountName
    typedPassword := shortGuest.password
    states := ClientProgram.initStates
    localGuest := shortGuest
    backEnd := some (NetChannel.setPeerType { connState := .connecting } .client) }

def shortClients : Key → Option ClientProgram := fun key => if key = (1, 1) then some shortClient else none

def shortGates : UInt16 → Option GateServer := fun g => if g = 1 then some shortGateWithClient else none

/-- The center, with the channel of the gate. -/
def shortCenter : CenterServer :=
  { CenterServer.initNetModule 4 with frontEnd := (NetServer.new 4).onConnect.1 }

theorem serving_short : Serving shortEnv shortClients shortGates shortCenter where
  centerReady := (Login.centerReady_new 4).connect (NetServer.new_indexed 4)
  up := by
    intro g gate hgate
    rw [shortGates] at hgate
    split at hgate
    · next hg =>
      cases hgate
      subst hg
      exact ⟨shortGate_up.connect rfl, rfl⟩
    · cases hgate
  connecting := by
    intro g k client hclient
    rw [shortClients] at hclient
    split at hclient
    · next hkey =>
      cases hclient
      obtain ⟨rfl, rfl⟩ := Prod.mk.inj hkey
      exact ⟨⟨_, _, ClientProgram.init_eq _ _, shortGuest_fits⟩, shortGateWithClient, rfl, rfl⟩
    · cases hclient

/-- The client comes to its avatars. -/
theorem logins_answered_short : ∃ es s client,
    (system shortEnv (fun p => (p, false)) shortClients shortGates shortCenter).Runs es (.ok s) ∧
      s.clients (1, 1) = some client ∧ Answered client := by
  have hrun := Run.System.Runs.nil
    (S := system shortEnv (fun p => (p, false)) shortClients shortGates shortCenter)
  obtain ⟨s, -, h⟩ := logins_answered shortEnv_understood serving_short hrun
  obtain ⟨-, -, -, -, -, -, es, s', client, hrun, hclient, hanswered⟩ := h (1, 1) rfl
  exact ⟨es, s', client, hrun, hclient, hanswered⟩

end ClientLogin

end TerraX
