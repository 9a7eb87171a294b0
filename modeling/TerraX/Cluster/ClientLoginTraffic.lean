import TerraX.Cluster.ClientLoginStreams

/-!
# What is on the way in a login

What is on the way is abstracted to the logins, requests, answers and role lists for each client. A
step of the programs moves some of them on, and none is lost or made twice.

## Main definitions

- `ClientLogin.Traffic` — the messages on the way, and what a step does to them
- `ClientLogin.Inv` — the streams carry the traffic, and the clients account for it

## Main results

- `ClientLogin.inv_connected`, `ClientLogin.inv_frontArrive`, `ClientLogin.inv_centerArrive`,
  `ClientLogin.inv_gateArrive`, `ClientLogin.inv_clientArrive` — each step follows the traffic
-/

namespace TerraX

open Bytes Memory Framing

namespace ClientLogin

/-! ### The traffic -/

/-- The messages on the way: the logins of each client, the requests of each gate and the answers to
    it, each by the channel of the client, and the role lists for each client. -/
structure Traffic where
  logins : Key → List Unit
  asks : UInt16 → List UInt16
  acks : UInt16 → List UInt16
  lists : Key → List Unit

namespace Traffic

/-- Nothing is on the way. -/
def empty : Traffic := ⟨fun _ => [], fun _ => [], fun _ => [], fun _ => []⟩

/-- A client sends a login. -/
def login (t : Traffic) (key : Key) : Traffic :=
  { t with logins := Function.update t.logins key (t.logins key ++ [()]) }

/-- The first logins of a client become requests of its gate. -/
def atGate (t : Traffic) (key : Key) (j : ℕ) : Traffic :=
  { t with
    logins := Function.update t.logins key ((t.logins key).drop j)
    asks := Function.update t.asks key.1
      (t.asks key.1 ++ ((t.logins key).take j).map fun _ => key.2) }

/-- The first requests of a gate become answers. -/
def atCenter (t : Traffic) (g : UInt16) (j : ℕ) : Traffic :=
  { t with
    asks := Function.update t.asks g ((t.asks g).drop j)
    acks := Function.update t.acks g (t.acks g ++ (t.asks g).take j) }

/-- The first answers to a gate become role lists. -/
def backAtGate (t : Traffic) (g : UInt16) (j : ℕ) : Traffic :=
  { t with
    acks := Function.update t.acks g ((t.acks g).drop j)
    lists := fun key => if key.1 = g then
      t.lists key ++ List.replicate (((t.acks g).take j).count key.2) () else t.lists key }

/-- The first role lists for a client arrive. -/
def atClient (t : Traffic) (key : Key) (j : ℕ) : Traffic :=
  { t with lists := Function.update t.lists key ((t.lists key).drop j) }

/-- How much is on the way for a client. -/
def total (t : Traffic) (key : Key) : ℕ :=
  (t.logins key).length + (t.asks key.1).count key.2 + (t.acks key.1).count key.2 +
    (t.lists key).length

theorem total_login (t : Traffic) (key key' : Key) :
    (t.login key).total key' = t.total key' + if key' = key then 1 else 0 := by
  by_cases h : key' = key
  · subst h
    simp only [total, login, Function.update_self, List.length_append, List.length_singleton, if_true]
    omega
  · simp only [total, login, Function.update_of_ne h, if_neg h, Nat.add_zero]

theorem total_atGate (t : Traffic) (key key' : Key) (j : ℕ) :
    (t.atGate key j).total key' = t.total key' := by
  have hsplit := congrArg List.length (List.take_append_drop j (t.logins key))
  rw [List.length_append] at hsplit
  obtain ⟨g, k⟩ := key
  obtain ⟨g', k'⟩ := key'
  simp only [total, atGate]
  by_cases hg : g' = g
  · subst hg
    rw [Function.update_self, List.count_append]
    by_cases hk : k' = k
    · subst hk
      rw [Function.update_self, List.map_const', List.count_replicate_self]
      omega
    · have hne : (g', k') ≠ (g', k) := fun heq => hk (Prod.mk.inj heq).2
      rw [Function.update_of_ne hne, List.map_const', List.count_replicate, if_neg]
      · omega
      · simpa using Ne.symm hk
  · have hne : (g', k') ≠ (g, k) := fun heq => hg (Prod.mk.inj heq).1
    rw [Function.update_of_ne hne, Function.update_of_ne hg]

theorem total_atCenter (t : Traffic) (g : UInt16) (key : Key) (j : ℕ) :
    (t.atCenter g j).total key = t.total key := by
  have hsplit := congrArg (List.count key.2) (List.take_append_drop j (t.asks g))
  rw [List.count_append] at hsplit
  simp only [total, atCenter]
  by_cases hg : key.1 = g
  · subst hg
    rw [Function.update_self, Function.update_self, List.count_append]
    omega
  · rw [Function.update_of_ne hg, Function.update_of_ne hg]

theorem total_backAtGate (t : Traffic) (g : UInt16) (key : Key) (j : ℕ) :
    (t.backAtGate g j).total key = t.total key := by
  have hsplit := congrArg (List.count key.2) (List.take_append_drop j (t.acks g))
  rw [List.count_append] at hsplit
  simp only [total, backAtGate]
  by_cases hg : key.1 = g
  · subst hg
    rw [Function.update_self, if_pos rfl, List.length_append, List.length_replicate]
    omega
  · rw [Function.update_of_ne hg, if_neg hg]

theorem total_atClient (t : Traffic) (key key' : Key) (j : ℕ) :
    (t.atClient key j).total key' + (if key' = key then ((t.lists key).take j).length else 0) =
      t.total key' := by
  have hsplit := congrArg List.length (List.take_append_drop j (t.lists key))
  rw [List.length_append] at hsplit
  simp only [total, atClient]
  by_cases h : key' = key
  · subst h
    rw [Function.update_self, if_pos rfl]
    omega
  · rw [Function.update_of_ne h, if_neg h, Nat.add_zero]

end Traffic

/-! ### The invariant -/

/-- The servers, each gate with the peer info of the center that it knows, have channels for all
    clients. -/
structure Servers (centerOf : UInt16 → Word) (clients : Key → Option ClientProgram)
    (gates : UInt16 → Option GateServer) (frontEnd : NetServer) : Prop where
  centerReady : Login.CenterReady frontEnd
  up : ∀ g gate, gates g = some gate → GateUp g gate ∧ frontEnd.connected g = true ∧
    ServerManager.getCenterPeerInfo gate.infos = centerOf g
  channels : ∀ g k, (clients (g, k)).isSome →
    ∃ gate, gates g = some gate ∧ (gate.frontEnd.getChannel k).isSome

/-- A client that has sent as many logins as are on their way or have been answered: none while it
    is connecting, and then one. Its role list takes it to its avatars. -/
structure ClientUp (env : Env) (guest : LocalGuest) (client : ClientProgram) (total : ℕ) : Prop where
  isGuest : client.localGuest = guest
  fits : Fits env guest
  balance : client.logins = total + client.roleLists
  stage : ∃ channel, client.backEnd = some channel ∧
    ((channel.connState = .connecting ∧ client.logins = 0) ∨
      (channel.connState = .connected ∧ client.logins = 1))
  selecting : 0 < client.roleLists → client.states.curGameState = .accountSelectingAvatar

/-- The streams carry the traffic, and the clients account for it. -/
structure Inv (env : Env) (guestOf : Key → LocalGuest) (centerOf : UInt16 → Word) (s : State)
    (t : Traffic) : Prop where
  servers : Servers centerOf s.clients s.gates s.center.frontEnd
  clients : ∀ key client, s.clients key = some client →
    ClientUp env (guestOf key) client (t.total key)
  asks : ∀ g, ∀ k ∈ t.asks g, (s.clients (g, k)).isSome
  acks : ∀ g, ∀ k ∈ t.acks g, (s.clients (g, k)).isSome
  clientUp : ∀ key, packetSplitter.Carries (fun _ => ClientProgram.loginFrame env (guestOf key))
    (t.logins key) (s.frontBuf key) (s.clientUp key)
  uplink : ∀ g, packetSplitter.Carries (fun k => (askSent env (centerOf g) g k (guestOf (g, k))).frame
    env.adler32 env.host) (t.asks g) (s.centerBuf g) (s.uplink g)
  downlink : ∀ g, packetSplitter.Carries (fun k => (Login.ackSent env (guestInfo g k)).frame
    env.adler32 env.host) (t.acks g) (s.gateBuf g) (s.downlink g)
  clientDown : ∀ key : Key, packetSplitter.Carries
    (fun _ => ClientProgram.roleListFrame env (guestInfo key.1 key.2) roles) (t.lists key)
    (s.clientBuf key) (s.clientDown key)

section Servers

variable {centerOf : UInt16 → Word} {clients : Key → Option ClientProgram}
  {gates : UInt16 → Option GateServer} {frontEnd : NetServer}

/-- A gate writes something. -/
theorem Servers.wrote (h : Servers centerOf clients gates frontEnd) {g : UInt16}
    {gate gate' : GateServer} (hgate : gates g = some gate) {out : List Output}
    (hwrote : Wrote gate gate' out) :
    Servers centerOf clients (Function.update gates g (some gate')) frontEnd := by
  obtain ⟨hup, hconn, hcenter⟩ := h.up g gate hgate
  refine ⟨h.centerReady, fun g' gate₁ hgate₁ => ?_, fun g' k hclient => ?_⟩
  · by_cases hg : g' = g
    · subst hg
      rw [Function.update_self] at hgate₁
      cases hgate₁
      exact ⟨hup.wrote hwrote, hconn, by rwa [hwrote.infos]⟩
    · rw [Function.update_of_ne hg] at hgate₁
      exact h.up g' gate₁ hgate₁
  · obtain ⟨gate₁, hgate₁, hchannel⟩ := h.channels g' k hclient
    by_cases hg : g' = g
    · subst hg
      cases hgate.symm.trans hgate₁
      exact ⟨gate', Function.update_self .., by rwa [hwrote.frontEnd]⟩
    · exact ⟨gate₁, (Function.update_of_ne hg ..).trans hgate₁, hchannel⟩

theorem isSome_update {key : Key} {client client' : ClientProgram} (h : clients key = some client)
    (key' : Key) :
    (Function.update clients key (some client') key').isSome = (clients key').isSome := by
  by_cases hkey : key' = key
  · rw [hkey, Function.update_self, h]
    rfl
  · rw [Function.update_of_ne hkey]

/-- A client changes. -/
theorem Servers.client (h : Servers centerOf clients gates frontEnd) {key : Key}
    {client client' : ClientProgram} (hclient : clients key = some client) :
    Servers centerOf (Function.update clients key (some client')) gates frontEnd :=
  ⟨h.centerReady, h.up, fun g k hk => h.channels g k (by rwa [isSome_update hclient] at hk)⟩

end Servers

/-! ### The steps -/

section Steps

variable {env : Env} {guestOf : Key → LocalGuest} {centerOf : UInt16 → Word} {s : State}
  {t : Traffic}

/-- What a client has become, and what it still has to account for. -/
theorem Inv.client (h : Inv env guestOf centerOf s t) {key : Key} {client' : ClientProgram}
    {t' : Traffic} (hclient' : ClientUp env (guestOf key) client' (t'.total key))
    (htotal : ∀ key', key' ≠ key → t'.total key' = t.total key') :
    ∀ key' client, Function.update s.clients key (some client') key' = some client →
      ClientUp env (guestOf key') client (t'.total key') := by
  intro key' client hclient
  by_cases hkey : key' = key
  · subst hkey
    rw [Function.update_self] at hclient
    cases hclient
    exact hclient'
  · rw [Function.update_of_ne hkey] at hclient
    rw [htotal key' hkey]
    exact h.clients key' client hclient

/-- A client connects and sends its login. -/
theorem inv_connected (h : Inv env guestOf centerOf s t) {key : Key} (hkey : Connecting s key) :
    ∃ s', connected env s key = .ok s' ∧ Inv env guestOf centerOf s' (t.login key) ∧
      (∀ key', (s'.clients key').isSome = (s.clients key').isSome) ∧ ¬ Connecting s' key := by
  obtain ⟨client, channel, hclient, hback, hstate⟩ := hkey
  have hup := h.clients key client hclient
  have hlogins : client.logins = 0 := by
    obtain ⟨channel', hback', hstage⟩ := hup.stage
    cases hback.symm.trans hback'
    rcases hstage with ⟨-, hzero⟩ | ⟨hconn, -⟩
    · exact hzero
    · rw [hstate] at hconn
      cases hconn
  have hfits : (env.serialize ⟨.pktGameLoginReq, ClientProgram.loginMsg client.localGuest⟩).length ≤
      maxMsgSize := by
    rw [hup.isGuest]
    exact hup.fits.loginFits
  have hconnected := ClientProgram.connected_eq hback hfits
  generalize hclient' : ({ client with
      states := ⟨.accountCheckingPermission, client.states.trace ++
        [.leave .accountCheckingPermission, .enter .accountCheckingPermission]⟩
      backEnd := some { channel with connState := .connected }
      sent := client.sent ++ [ClientProgram.loginFrame env client.localGuest] } : ClientProgram) =
    client' at hconnected
  have hlogins' : client'.logins = client.logins + 1 := by
    rw [← hclient']
    simp [ClientProgram.logins]
  have hlists' : client'.roleLists = client.roleLists := by
    rw [← hclient']
    simp [ClientProgram.roleLists]
  have hsent : client'.sent = client.sent ++ [ClientProgram.loginFrame env (guestOf key)] := by
    rw [← hclient', hup.isGuest]
  have hback' : client'.backEnd = some { channel with connState := .connected } := by
    rw [← hclient']
  have hguest' : client'.localGuest = guestOf key := by
    rw [← hclient']
    exact hup.isGuest
  have hbalance := hup.balance
  have htotal := t.total_login key key
  rw [if_pos rfl] at htotal
  have hupdate := h.clientUp key
  refine ⟨clientDone s key client client', ?_, ⟨h.servers.client hclient, h.client ?_ ?_, ?_, ?_, ?_,
    h.uplink, h.downlink, h.clientDown⟩, isSome_update hclient, ?_⟩
  · rw [connected, hclient]
    exact bind_eq_ok.mpr ⟨client', hconnected, rfl⟩
  · refine ⟨hguest', hup.fits, by omega, ⟨_, hback', Or.inr ⟨rfl, by omega⟩⟩, fun hpos => ?_⟩
    omega
  · intro key' hne
    rw [t.total_login, if_neg hne, Nat.add_zero]
  · intro g k hk
    exact (isSome_update hclient (g, k)).trans (h.asks g k hk)
  · intro g k hk
    exact (isSome_update hclient (g, k)).trans (h.acks g k hk)
  · have hframe : ∀ item ∈ [()], packetSplitter.IsFrame
        ((fun _ => ClientProgram.loginFrame env (guestOf key)) item) :=
      fun _ _ => packetSplitter_isFrame.mpr (loginFrame_accepted hup.fits).1
    have hall := Splitter.carries_update
      (fun key _ => ClientProgram.loginFrame env (guestOf key)) h.clientUp (hupdate.write hframe)
    intro key'
    have hkey' := hall key'
    rw [Function.update_eq_self] at hkey'
    have hwritten : (client'.sent.drop client.sent.length).flatten =
        ([()].map fun _ => ClientProgram.loginFrame env (guestOf key)).flatten := by
      rw [hsent, List.drop_left]
      rfl
    rw [clientDone, hwritten]
    exact hkey'
  · rintro ⟨client₁, channel₁, hclient₁, hback₁, hstate₁⟩
    rw [clientDone] at hclient₁
    cases (Function.update_self ..).symm.trans hclient₁
    cases hback'.symm.trans hback₁
    cases hstate₁

/-- The gate takes some logins of a client. -/
theorem inv_frontArrive (overread : Packet → Packet × Bool)
    (h : Inv env guestOf centerOf s t) {key : Key} (hkey : (s.clients key).isSome) (n : ℕ) :
    ∃ s' j, frontArrive env overread s key n = .ok s' ∧
      Inv env guestOf centerOf s' (t.atGate key j) ∧ s'.clients = s.clients ∧
      s'.clientUp key = (s.clientUp key).drop n := by
  obtain ⟨g, k⟩ := key
  obtain ⟨client, hclient⟩ := Option.isSome_iff_exists.mp hkey
  obtain ⟨gate, hgate, hchannel⟩ := h.servers.channels g k hkey
  obtain ⟨front, hfront⟩ := Option.isSome_iff_exists.mp hchannel
  obtain ⟨hup, -, hcenter⟩ := h.servers.up g gate hgate
  have hfits := (h.clients (g, k) client hclient).fits
  obtain ⟨j, rest, gate', hrun, hwrote, hcarries⟩ :=
    front_arrival overread hup hfront hfits (h.clientUp (g, k)) n
  rw [hcenter] at hwrote
  have hwrites := gateWrites_asks g (centerOf g) guestOf hfits
    ((t.logins (g, k)).take j) (s.uplink g, s.clientDown)
  let asks : List UInt16 := ((t.logins (g, k)).take j).map fun _ => k
  let uplink := s.uplink g ++ (asks.map fun k =>
    (askSent env (centerOf g) g k (guestOf (g, k))).frame env.adler32 env.host).flatten
  have hdone : gateDone env s g gate gate' = .ok { s with
      gates := Function.update s.gates g (some gate')
      uplink := Function.update s.uplink g uplink } := by
    rw [gateDone, hwrote.drop]
    exact bind_eq_ok.mpr ⟨_, hwrites, rfl⟩
  refine ⟨{ s with
    gates := Function.update s.gates g (some gate')
    uplink := Function.update s.uplink g uplink
    clientUp := Function.update s.clientUp (g, k) ((s.clientUp (g, k)).drop n)
    frontBuf := Function.update s.frontBuf (g, k) rest }, j, ?_,
    ⟨h.servers.wrote hgate hwrote, ?_, ?_, h.acks, ?_, ?_, h.downlink, h.clientDown⟩, rfl,
    Function.update_self ..⟩
  · rw [frontArrive, hgate]
    dsimp only
    rw [hfront]
    exact bind_eq_ok.mpr ⟨_, hrun, bind_eq_ok.mpr ⟨_, hdone, rfl⟩⟩
  · intro key client hclient
    rw [t.total_atGate]
    exact h.clients key client hclient
  · intro g' k' hk'
    simp only [Traffic.atGate] at hk'
    by_cases hg : g' = g
    · subst hg
      rw [Function.update_self, List.mem_append] at hk'
      rcases hk' with hk' | hk'
      · exact h.asks g' k' hk'
      · obtain ⟨_, -, rfl⟩ := List.mem_map.mp hk'
        exact hkey
    · rw [Function.update_of_ne hg] at hk'
      exact h.asks g' k' hk'
  · exact Splitter.carries_update
      (fun key _ => ClientProgram.loginFrame env (guestOf key)) h.clientUp hcarries
  · have hsendable : ∀ k' ∈ asks, packetSplitter.IsFrame
        ((askSent env (centerOf g) g k' (guestOf (g, k'))).frame env.adler32 env.host) := by
      intro k' hk'
      obtain ⟨_, -, rfl⟩ := List.mem_map.mp hk'
      exact packetSplitter_isFrame.mpr ((askSent_sendable hfits).received_carries _ _).1
    have hall := Splitter.carries_update (fun g k =>
      (askSent env (centerOf g) g k (guestOf (g, k))).frame env.adler32 env.host) h.uplink
      ((h.uplink g).write hsendable)
    rwa [Function.update_eq_self] at hall

/-- The center takes some requests of a gate. -/
theorem inv_centerArrive (hund : Understood env) (overread : Packet → Packet × Bool)
    (h : Inv env guestOf centerOf s t) {g : UInt16} (hg : (s.gates g).isSome) (n : ℕ) :
    ∃ s' j, centerArrive env overread s g n = .ok s' ∧
      Inv env guestOf centerOf s' (t.atCenter g j) ∧ s'.clients = s.clients ∧
      s'.uplink g = (s.uplink g).drop n := by
  obtain ⟨gate, hgate⟩ := Option.isSome_iff_exists.mp hg
  obtain ⟨hup, hconn, hcenter⟩ := h.servers.up g gate hgate
  obtain ⟨channel, hchannel⟩ := getChannel_of_connected hconn
  have hknows : PeerInfo.getPeerType (centerOf g) = .centerserver := by
    rw [← hcenter]
    exact hup.knows
  have hfits : ∀ k ∈ t.asks g, Fits env (guestOf (g, k)) := by
    intro k hk
    obtain ⟨client, hclient⟩ := Option.isSome_iff_exists.mp (h.asks g k hk)
    exact (h.clients (g, k) client hclient).fits
  obtain ⟨j, rest, hrun, hcarries⟩ := center_arrival overread h.servers.centerReady hconn
    hchannel hknows guestOf hfits (h.uplink g) n
  let out : List Output := ((t.asks g).take j).map fun k => Login.ackOutput g (guestInfo g k)
  let center' : CenterServer := { s.center with sent := s.center.sent ++ out }
  have hsent : center'.sent.drop s.center.sent.length = out := List.drop_left
  have hwrites := centerWrites_answers g hund ((t.asks g).take j) s.downlink
  refine ⟨{ s with
    center := center'
    uplink := Function.update s.uplink g ((s.uplink g).drop n)
    downlink := Function.update s.downlink g (s.downlink g ++ (((t.asks g).take j).map fun k =>
      (Login.ackSent env (guestInfo g k)).frame env.adler32 env.host).flatten)
    centerBuf := Function.update s.centerBuf g rest }, j, ?_,
    ⟨h.servers, ?_, ?_, ?_, h.clientUp, ?_, ?_, h.clientDown⟩, rfl, Function.update_self ..⟩
  · rw [centerArrive, hchannel]
    refine bind_eq_ok.mpr ⟨_, hrun, bind_eq_ok.mpr ⟨_, ?_, rfl⟩⟩
    rw [← hwrites]
    exact congrArg (List.foldlM _ _) hsent
  · intro key client hclient
    rw [t.total_atCenter]
    exact h.clients key client hclient
  · intro g' k' hk'
    simp only [Traffic.atCenter] at hk'
    by_cases hg' : g' = g
    · subst hg'
      rw [Function.update_self] at hk'
      exact h.asks g' k' (List.mem_of_mem_drop hk')
    · rw [Function.update_of_ne hg'] at hk'
      exact h.asks g' k' hk'
  · intro g' k' hk'
    simp only [Traffic.atCenter] at hk'
    by_cases hg' : g' = g
    · subst hg'
      rw [Function.update_self, List.mem_append] at hk'
      rcases hk' with hk' | hk'
      · exact h.acks g' k' hk'
      · exact h.asks g' k' (List.mem_of_mem_take hk')
    · rw [Function.update_of_ne hg'] at hk'
      exact h.acks g' k' hk'
  · exact Splitter.carries_update (fun g k =>
      (askSent env (centerOf g) g k (guestOf (g, k))).frame env.adler32 env.host) h.uplink hcarries
  · have hsendable : ∀ k ∈ (t.asks g).take j, packetSplitter.IsFrame
        ((Login.ackSent env (guestInfo g k)).frame env.adler32 env.host) := fun k _ =>
      packetSplitter_isFrame.mpr ((ackSent_sendable hund (guestInfo g k)).received_carries _ _).1
    have hall := Splitter.carries_update (fun g k =>
      (Login.ackSent env (guestInfo g k)).frame env.adler32 env.host) h.downlink
      ((h.downlink g).write hsendable)
    rwa [Function.update_eq_self] at hall

/-- The gate takes some answers of the center. -/
theorem inv_gateArrive (hund : Understood env) (overread : Packet → Packet × Bool)
    (h : Inv env guestOf centerOf s t) {g : UInt16} (hg : (s.gates g).isSome) (n : ℕ) :
    ∃ s' j, gateArrive env overread s g n = .ok s' ∧
      Inv env guestOf centerOf s' (t.backAtGate g j) ∧ s'.clients = s.clients ∧
      s'.downlink g = (s.downlink g).drop n := by
  obtain ⟨gate, hgate⟩ := Option.isSome_iff_exists.mp hg
  obtain ⟨hup, -, -⟩ := h.servers.up g gate hgate
  have hchannels : ∀ k ∈ t.acks g, (gate.frontEnd.getChannel k).isSome := by
    intro k hk
    obtain ⟨gate₁, hgate₁, hchannel⟩ := h.servers.channels g k (h.acks g k hk)
    cases hgate.symm.trans hgate₁
    exact hchannel
  obtain ⟨j, rest, gate', hrun, hwrote, hcarries⟩ :=
    gate_arrival overread hund hup hchannels (h.downlink g) n
  obtain ⟨clientDown, hwrites, hown, hother⟩ :=
    gateWrites_roleLists g hund ((t.acks g).take j) (s.uplink g, s.clientDown)
  have hdone : gateDone env s g gate gate' = .ok { s with
      gates := Function.update s.gates g (some gate')
      clientDown := clientDown } := by
    rw [gateDone, hwrote.drop, hwrites, ok_bind]
    dsimp only
    rw [Function.update_eq_self]
    rfl
  refine ⟨{ s with
    gates := Function.update s.gates g (some gate')
    clientDown := clientDown
    downlink := Function.update s.downlink g ((s.downlink g).drop n)
    gateBuf := Function.update s.gateBuf g rest }, j, ?_,
    ⟨h.servers.wrote hgate hwrote, ?_, h.asks, ?_, h.clientUp, h.uplink, ?_, ?_⟩, rfl,
    Function.update_self ..⟩
  · rw [gateArrive, hgate]
    exact bind_eq_ok.mpr ⟨_, hrun, bind_eq_ok.mpr ⟨_, hdone, rfl⟩⟩
  · intro key client hclient
    rw [t.total_backAtGate]
    exact h.clients key client hclient
  · intro g' k' hk'
    simp only [Traffic.backAtGate] at hk'
    by_cases hg' : g' = g
    · subst hg'
      rw [Function.update_self] at hk'
      exact h.acks g' k' (List.mem_of_mem_drop hk')
    · rw [Function.update_of_ne hg'] at hk'
      exact h.acks g' k' hk'
  · exact Splitter.carries_update (fun g k =>
      (Login.ackSent env (guestInfo g k)).frame env.adler32 env.host) h.downlink hcarries
  · rintro ⟨g', k'⟩
    simp only [Traffic.backAtGate]
    by_cases hg' : g' = g
    · subst hg'
      rw [if_pos rfl, hown k']
      exact (h.clientDown (g', k')).write fun _ _ => packetSplitter_isFrame.mpr
        (roleListFrame_isFrame hund _)
    · rw [if_neg hg', hother (g', k') hg']
      exact h.clientDown (g', k')

/-- A client takes some of its role lists. -/
theorem inv_clientArrive (hund : Understood env) (h : Inv env guestOf centerOf s t) {key : Key}
    (hkey : (s.clients key).isSome) (n : ℕ) :
    ∃ s' j, clientArrive env s key n = .ok s' ∧
      Inv env guestOf centerOf s' (t.atClient key j) ∧
      (∀ key', (s'.clients key').isSome = (s.clients key').isSome) ∧
      (Connecting s' key → Connecting s key) ∧ s'.clientDown key = (s.clientDown key).drop n := by
  obtain ⟨client, hclient⟩ := Option.isSome_iff_exists.mp hkey
  have hup := h.clients key client hclient
  obtain ⟨channel, hback, hstage⟩ := hup.stage
  obtain ⟨j, rest, hrun, hcarries⟩ := ClientProgram.onMessage_roleLists client
    hund.roleList hund.roleListFits channel (h.clientDown key) n
  have hselected := ClientProgram.selected_iterate client ((t.lists key).take j).length
  generalize ClientProgram.selecting^[((t.lists key).take j).length] client = client' at hrun hselected
  have htotal := t.total_atClient key key j
  rw [if_pos rfl] at htotal
  have hbalance := hup.balance
  have hdone : clientDone s key client client' =
      { s with clients := Function.update s.clients key (some client') } := by
    rw [clientDone, hselected.sent, List.drop_length, List.flatten_nil, List.append_nil,
      Function.update_eq_self]
  refine ⟨{ s with
    clients := Function.update s.clients key (some client')
    clientDown := Function.update s.clientDown key ((s.clientDown key).drop n)
    clientBuf := Function.update s.clientBuf key rest }, j, ?_,
    ⟨h.servers.client hclient, h.client ?_ ?_, ?_, ?_, h.clientUp, h.uplink, h.downlink, ?_⟩,
    isSome_update hclient, ?_, Function.update_self ..⟩
  · rw [clientArrive, hclient]
    dsimp only
    rw [hback]
    refine bind_eq_ok.mpr ⟨_, hrun, ?_⟩
    dsimp only
    rw [hdone]
    rfl
  · refine ⟨hselected.localGuest.trans hup.isGuest, hup.fits, ?_, ⟨channel, ?_, ?_⟩, fun hpos => ?_⟩
    · rw [hselected.logins, hselected.roleLists]
      omega
    · rw [hselected.backEnd, hback]
    · rwa [hselected.logins]
    · rw [hselected.roleLists] at hpos
      rw [hselected.curGameState]
      split
      · exact hup.selecting (by omega)
      · rfl
  · intro key' hne
    have hother := t.total_atClient key key' j
    rwa [if_neg hne, Nat.add_zero] at hother
  · intro g k hk
    exact (isSome_update hclient (g, k)).trans (h.asks g k hk)
  · intro g k hk
    exact (isSome_update hclient (g, k)).trans (h.acks g k hk)
  · exact Splitter.carries_update (fun (key : Key) _ =>
      ClientProgram.roleListFrame env (guestInfo key.1 key.2) roles) h.clientDown hcarries
  · rintro ⟨client₁, channel₁, hclient₁, hback₁, hstate₁⟩
    cases (Function.update_self ..).symm.trans hclient₁
    exact ⟨client, channel₁, hclient, hselected.backEnd.symm.trans hback₁, hstate₁⟩

end Steps

end ClientLogin

end TerraX
