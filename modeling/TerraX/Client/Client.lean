import TerraX.Client.ClientFrames
import TerraX.Client.GameStates
import TerraX.Client.UnreadBytes
import TerraX.Lib.Stream
import TerraX.SrvLib.NetEvents
import TerraX.SrvLib.Protocol

/-!
# The client program

`Client`, `LocalGuest` and `NetManagerClient`, driven by the game states. What a state does when it is
entered follows from the calls that `GameStateManager` makes: the form asks for the account,
`GameState_Connecting2Gate` connects, and `GameState_CheckingPermission` sends the `PktGameLoginReq`.
The input of the user is a parameter, and the printing is left out.

## Main definitions

- `LocalGuest`, `ClientProgram` — the state of the program
- `ClientProgram.init`, `ClientProgram.netEvent`, `ClientProgram.onMessage` — what drives it
- `ClientProgram.logins`, `ClientProgram.roleLists` — how often it has asked, and been answered

## Main results

- `ClientProgram.init_eq`, `ClientProgram.connected_eq` — the way to the login
- `ClientProgram.onMessage_roleLists` — what an arrival of role lists does
-/

namespace TerraX

open Bytes Memory Framing

/-- `LocalGuest`. -/
structure LocalGuest where
  accountName : List UInt8 := []
  password : List UInt8 := []
  sessionKey : List UInt8 := []
deriving DecidableEq, Repr

/-- `LocalGuest::InitLoginInfo`. -/
def LocalGuest.initLoginInfo (guest : LocalGuest) (account password : List UInt8) : LocalGuest :=
  { guest with accountName := account, password := password }

/-- The client, with what its user types into the form, and what it has written to its channel. -/
structure ClientProgram where
  typedAccount : List UInt8
  typedPassword : List UInt8
  states : GameStateManager := {}
  localGuest : LocalGuest := {}
  backEnd : Option NetChannel := none
  sent : List (List UInt8) := []

namespace ClientProgram

/-- `NetManagerClient::Connect`. -/
def connect (client : ClientProgram) : ClientProgram :=
  { client with backEnd := some (NetChannel.setPeerType { connState := .connecting } .client) }

/-- `NetManagerClient::SendPacket`. -/
def sendPacket (env : Env) (peerType : PeerType) (msg : PacketMsg) (client : ClientProgram) :
    Except Fault ClientProgram := do
  let pkt ← PacketC.ofMessage env.build env.adler32 env.heap (env.message msg)
  let pkt ← pkt.setOwner (PeerInfo.serialize { peerType := peerType })
  match client.backEnd with
  | none => .error .nullPointer
  | some channel =>
    return if channel.sendMsg then { client with sent := client.sent ++ [pkt.buffer] } else client

/-- The message that `GameState_CheckingPermission::Enter` sends. -/
def loginMsg (guest : LocalGuest) : PktGameLoginReq where
  accountName := guest.accountName
  sessionKey := guest.sessionKey

section Calls

variable (env : Env)

/-- What a call to a state does besides calling others. -/
def perform (client : ClientProgram) : StateCall → Except Fault ClientProgram
  | .enter .loginForm =>
    .ok { client with
      localGuest := client.localGuest.initLoginInfo client.typedAccount client.typedPassword }
  | .enter .connecting2Gate => .ok client.connect
  | .enter .accountCheckingPermission =>
    client.sendPacket env .gateserver ⟨.pktGameLoginReq, loginMsg client.localGuest⟩
  | _ => .ok client

/-- The states have been called: what the new calls do, in their order. -/
def called (client : ClientProgram) (states : GameStateManager) : Except Fault ClientProgram :=
  (states.trace.drop client.states.trace.length).foldlM (perform env) { client with states := states }

/-- `Client::Init`. -/
def init (account password : List UInt8) : Except Fault ClientProgram := do
  let client : ClientProgram := { typedAccount := account, typedPassword := password }
  let states ← client.states.enterDefaultState
  client.called env states

/-- `NetManagerClient::DoBackEnd_Connected`. -/
def doBackEndConnected (client : ClientProgram) : Except Fault ClientProgram := do
  let states ← client.states.nextState .accountCheckingPermission
  client.called env states

/-- An event that the channel reports, after it has changed its own state. When the connection is
    lost or refused, the client only prints. -/
def netEvent (event : NetEvent) (client : ClientProgram) : Except Fault ClientProgram :=
  match client.backEnd with
  | none => .ok client
  | some channel =>
    let client := { client with backEnd := some { channel with connState := event.connState } }
    match event with
    | .connected => client.doBackEndConnected env
    | .connectFailed => .ok client
    | .disconnected => .ok client

/-- `GameStateManager::OnMessage_PktRoleListAck`. -/
def onMessagePktRoleListAck (client : ClientProgram) : Except Fault ClientProgram := do
  let states ← client.states.onMessagePktRoleListAck
  client.called env states

/-- The handlers that the client has registered. -/
def callBacks : List (CallBack PacketType.Fields ClientProgram) :=
  [⟨.pktRoleListAck, fun _ _ _ => onMessagePktRoleListAck env⟩]

/-- `PacketDispatcher::DeliverPacket` at the client. -/
def deliverPacket (packet : Dispatch) (client : ClientProgram) : Except Fault ClientProgram :=
  PacketDispatcher.deliverPacket env.build PacketType.descriptor env.parse (callBacks env) packet
    client

/-- `NetManagerClient::OnMessage_BackEnd`: what has arrived, and what stays unread. -/
def onMessage (channel : NetChannel) (evbuf : List UInt8) (client : ClientProgram) :
    Except Fault (List UInt8 × ClientProgram) :=
  NetManagerClient.processMessage env.build env.adler32 env.heap channel (deliverPacket env) evbuf []
    client

end Calls

/-- How often the client has come to where it sends its login. -/
def logins (client : ClientProgram) : ℕ :=
  client.states.trace.count (.enter .accountCheckingPermission)

/-- How often it has come to where a role list takes it. -/
def roleLists (client : ClientProgram) : ℕ :=
  client.states.trace.count (.enter .accountSelectingAvatar)

/-! ### The way to the login -/

section Login

variable {env : Env} {client : ClientProgram}

/-- A request for a state that requests nothing itself. -/
theorem nextState_of_quiet (m : GameStateManager) {state : GameState}
    (hvalid : 0 ≤ state.toInt ∧ state.toInt < GameState.count.toInt)
    (hquiet : GameStateManager.requested state = none) :
    m.nextState state = .ok ⟨state, m.trace ++ [.leave state, .enter state]⟩ := by
  have hcall : ∀ (m : GameStateManager) (c : StateCall),
      m.call state c = .ok { m with trace := m.trace ++ [c] } := fun m c => if_pos hvalid
  have henter : GameStateManager.enter ⟨state, m.trace ++ [.leave state]⟩ state =
      .ok ⟨state, m.trace ++ [.leave state] ++ [.enter state]⟩ := by
    rw [GameStateManager.enter, hcall, ok_bind]
    cases state <;> first | rfl | cases hquiet
  rw [GameStateManager.nextState, hcall, ok_bind, henter, List.append_assoc]
  rfl

/-- What a quiet request leads to. -/
theorem called_quiet {state : GameState} :
    client.called env ⟨state, client.states.trace ++ [.leave state, .enter state]⟩ =
      perform env { client with
        states := ⟨state, client.states.trace ++ [.leave state, .enter state]⟩ } (.enter state) := by
  have hleave : ∀ client : ClientProgram, perform env client (.leave state) = .ok client :=
    fun _ => rfl
  rw [called, List.drop_left, List.foldlM_cons, hleave, ok_bind, List.foldlM_cons]
  simp only [List.foldlM_nil, bind_pure]

/-- The states that the client has gone through when it connects. -/
def initStates : GameStateManager :=
  ⟨.connecting2Gate, [.enter .press2Start, .leave .loginForm, .enter .loginForm,
    .leave .connecting2Gate, .enter .connecting2Gate]⟩

/-- The client asks for the account, and connects. -/
theorem init_eq (account password : List UInt8) :
    init env account password = .ok
      { typedAccount := account
        typedPassword := password
        states := initStates
        localGuest := ⟨account, password, []⟩
        backEnd := some (NetChannel.setPeerType { connState := .connecting } .client) } := by
  have hstates : GameStateManager.enterDefaultState {} = .ok initStates := by
    simp [initStates, GameStateManager.enterDefaultState, GameStateManager.enter,
      GameStateManager.nextState, GameStateManager.call, GameState.toInt]
  rw [init, hstates]
  rfl

/-- A message whose body fits a packet is written as the row of a client packet. -/
theorem sendPacket_eq (peerType : PeerType) {msg : PacketMsg}
    (hname : (env.message msg).name.length ≤ 254) (hbody : (env.message msg).body.length ≤ maxMsgSize)
    {channel : NetChannel} (hback : client.backEnd = some channel) (hsend : channel.sendMsg = true) :
    client.sendPacket env peerType msg = .ok { client with
      sent := client.sent ++ [clientRow env.adler32 (PeerInfo.serialize { peerType := peerType })
        (env.message msg).payload] } := by
  obtain ⟨owner, hbuilt⟩ := PacketC.ofMessage_eq hname hbody env.build env.adler32 env.heap
  rw [sendPacket, hbuilt, ok_bind, PacketC.setOwner_clientRow, ok_bind, hback]
  simp only [hsend, if_true, pure_eq_ok]

/-- The bytes of the login. -/
def loginFrame (env : Env) (guest : LocalGuest) : List UInt8 :=
  clientRow env.adler32 (PeerInfo.serialize { peerType := .gateserver })
    (env.message ⟨.pktGameLoginReq, loginMsg guest⟩).payload

/-- When the connection is there, the client sends its login. -/
theorem connected_eq {channel : NetChannel} (hback : client.backEnd = some channel)
    (hbody : (env.serialize ⟨.pktGameLoginReq, loginMsg client.localGuest⟩).length ≤ maxMsgSize) :
    client.netEvent env .connected = .ok { client with
      states := ⟨.accountCheckingPermission, client.states.trace ++
        [.leave .accountCheckingPermission, .enter .accountCheckingPermission]⟩
      backEnd := some { channel with connState := .connected }
      sent := client.sent ++ [loginFrame env client.localGuest] } := by
  rw [netEvent, hback]
  dsimp only
  rw [doBackEndConnected, nextState_of_quiet _ (by decide) rfl, ok_bind, called_quiet, perform]
  exact sendPacket_eq .gateserver (by change (ascii "PktGameLoginReq").length ≤ 254; decide) hbody rfl rfl

end Login

/-! ### The role list -/

section RoleList

variable {env : Env} {client : ClientProgram} {pkt : PktRoleListAck}

/-- The bytes of a role list. -/
def roleListFrame (env : Env) (owner : Word) (pkt : PktRoleListAck) : List UInt8 :=
  clientRow env.adler32 owner (env.message ⟨.pktRoleListAck, pkt⟩).payload

/-- The client with its avatars. -/
def selecting (client : ClientProgram) : ClientProgram :=
  { client with states := ⟨.accountSelectingAvatar, client.states.trace ++
    [.leave .accountSelectingAvatar, .enter .accountSelectingAvatar]⟩ }

/-- A role list takes the client there, whatever state it is in. -/
theorem onMessagePktRoleListAck_eq :
    client.onMessagePktRoleListAck env = .ok client.selecting := by
  rw [onMessagePktRoleListAck, GameStateManager.onMessagePktRoleListAck,
    nextState_of_quiet _ (by decide) rfl, ok_bind, called_quiet]
  rfl

/-- What some role lists change at the client, and what they do not. -/
structure Selected (client client' : ClientProgram) (n : ℕ) : Prop where
  localGuest : client'.localGuest = client.localGuest
  backEnd : client'.backEnd = client.backEnd
  sent : client'.sent = client.sent
  logins : client'.logins = client.logins
  roleLists : client'.roleLists = client.roleLists + n
  curGameState : client'.states.curGameState =
    if n = 0 then client.states.curGameState else .accountSelectingAvatar

theorem selected_iterate (client : ClientProgram) (n : ℕ) :
    Selected client (selecting^[n] client) n := by
  induction n with
  | zero => exact ⟨rfl, rfl, rfl, rfl, rfl, rfl⟩
  | succ n ih =>
    rw [Function.iterate_succ_apply']
    refine ⟨ih.localGuest, ih.backEnd, ih.sent, ?_, ?_, rfl⟩
    · rw [← ih.logins]
      simp [ClientProgram.logins, selecting]
    · rw [← Nat.add_assoc, ← ih.roleLists]
      simp [ClientProgram.roleLists, selecting]

/-- The packet of a role list is handed to its handler. -/
theorem processPacket_roleList (hreads : env.Reads ⟨.pktRoleListAck, pkt⟩)
    (hbody : (env.serialize ⟨.pktRoleListAck, pkt⟩).length ≤ maxMsgSize) (channel : NetChannel)
    (owner : Word) :
    NetManagerClient.processPacket env.adler32 channel (deliverPacket env) client
      (.ofFrame (roleListFrame env owner pkt)) = .ok client.selecting := by
  let msg : Message := env.message ⟨.pktRoleListAck, pkt⟩
  have hname : msg.name.length ≤ 254 := by
    change (ascii "PktRoleListAck").length ≤ 254
    decide
  have hlen : msg.payload.length + 10 ≤ maxPacketSize := by
    have hpayload := msg.payload_length
    have hbody : msg.body.length ≤ maxMsgSize := hbody
    simp only [maxMsgSize, maxPacketSize, maxPacketTagSize, maxAppendDataSize, maxAoiObjCount]
      at hbody ⊢
    omega
  have hrow := NetManagerClient.readsAs_clientRow env.adler32 owner hname hlen
  obtain ⟨ptr, hptr, hsize, hbody, -⟩ := hrow.body
  rw [roleListFrame, NetManagerClient.processPacket, hrow.valid, ok_bind, if_pos rfl, hrow.name,
    ok_bind, hrow.owner, ok_bind, hptr, ok_bind, hsize, ok_bind]
  have hholds : (channel.onMessage owner msg.name (clientRow env.adler32 owner msg.payload) ptr
      msg.body.length).Holds env .pktRoleListAck pkt := ⟨Or.inl rfl, hreads _ _ hbody⟩
  exact (hholds.deliverPacket ⟨.pktRoleListAck, fun _ _ _ => onMessagePktRoleListAck env⟩
    (by simp [callBacks]) (by simp [callBacks]) client).trans onMessagePktRoleListAck_eq

/-- Several role lists. -/
theorem foldlM_processPacket_roleList (hreads : env.Reads ⟨.pktRoleListAck, pkt⟩)
    (hbody : (env.serialize ⟨.pktRoleListAck, pkt⟩).length ≤ maxMsgSize) (channel : NetChannel)
    (owner : Word) (items : List Unit) :
    ((items.map fun _ => roleListFrame env owner pkt).map PacketC.ofFrame).foldlM
      (NetManagerClient.processPacket env.adler32 channel (deliverPacket env)) client =
        .ok (selecting^[items.length] client) := by
  induction items generalizing client with
  | nil => rfl
  | cons item items ih =>
    rw [List.map_cons, List.map_cons, List.foldlM_cons, processPacket_roleList hreads hbody, ok_bind,
      ih]
    rfl

/-- An arrival at the client, of some of the role lists on their way. -/
theorem onMessage_roleLists (client : ClientProgram) (hreads : env.Reads ⟨.pktRoleListAck, pkt⟩)
    (hbody : (env.serialize ⟨.pktRoleListAck, pkt⟩).length ≤ maxMsgSize) (channel : NetChannel)
    {owner : Word} {items : List Unit} {buf stream : List UInt8}
    (h : packetSplitter.Carries (fun _ => roleListFrame env owner pkt) items buf stream) (n : ℕ) :
    ∃ k rest, client.onMessage env channel (buf ++ stream.take n) =
        .ok (rest, selecting^[(items.take k).length] client) ∧
      packetSplitter.Carries (fun _ => roleListFrame env owner pkt) (items.drop k) rest
        (stream.drop n) := by
  obtain ⟨k, hframes, hcarries⟩ := h.arrive n
  have hrun := NetManagerClient.arrive_processPacket env.build env.adler32 env.heap channel
    (deliverPacket env) (buf, client) (stream.take n)
  dsimp only at hrun
  rw [NetManagerClient.arrive_eq, hframes, foldlM_processPacket_roleList hreads hbody, ok_bind]
    at hrun
  exact ⟨k, _, hrun.symm, hcarries⟩

end RoleList

end ClientProgram

end TerraX
