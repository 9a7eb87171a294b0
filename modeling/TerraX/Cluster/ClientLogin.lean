import TerraX.Client.Client
import TerraX.Cluster.LoginPackets

/-!
# The login of the client program

Client programs, gates and the center, with a stream of bytes in each direction between a client and
its gate and between a gate and the center. Any first part of what is in a stream may arrive at a
time. `DoFrontEnd_Connected` has run for the channels of the clients at their gates; what happens from
there on follows from the code of the three programs.

## Main definitions

- `ClientLogin.State`, with `connected`, `frontArrive`, `centerArrive`, `gateArrive` and
  `clientArrive` — the programs and the streams between them
- `ClientLogin.system` — the runs
- `ClientLogin.GateUp`, `ClientLogin.Serving` — the servers and clients before the first login
- `ClientLogin.Understood` — what is relied on from the generated code
-/

namespace TerraX

open Bytes Memory Framing

namespace ClientLogin

/-- A client, by the channel of its gate at the center and its own channel at the gate. -/
abbrev Key := UInt16 × UInt16

/-! ### States and events -/

/-- The programs, the bytes on the way between them, and those that have arrived and are unread. -/
structure State where
  clients : Key → Option ClientProgram
  gates : UInt16 → Option GateServer
  center : CenterServer
  clientUp : Key → List UInt8
  clientDown : Key → List UInt8
  uplink : UInt16 → List UInt8
  downlink : UInt16 → List UInt8
  clientBuf : Key → List UInt8
  frontBuf : Key → List UInt8
  centerBuf : UInt16 → List UInt8
  gateBuf : UInt16 → List UInt8

/-- What happens: the connection of a client is there, or bytes arrive, at a gate from a client or
    from the center, at the center from a gate, or at a client. -/
inductive Event
  | connected (key : Key)
  | frontArrive (key : Key) (n : ℕ)
  | centerArrive (g : UInt16) (n : ℕ)
  | gateArrive (g : UInt16) (n : ℕ)
  | clientArrive (key : Key) (n : ℕ)

/-- Nobody has sent anything. -/
def start (clients : Key → Option ClientProgram) (gates : UInt16 → Option GateServer)
    (center : CenterServer) : State where
  clients := clients
  gates := gates
  center := center
  clientUp := fun _ => []
  clientDown := fun _ => []
  uplink := fun _ => []
  downlink := fun _ => []
  clientBuf := fun _ => []
  frontBuf := fun _ => []
  centerBuf := fun _ => []
  gateBuf := fun _ => []

/-- The bytes of an output. -/
def bytesOf (env : Env) : Output → Except Fault (List UInt8)
  | .packet _ destInfo ownerInfo msg => do
    let bytes ← sendPacketByChannel env.build env.adler32 env.heap env.host destInfo ownerInfo
      (env.message msg)
    return bytes.getD []
  | .clientPacket _ ownerInfo msg =>
    sendPacket2Client env.build env.adler32 env.heap ownerInfo (env.message msg)
  | .bytes _ bytes => .ok bytes

/-- The streams that a gate writes to: the one to the center, and those to the clients. -/
abbrev GateLinks := List UInt8 × (Key → List UInt8)

/-- What a gate writes to a channel. -/
def gateWrites (env : Env) (g : UInt16) (links : GateLinks) (output : Output) :
    Except Fault GateLinks := do
  let bytes ← bytesOf env output
  match Login.channelOf output with
  | .backEnd => return (links.1 ++ bytes, links.2)
  | .frontEnd k => return (links.1, Function.update links.2 (g, k) (links.2 (g, k) ++ bytes))

section Steps

variable (env : Env) (overread : Packet → Packet × Bool)

/-- The client has become another one, and what it has written is on the way. -/
def clientDone (s : State) (key : Key) (client client' : ClientProgram) : State :=
  { s with
    clients := Function.update s.clients key (some client')
    clientUp := Function.update s.clientUp key
      (s.clientUp key ++ (client'.sent.drop client.sent.length).flatten) }

/-- The gate has become another one, and what it has written is on the way. -/
def gateDone (s : State) (g : UInt16) (gate gate' : GateServer) : Except Fault State := do
  let (uplink, clientDown) ←
    (gate'.sent.drop gate.sent.length).foldlM (gateWrites env g) (s.uplink g, s.clientDown)
  return { s with
    gates := Function.update s.gates g (some gate')
    uplink := Function.update s.uplink g uplink
    clientDown := clientDown }

/-- The connection of a client is there. -/
def connected (s : State) (key : Key) : Except Fault State :=
  match s.clients key with
  | none => .ok s
  | some client => do
    let client' ← client.netEvent env .connected
    return clientDone s key client client'

/-- The first `n` bytes on the way from a client arrive at its gate. -/
def frontArrive (s : State) (key : Key) (n : ℕ) : Except Fault State :=
  match s.gates key.1 with
  | none => .ok s
  | some gate =>
    match gate.frontEnd.getChannel key.2 with
    | none => .ok s
    | some front => do
      let (evbuf, _, gate') ← onMessageFrontEnd env.build env.adler32 env.heap overread .gateserver
        (ClientPackets.gateFn env front) (s.frontBuf key ++ (s.clientUp key).take n) [] gate
      let s ← gateDone env s key.1 gate gate'
      return { s with
        clientUp := Function.update s.clientUp key ((s.clientUp key).drop n)
        frontBuf := Function.update s.frontBuf key evbuf }

/-- The first `n` bytes on the way from a gate arrive at the center. -/
def centerArrive (s : State) (g : UInt16) (n : ℕ) : Except Fault State :=
  match s.center.frontEnd.getChannel g with
  | none => .ok s
  | some channel => do
    let (evbuf, _, center') ← onMessageFrontEnd env.build env.adler32 env.heap overread
      .centerserver (ClientPackets.centerFn env channel) (s.centerBuf g ++ (s.uplink g).take n) []
      s.center
    let downlink ←
      (center'.sent.drop s.center.sent.length).foldlM (Login.centerWrites env) s.downlink
    return { s with
      center := center'
      uplink := Function.update s.uplink g ((s.uplink g).drop n)
      downlink := downlink
      centerBuf := Function.update s.centerBuf g evbuf }

/-- The first `n` bytes on the way from the center arrive at a gate. -/
def gateArrive (s : State) (g : UInt16) (n : ℕ) : Except Fault State :=
  match s.gates g with
  | none => .ok s
  | some gate => do
    let (evbuf, _, gate') ← onMessageBackEnd env.build env.adler32 env.heap overread
      (Login.backEndFn env) (s.gateBuf g ++ (s.downlink g).take n) [] gate
    let s ← gateDone env s g gate gate'
    return { s with
      downlink := Function.update s.downlink g ((s.downlink g).drop n)
      gateBuf := Function.update s.gateBuf g evbuf }

/-- The first `n` bytes on the way from its gate arrive at a client. -/
def clientArrive (s : State) (key : Key) (n : ℕ) : Except Fault State :=
  match s.clients key with
  | none => .ok s
  | some client =>
    match client.backEnd with
    | none => .ok s
    | some channel => do
      let (evbuf, client') ← client.onMessage env channel
        (s.clientBuf key ++ (s.clientDown key).take n)
      let s := clientDone s key client client'
      return { s with
        clientDown := Function.update s.clientDown key ((s.clientDown key).drop n)
        clientBuf := Function.update s.clientBuf key evbuf }

def step (s : State) : Event → Except Fault State
  | .connected key => connected env s key
  | .frontArrive key n => frontArrive env overread s key n
  | .centerArrive g n => centerArrive env overread s g n
  | .gateArrive g n => gateArrive env overread s g n
  | .clientArrive key n => clientArrive env s key n

/-- A client is there that is still connecting. -/
def Connecting (s : State) (key : Key) : Prop :=
  ∃ client channel, s.clients key = some client ∧ client.backEnd = some channel ∧
    channel.connState = .connecting

/-- A connection is there once, and bytes arrive between programs that are there. -/
def Enabled (s : State) : Event → Prop
  | .connected key => Connecting s key
  | .frontArrive key _ => (s.clients key).isSome
  | .centerArrive g _ => (s.gates g).isSome
  | .gateArrive g _ => (s.gates g).isSome
  | .clientArrive key _ => (s.clients key).isSome

/-- The runs, from given programs on. -/
def system (clients : Key → Option ClientProgram) (gates : UInt16 → Option GateServer)
    (center : CenterServer) : Run.System State Event Fault where
  init := start clients gates center
  enabled := Enabled
  step := step env overread

end Steps

/-! ### Before the first login -/

/-- The role list that a gate sends. -/
def roles : PktRoleListAck := ⟨[ascii "Dolores", ascii "Teddy", ascii "Arnold"]⟩

/-- The request that a gate sends for a login. -/
def requestOf (guest : LocalGuest) : PktEnterPermissionReq :=
  ⟨guest.accountName, guest.sessionKey⟩

/-- The generated code reads the messages back that the servers make up themselves, and they fit a
    packet. -/
structure Understood (env : Env) : Prop where
  answer : env.Reads Login.ackMsg
  answerFits : (env.serialize Login.ackMsg).length ≤ maxMsgSize
  roleList : env.Reads ⟨.pktRoleListAck, roles⟩
  roleListFits : (env.serialize ⟨.pktRoleListAck, roles⟩).length ≤ maxMsgSize

/-- The names of a guest are such that the generated code reads the messages back that hold them, and
    they are short enough for a packet. -/
structure Fits (env : Env) (guest : LocalGuest) : Prop where
  login : env.Reads ⟨.pktGameLoginReq, ClientProgram.loginMsg guest⟩
  loginFits : (env.serialize ⟨.pktGameLoginReq, ClientProgram.loginMsg guest⟩).length ≤ maxMsgSize
  request : env.Reads ⟨.pktEnterPermissionReq, requestOf guest⟩
  requestFits : (env.serialize ⟨.pktEnterPermissionReq, requestOf guest⟩).length ≤ maxMsgSize

/-- A gate that is registered on the connected channel `g` of the center and knows the center. For
    each of its channels `DoFrontEnd_Connected` has made a guest then. -/
structure GateUp (g : UInt16) (gate : GateServer) : Prop where
  registered : gate.RegisteredAt g
  linked : ∀ back, gate.backEnd = some back → back.sendMsg = true
  knows : PeerInfo.getPeerType (ServerManager.getCenterPeerInfo gate.infos) = .centerserver
  channels : ∀ k front, gate.frontEnd.getChannel k = some front →
    front.getPeerInfo = guestInfo g k ∧ front.sendMsg = true ∧
      gate.guests (guestInfo g k) =
        some (.new (guestInfo g k) (ServerManager.getCenterPeerInfo gate.infos))

/-- The programs before the first login: the clients have come to `NetManagerClient::Connect`, and
    their gates have channels for them. -/
structure Serving (env : Env) (clients : Key → Option ClientProgram)
    (gates : UInt16 → Option GateServer) (center : CenterServer) : Prop where
  centerReady : Login.CenterReady center.frontEnd
  up : ∀ g gate, gates g = some gate → GateUp g gate ∧ center.frontEnd.connected g = true
  connecting : ∀ g k client, clients (g, k) = some client →
    (∃ account password, ClientProgram.init env account password = .ok client ∧
      Fits env client.localGuest) ∧
    ∃ gate, gates g = some gate ∧ (gate.frontEnd.getChannel k).isSome

end ClientLogin

end TerraX
