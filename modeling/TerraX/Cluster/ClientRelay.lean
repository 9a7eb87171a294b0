import TerraX.Client.ClientFrames
import TerraX.Cluster.ClientLogin
import TerraX.Cluster.ExactlyOnce

/-!
# Clients behind the gates of a cluster

The clients of the gates of a cluster send requests to servers, and servers and gates send packets
to the clients. Between a client and its gate there is a stream of bytes in each direction, of which
any first part may arrive at a time. A gate does not encode what it relays again, in either
direction; what it writes goes to the stream to the center, or to those to its clients.

The servers behind the gates are a `Cluster`, with the handlers that they have registered. As there,
what a handler of a gate sends to a client is one more packet of the gate, which is sent at some
later time, and a packet that a client hands to its dispatcher is logged.

## Main definitions

- `Request`, `Told` — what a client is given to send, and what it is told
- `ClientRelay.State`, with `request`, `tell`, `frontArrive` and `clientArrive` — the clients, and
  the streams between them and their gates
- `ClientRelay.Joined` — the clients that are connected
- `ClientRelay.system` — the runs
-/

namespace TerraX

open Bytes Memory Framing

/-- The arguments of `NetManagerClient::SendPacket`. -/
structure Request where
  peerType : PeerType
  msg : Message

namespace Request

/-- The bytes that `NetManagerClient::SendPacket` writes to the channel. -/
def send (build : Build) (adler32 : List UInt8 → UInt32) (heap : ℕ → UInt8) (r : Request) :
    Except Fault (List UInt8) := do
  let pkt ← PacketC.ofMessage build adler32 heap r.msg
  let pkt ← pkt.setOwner (PeerInfo.serialize { peerType := r.peerType })
  return pkt.buffer

/-- The name fits its length byte, and the body the packet. -/
def Sendable (r : Request) : Prop := r.msg.name.length ≤ 254 ∧ r.msg.body.length ≤ maxMsgSize

/-- The gate passes it on. -/
def ForOthers (r : Request) : Prop := r.peerType ≠ .gateserver

instance (r : Request) : Decidable r.ForOthers := by
  unfold ForOthers
  infer_instance

def frame (adler32 : List UInt8 → UInt32) (r : Request) : List UInt8 :=
  clientRow adler32 (PeerInfo.serialize { peerType := r.peerType }) r.msg.payload

/-- What a gate sends to the center for it. -/
def relayed (guest : Guest) (r : Request) : Sent :=
  ⟨guest.getDestPeerInfo r.peerType, guest.ownerInfo, r.msg⟩

end Request

/-- What a client is told: a message, and its owner. -/
structure Told where
  ownerInfo : Word
  msg : Message

namespace Told

def Sendable (t : Told) : Prop := t.msg.name.length ≤ 254 ∧ t.msg.body.length ≤ maxMsgSize

def frame (adler32 : List UInt8 → UInt32) (t : Told) : List UInt8 :=
  clientRow adler32 t.ownerInfo t.msg.payload

end Told

/-- What is left of a packet for a client at its gate. -/
def Sent.told (s : Sent) : Told := ⟨s.ownerInfo, s.msg⟩

/-- A dispatcher is given what the client is told. -/
structure Dispatch.Tells (packet : Dispatch) (t : Told) : Prop where
  packetName : packet.packetName = t.msg.name
  ownerInfo : packet.ownerInfo = t.ownerInfo
  msgSize : packet.msgSize = t.msg.body.length
  body : read packet.buffer packet.packetMsg t.msg.body.length = .ok t.msg.body

namespace ClientRelay

open ClientLogin (Key)

/-- The servers, the bytes on the way between the clients and their gates, and those that have
    arrived and are unread. What the clients were given to send, what the gates were given to send
    to them, and what the clients have dispatched is kept, too. -/
structure State where
  cluster : Cluster
  clientUp : Key → List UInt8
  clientDown : Key → List UInt8
  frontBuf : Key → List UInt8
  clientBuf : Key → List UInt8
  requests : Key → List Request
  told : Key → List Told
  clientLog : Key → List Dispatch

/-- What happens: something among the servers, a client or a gate sends, or bytes arrive from a
    client or at a client. -/
inductive Event
  | server (e : ClusterEvent)
  | request (key : Key) (r : Request)
  | tell (key : Key) (t : Told)
  | frontArrive (key : Key) (n : ℕ)
  | clientArrive (key : Key) (n : ℕ)

/-- Nobody has sent anything. -/
def start (nodes : UInt16 → Option Node) : State where
  cluster := .start nodes
  clientUp := fun _ => []
  clientDown := fun _ => []
  frontBuf := fun _ => []
  clientBuf := fun _ => []
  requests := fun _ => []
  told := fun _ => []
  clientLog := fun _ => []

/-- What a gate has forwarded to a channel between two of its states. -/
def writtenTo (ptr : ChannelPtr) (gate gate' : GateServer) : List UInt8 :=
  (Fifo.sentTo ptr (gate'.forwarded.drop gate.forwarded.length)).flatten

/-- What the gate of a client has forwarded to it between two states of the servers. -/
def passedOn (nodes nodes' : UInt16 → Option Node) (key : Key) : List UInt8 :=
  match nodes key.1, nodes' key.1 with
  | some (.gate gate), some (.gate gate') => writtenTo (.frontEnd key.2) gate gate'
  | _, _ => []

section Steps

variable (env : Env) (overread : Packet → Packet × Bool) (net : NetServer)
  (clients : Key → Option NetChannel)

/-- Something happens among the servers. -/
def server (s : State) (e : ClusterEvent) : Except Fault State := do
  let cluster ← s.cluster.step env overread net (Handlers.ofEnv env) e
  return { s with
    cluster := cluster
    clientDown := fun key => s.clientDown key ++ passedOn s.cluster.nodes cluster.nodes key }

/-- A client sends a request. -/
def request (s : State) (key : Key) (r : Request) : Except Fault State := do
  let bytes ← r.send env.build env.adler32 env.heap
  return { s with
    clientUp := Function.update s.clientUp key (s.clientUp key ++ bytes)
    requests := Function.update s.requests key (s.requests key ++ [r]) }

/-- A gate sends a packet of its own to a client. -/
def tell (s : State) (key : Key) (t : Told) : Except Fault State := do
  let bytes ← sendPacket2Client env.build env.adler32 env.heap t.ownerInfo t.msg
  return { s with
    clientDown := Function.update s.clientDown key (s.clientDown key ++ bytes)
    told := Function.update s.told key (s.told key ++ [t]) }

/-- The first `n` bytes on the way from a client arrive at its gate. -/
def frontArrive (s : State) (key : Key) (n : ℕ) : Except Fault State :=
  match s.cluster.nodes key.1 with
  | some (.gate gate) =>
    match gate.frontEnd.getChannel key.2 with
    | none => .ok s
    | some front => do
      let (evbuf, queue, gate') ← onMessageFrontEnd env.build env.adler32 env.heap overread
        .gateserver (ClientPackets.gateFn env front) (s.frontBuf key ++ (s.clientUp key).take n)
        (s.cluster.nodeQueue key.1) gate
      return { s with
        cluster := { s.cluster with
          nodes := Function.update s.cluster.nodes key.1 (some (.gate gate'))
          uplink := Function.update s.cluster.uplink key.1
            (s.cluster.uplink key.1 ++ writtenTo .backEnd gate gate')
          nodeQueue := Function.update s.cluster.nodeQueue key.1 queue }
        clientUp := Function.update s.clientUp key ((s.clientUp key).drop n)
        frontBuf := Function.update s.frontBuf key evbuf }
  | _ => .ok s

/-- The first `n` bytes on the way from its gate arrive at a client. -/
def clientArrive (s : State) (key : Key) (n : ℕ) : Except Fault State :=
  match clients key with
  | none => .ok s
  | some channel => do
    let (evbuf, log) ← NetManagerClient.processMessage env.build env.adler32 env.heap channel
      (fun packet log => .ok (log ++ [packet])) (s.clientBuf key ++ (s.clientDown key).take n) []
      (s.clientLog key)
    return { s with
      clientDown := Function.update s.clientDown key ((s.clientDown key).drop n)
      clientBuf := Function.update s.clientBuf key evbuf
      clientLog := Function.update s.clientLog key log }

def step (s : State) : Event → Except Fault State
  | .server e => server env overread net s e
  | .request key r => request env s key r
  | .tell key t => tell env s key t
  | .frontArrive key n => frontArrive env overread s key n
  | .clientArrive key n => clientArrive env clients s key n

/-- A client that is connected to its gate, where it has a guest, and the gate to the center. -/
structure Joined (nodes : UInt16 → Option Node) (key : Key) (guest : Guest) : Prop where
  client : ∃ channel, clients key = some channel ∧ channel.sendMsg = true
  gate : ∃ gate front back, nodes key.1 = some (.gate gate) ∧
    gate.frontEnd.getChannel key.2 = some front ∧ front.sendMsg = true ∧
    gate.guests front.getPeerInfo = some guest ∧ gate.backEnd = some back ∧ back.sendMsg = true

/-- Clients that are connected send, and are told, what a packet can hold. Nobody pretends to be the
    center that registers a server. -/
def Enabled (s : State) : Event → Prop
  | .server e => Cluster.Enabled net s.cluster e ∧
      Cluster.Fits (fun _ s => ¬ PacketType.pktRegisterAck.descriptor.Named s.msg.name) e
  | .request key r => (∃ guest, Joined clients s.cluster.nodes key guest) ∧ r.Sendable ∧
      ¬ PacketType.pktRegisterAck.descriptor.Named r.msg.name
  | .tell key t => (∃ guest, Joined clients s.cluster.nodes key guest) ∧ t.Sendable
  | .frontArrive key _ => ∃ guest, Joined clients s.cluster.nodes key guest
  | .clientArrive key _ => ∃ guest, Joined clients s.cluster.nodes key guest

/-- The runs, from given servers on. -/
def system (nodes : UInt16 → Option Node) : Run.System State Event Fault where
  init := start nodes
  enabled := Enabled net clients
  step := step env overread net clients

end Steps

end ClientRelay

end TerraX
