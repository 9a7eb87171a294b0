import TerraX.Cluster.Selection
import TerraX.Lib.Run
import TerraX.SrvLib.PacketDelivery

/-!
# A center with its gates and world servers

The servers behind a center send packets with one destination to it, and the center hands them
to a handler of its own or forwards them. Between a server and the center there is a stream of
bytes in each direction, of which any first part may arrive at a time; the center reads all
streams through one queue. Packets that are handed to handlers are logged. The handlers of the
gates and world servers are a parameter; what a handler sends, at a server or at the center, is
one more packet of it, which is sent at some later time.

## Main definitions

- `Node` — a gate or a world server
- `Handlers`, `Handlers.Keep` — the handlers that keep the channels of their servers
- `Cluster`, with `send`, `centerSend`, `centerArrive` and `nodeArrive` — the streams between the
  servers
- `Cluster.system` — the runs of a cluster

## Main results

- `Handlers.keep_ofEnv`, `Handlers.return_ofEnv` — the handlers that gate and world servers
  register
-/

namespace TerraX

open Bytes Memory

/-- What gates and world servers do with the packets that they hand to a handler. -/
structure Handlers where
  gate : Dispatch → GateServer → Except Fault GateServer
  world : Dispatch → WorldServer → Except Fault WorldServer

namespace Handlers

/-- The handlers of the given packets neither change the back end of their server, by which it
    knows its peer info, nor the log. -/
structure Keep (handlers : Handlers) (allowed : List UInt8 → Prop) : Prop where
  gate : ∀ {packet gate gate'}, allowed packet.packetName → handlers.gate packet gate = .ok gate' →
    gate'.backEnd = gate.backEnd ∧ gate'.dispatched = gate.dispatched
  world : ∀ {packet world world'}, allowed packet.packetName →
    handlers.world packet world = .ok world' →
    world'.backEnd = world.backEnd ∧ world'.dispatched = world.dispatched

/-- The handlers of the given packets return at servers that have a back end. -/
structure Return (handlers : Handlers) (allowed : List UInt8 → Prop) : Prop where
  gate : ∀ packet gate, allowed packet.packetName → gate.backEnd.isSome →
    ∃ gate', handlers.gate packet gate = .ok gate'
  world : ∀ packet world, allowed packet.packetName → world.backEnd.isSome →
    ∃ world', handlers.world packet world = .ok world'

/-- The handlers that gates and world servers have registered. -/
def ofEnv (env : Env) : Handlers := ⟨GateServer.deliverPacket env, WorldServer.deliverPacket env⟩

/-- They keep the back end, for all packets but the `PktRegisterAck`, with which the center gives
    the server its peer info. -/
theorem keep_ofEnv (env : Env) :
    (ofEnv env).Keep fun packetName => ¬ PacketType.pktRegisterAck.descriptor.Named packetName where
  gate hack h := by
    have hkept := GateServer.deliverPacket_kept hack h
    exact ⟨hkept.backEnd, hkept.dispatched⟩
  world hack h := by
    have hkept := WorldServer.deliverPacket_kept hack h
    exact ⟨hkept.backEnd, hkept.dispatched⟩

/-- In a release build they return, since no assertion is checked. -/
theorem return_ofEnv {env : Env} (hbuild : env.build = .release) (allowed : List UInt8 → Prop) :
    (ofEnv env).Return allowed where
  gate packet gate _ hback := by
    obtain ⟨back, hback⟩ := Option.isSome_iff_exists.mp hback
    exact GateServer.deliverPacket_release hbuild packet hback
  world packet world _ hback := by
    obtain ⟨back, hback⟩ := Option.isSome_iff_exists.mp hback
    exact WorldServer.deliverPacket_release hbuild packet hback

end Handlers

/-- A server behind the center, on the channel that it is registered on. -/
inductive Node
  | gate (g : GateServer)
  | world (w : WorldServer)

namespace Node

def peerType : Node → PeerType
  | .gate _ => .gateserver
  | .world _ => .worldserver

def RegisteredAt : Node → UInt16 → Prop
  | .gate g, i => g.RegisteredAt i
  | .world w, i => w.RegisteredAt i

/-- The packets that the server has dispatched. -/
def log : Node → List (ChannelPtr × Dispatch)
  | .gate g => g.dispatched
  | .world w => w.dispatched

/-- The function that `OnMessage_BackEnd` hands packets to. A back end reads packets of
    servers only. -/
def forwardPacketOnBackEnd (build : Build) (host : Endian) (handlers : Handlers) :
    Node → Packet → Except Fault Node
  | .gate g, .s pktS => do
    let g ← g.forwardPacketOnBackEnd build host handlers.gate pktS
    return .gate g
  | .world w, .s pktS => do
    let w ← w.forwardPacketOnBackEnd build host handlers.world pktS
    return .world w
  | node, .c _ => .ok node

end Node

/-- The servers, the bytes on the way between them and the center, those that have arrived and
    are unread, the queues of the processors, and what was dispatched at the center on which
    channel. The packets that were sent are kept, too: those of the servers with the channel of
    the sender, and those of the center with that of the receiver. -/
structure Cluster where
  nodes : UInt16 → Option Node
  uplink : UInt16 → List UInt8
  downlink : UInt16 → List UInt8
  centerBuf : UInt16 → List UInt8
  nodeBuf : UInt16 → List UInt8
  centerQueue : List Packet
  nodeQueue : UInt16 → List Packet
  centerLog : List (UInt16 × Dispatch)
  sent : List (UInt16 × Sent)
  centerSent : List (UInt16 × Sent)

/-- What happens in a cluster. -/
inductive ClusterEvent
  | send (i : UInt16) (s : Sent)
  | centerSend (k : UInt16) (s : Sent)
  | centerArrive (i : UInt16) (n : ℕ)
  | nodeArrive (j : UInt16) (n : ℕ)

namespace Cluster

/-- Nothing has been sent yet. -/
def start (nodes : UInt16 → Option Node) : Cluster where
  nodes := nodes
  uplink := fun _ => []
  downlink := fun _ => []
  centerBuf := fun _ => []
  nodeBuf := fun _ => []
  centerQueue := []
  nodeQueue := fun _ => []
  centerLog := []
  sent := []
  centerSent := []

/-- The bytes on the way from the center, and what the center has dispatched. -/
abbrev CenterOutput := (UInt16 → List UInt8) × List (UInt16 × Dispatch)

/-- What follows one action of the center, for a packet that arrived on the channel `i`. -/
def perform (i : UInt16) (out : CenterOutput) : CenterAction → CenterOutput
  | .dispatch packet => (out.1, out.2 ++ [(i, packet)])
  | .send c bytes => (Function.update out.1 c (out.1 c ++ bytes), out.2)

/-- The function that `OnMessage_FrontEnd` of the center hands packets to. A center has no
    clients. -/
def centerFn (build : Build) (host : Endian) (net : NetServer) (i : UInt16) (front : NetChannel)
    (out : CenterOutput) : Packet → Except Fault CenterOutput
  | .s pktS => do
    let actions ← Center.forwardPacketOnFrontEnd build host net front pktS
    return actions.foldl (perform i) out
  | .c _ => .ok out

section Steps

variable (env : Env) (overread : Packet → Packet × Bool) (net : NetServer)
  (handlers : Handlers)

/-- A server sends a packet to the center. -/
def send (cluster : Cluster) (i : UInt16) (s : Sent) : Except Fault Cluster := do
  let bytes ← s.send env.build env.adler32 env.heap env.host
  return { cluster with
    uplink := Function.update cluster.uplink i (cluster.uplink i ++ bytes.getD [])
    sent := cluster.sent ++ [(i, s)] }

/-- The center sends a packet of its own on the channel `k`, with any destination in it. -/
def centerSend (cluster : Cluster) (k : UInt16) (s : Sent) : Except Fault Cluster := do
  let bytes ← s.send env.build env.adler32 env.heap env.host
  return { cluster with
    downlink := Function.update cluster.downlink k (cluster.downlink k ++ bytes.getD [])
    centerSent := cluster.centerSent ++ [(k, s)] }

/-- The first `n` bytes on the way from a server arrive at the center. -/
def centerArrive (cluster : Cluster) (i : UInt16) (n : ℕ) : Except Fault Cluster :=
  match net.getChannel i with
  | none => .ok cluster
  | some front => do
    let (evbuf, centerQueue, out) ← onMessageFrontEnd env.build env.adler32 env.heap overread
      .centerserver (centerFn env.build env.host net i front)
      (cluster.centerBuf i ++ (cluster.uplink i).take n) cluster.centerQueue
      (cluster.downlink, cluster.centerLog)
    return { cluster with
      uplink := Function.update cluster.uplink i ((cluster.uplink i).drop n)
      downlink := out.1
      centerBuf := Function.update cluster.centerBuf i evbuf
      centerQueue := centerQueue
      centerLog := out.2 }

/-- The first `n` bytes on the way from the center to a server arrive there. -/
def nodeArrive (cluster : Cluster) (j : UInt16) (n : ℕ) : Except Fault Cluster :=
  match cluster.nodes j with
  | none => .ok cluster
  | some node => do
    let (evbuf, queue, node) ← onMessageBackEnd env.build env.adler32 env.heap overread
      (Node.forwardPacketOnBackEnd env.build env.host handlers)
      (cluster.nodeBuf j ++ (cluster.downlink j).take n) (cluster.nodeQueue j) node
    return { cluster with
      nodes := Function.update cluster.nodes j (some node)
      downlink := Function.update cluster.downlink j ((cluster.downlink j).drop n)
      nodeBuf := Function.update cluster.nodeBuf j evbuf
      nodeQueue := Function.update cluster.nodeQueue j queue }

def step (cluster : Cluster) : ClusterEvent → Except Fault Cluster
  | .send i s => cluster.send env i s
  | .centerSend k s => cluster.centerSend env k s
  | .centerArrive i n => cluster.centerArrive env overread net i n
  | .nodeArrive j n => cluster.nodeArrive env overread handlers j n

/-- Only servers that are there send, and only what a packet can hold; the center sends on
    channels that are connected. -/
def Enabled (cluster : Cluster) : ClusterEvent → Prop
  | .send i s => (cluster.nodes i).isSome ∧ s.Sendable
  | .centerSend k s => net.connected k = true ∧ s.Sendable
  | .centerArrive _ _ => True
  | .nodeArrive _ _ => True

/-- The runs of a cluster, from given servers on. -/
def system (nodes : UInt16 → Option Node) : Run.System Cluster ClusterEvent Fault where
  init := start nodes
  enabled := Enabled net
  step := step env overread net handlers

end Steps

end Cluster

end TerraX
