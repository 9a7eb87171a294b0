import TerraX.SrvLib.Protocol

/-!
# The channels of a server and their events

The part of `PacketProcessor` that gate, center and world servers share: the channel to
the back end, the server of the front end, and the events of both. A channel reports an
event through the callback that `Connect` or `Accept` has registered, and the callback calls
one of the virtual handlers, of which there is a family for each end.

## Main definitions

- `ChannelPtr`, `NetEvent`, `Output` — channels, what they report, and what is written to them
- `EventHandlers`, `NetEventHandlers` — the two families of virtual handlers
- `connectCallback`, `acceptCallback` — what the two callbacks call
- `PacketProcessor`, with `connect`, `accept`, `netEvent` and `sendPacket2BackEnd`
-/

namespace TerraX

open Memory

/-- A `NetChannelPtr` of a server: its back end, or a channel of its front end by the key of
    the channel in `m_mapChannels`. -/
inductive ChannelPtr
  | backEnd
  | frontEnd (channelIndex : UInt16)
deriving DecidableEq, Repr

/-- `NetEvent_t`. -/
inductive NetEvent
  | connected
  | connectFailed
  | disconnected
deriving DecidableEq, Repr

/-- The state that `NetChannel::Connected`, `ConnectError` and `Disconnected` set before
    they report the event. -/
def NetEvent.connState : NetEvent → ConnState
  | connected => .connected
  | connectFailed => .disconnected
  | disconnected => .disconnected

/-- What a server writes to a channel: a packet that it builds for another server or for a
    client, or the bytes of a packet that it forwards. -/
inductive Output
  | packet (channel : ChannelPtr) (destInfo ownerInfo : Word) (msg : PacketMsg)
  | clientPacket (channelIndex : UInt16) (ownerInfo : Word) (msg : PacketMsg)
  | bytes (channel : ChannelPtr) (bytes : List UInt8)

/-! ### The routing of events -/

/-- A family of virtual handlers: `Do*_Connected`, `Do*_Disconnected` and `Do*_ConnBreak`. -/
structure EventHandlers (σ : Type) where
  connected : ChannelPtr → σ → Except Fault σ := fun _ s => .ok s
  disconnected : ChannelPtr → σ → Except Fault σ := fun _ s => .ok s
  connBreak : ChannelPtr → σ → Except Fault σ := fun _ s => .ok s

/-- Both families. Those of `PacketProcessor` itself do nothing. -/
structure NetEventHandlers (σ : Type) where
  backEnd : EventHandlers σ := {}
  frontEnd : EventHandlers σ := {}

/-- The switch over the events that both ends share. -/
def EventHandlers.onNetEvent {σ : Type} (handlers : EventHandlers σ) (channel : ChannelPtr) :
    NetEvent → σ → Except Fault σ
  | .connected => handlers.connected channel
  | .connectFailed => handlers.connBreak channel
  | .disconnected => handlers.disconnected channel

namespace NetEventHandlers

variable {σ : Type} (handlers : NetEventHandlers σ)

/-- `PacketProcessor::OnNetEvent_FrontEnd`. -/
def onNetEventFrontEnd : ChannelPtr → NetEvent → σ → Except Fault σ :=
  handlers.frontEnd.onNetEvent

/-- `PacketProcessor::OnNetEvent_BackEnd`. -/
def onNetEventBackEnd : ChannelPtr → NetEvent → σ → Except Fault σ :=
  handlers.backEnd.onNetEvent

/-- The callback that `PacketProcessor::Connect` registers. -/
def connectCallback : ChannelPtr → NetEvent → σ → Except Fault σ := handlers.onNetEventBackEnd

/-- The callback that `PacketProcessor::Accept` registers. It calls `OnNetEvent_BackEnd`, too. -/
def acceptCallback : ChannelPtr → NetEvent → σ → Except Fault σ := handlers.onNetEventBackEnd

end NetEventHandlers

/-! ### The channels -/

/-- The channels of a `PacketProcessor`. What it has written to them is kept, too, and which
    packets from the back end it has dispatched on which channel. -/
structure PacketProcessor where
  backEnd : Option NetChannel := none
  frontEnd : NetServer
  sent : List Output := []
  dispatched : List (ChannelPtr × Dispatch) := []

/-- The arguments of `NetChannel::OnMessage`, for a packet whose name has been read. -/
def PacketS.onMessage (pktS : PacketS) (channel : NetChannel) (packetName : List UInt8) :
    Except Fault Dispatch := do
  let ownerInfo ← pktS.getOwnerInfo
  let packetMsg ← pktS.getPacketMsg
  let msgSize ← pktS.getMsgSize
  return channel.onMessage ownerInfo packetName pktS.buffer packetMsg msgSize

namespace PacketProcessor

/-- `PacketProcessor::Accept`. -/
def accept (maxConnections : UInt16) : PacketProcessor where
  frontEnd := .new maxConnections

/-- `PacketProcessor::Connect`, of a server of the given type. -/
def connect (peerType : PeerType) (proc : PacketProcessor) : PacketProcessor :=
  { proc with backEnd := some (NetChannel.setPeerType { connState := .connecting } peerType) }

/-- The channel behind a pointer. -/
def getChannel (proc : PacketProcessor) : ChannelPtr → Option NetChannel
  | .backEnd => proc.backEnd
  | .frontEnd channelIndex => proc.frontEnd.getChannel channelIndex

/-- The server with another state of the channel behind a pointer. -/
def setChannel (proc : PacketProcessor) (ptr : ChannelPtr) (channel : NetChannel) :
    PacketProcessor :=
  match ptr with
  | .backEnd => { proc with backEnd := some channel }
  | .frontEnd channelIndex => { proc with frontEnd := proc.frontEnd.setChannel channelIndex channel }

/-- `NetChannel::SendMsg`: nothing is written to a channel that is not connected. -/
def write (proc : PacketProcessor) (channel : NetChannel) (output : Output) : PacketProcessor :=
  if channel.sendMsg then { proc with sent := proc.sent ++ [output] } else proc

@[simp] theorem write_backEnd (proc : PacketProcessor) (channel : NetChannel) (output : Output) :
    (proc.write channel output).backEnd = proc.backEnd := by
  unfold write
  split <;> rfl

@[simp] theorem write_frontEnd (proc : PacketProcessor) (channel : NetChannel) (output : Output) :
    (proc.write channel output).frontEnd = proc.frontEnd := by
  unfold write
  split <;> rfl

@[simp] theorem write_dispatched (proc : PacketProcessor) (channel : NetChannel)
    (output : Output) : (proc.write channel output).dispatched = proc.dispatched := by
  unfold write
  split <;> rfl

theorem write_sent (proc : PacketProcessor) (channel : NetChannel) (output : Output) :
    (proc.write channel output).sent =
      if channel.sendMsg then proc.sent ++ [output] else proc.sent := by
  unfold write
  split <;> rfl

/-- `PacketProcessor::SendPacket2BackEnd`. -/
def sendPacket2BackEnd (proc : PacketProcessor) (destInfo ownerInfo : Word) (msg : PacketMsg) :
    Except Fault PacketProcessor :=
  match proc.backEnd with
  | none => .error .nullPointer
  | some channel => .ok (proc.write channel (.packet .backEnd destInfo ownerInfo msg))

end PacketProcessor

end TerraX
