import TerraX.Cluster.ClientPackets
import TerraX.Lib.Run
import TerraX.SrvLib.PacketDelivery

/-!
# The login of clients

The clients of any number of gates send packets. A gate asks the center with a
`PktEnterPermissionReq` for each `PktGameLoginReq` of a client, the center answers with a
`PktEnterPermissionAck`, and the gate sends the role list to the client when the answer arrives.
The streams between gates and center carry the bytes of these packets and of the packets that are
relayed, and any first part of them may arrive at a time.

## Main definitions

- `Login.State`, with `client`, `centerArrive` and `gateArrive` — the gates, the center and the
  streams between them
- `Login.system` — the runs
- `Login.roleLists`, `Login.answers`, `Login.requests` — what was sent for a guest
- `Login.Authorised` — no role list without an answer, and no answer without a login
- `Login.Unforged` — the frames that do not pretend to come from a server
- `Login.GateReady`, `Login.CenterReady` — gates with guests, and their center
-/

namespace TerraX

open Bytes Memory Framing

namespace Login

/-! ### What is written to other servers -/

/-- The channel that an output goes to. -/
def channelOf : Output → ChannelPtr
  | .packet ptr .. => ptr
  | .clientPacket channelIndex .. => .frontEnd channelIndex
  | .bytes ptr _ => ptr

/-- The bytes of what goes to another server. -/
def bytesOf (env : Env) : Output → Except Fault (List UInt8)
  | .packet _ destInfo ownerInfo msg => do
    let bytes ← sendPacketByChannel env.build env.adler32 env.heap env.host destInfo ownerInfo
      (env.message msg)
    return bytes.getD []
  | .clientPacket .. => .ok []
  | .bytes _ bytes => .ok bytes

/-- What a gate writes to its back end goes to the center. -/
def gateWrites (env : Env) (uplink : List UInt8) (output : Output) :
    Except Fault (List UInt8) :=
  match channelOf output with
  | .backEnd => do
    let bytes ← bytesOf env output
    return uplink ++ bytes
  | .frontEnd _ => .ok uplink

/-- What the center writes to a channel goes to the gate there. -/
def centerWrites (env : Env) (downlink : UInt16 → List UInt8) (output : Output) :
    Except Fault (UInt16 → List UInt8) :=
  match channelOf output with
  | .backEnd => .ok downlink
  | .frontEnd c => do
    let bytes ← bytesOf env output
    return Function.update downlink c (downlink c ++ bytes)

/-! ### States and events -/

/-- The servers, the bytes on the way between them, and those that have arrived and are unread.
    The logins that have arrived at the gates are kept, too: gate, and channel of the client. -/
structure State where
  gates : UInt16 → Option GateServer
  center : CenterServer
  uplink : UInt16 → List UInt8
  downlink : UInt16 → List UInt8
  centerBuf : UInt16 → List UInt8
  gateBuf : UInt16 → List UInt8
  logins : List (UInt16 × UInt16)

/-- What happens: a client sends a packet to its gate, or bytes arrive between gate and center. -/
inductive Event
  | client (g k : UInt16) (frame : List UInt8)
  | centerArrive (g : UInt16) (n : ℕ)
  | gateArrive (g : UInt16) (n : ℕ)

/-- Nobody has sent anything. -/
def start (gates : UInt16 → Option GateServer) (center : CenterServer) : State where
  gates := gates
  center := center
  uplink := fun _ => []
  downlink := fun _ => []
  centerBuf := fun _ => []
  gateBuf := fun _ => []
  logins := []

/-- Whether a frame of a client is a valid `PktGameLoginReq` for its gate. -/
def isLogin (env : Env) (front : NetChannel) (guest : Guest) (frame : List UInt8) : Bool :=
  match (PacketC.ofClientFrame env.heap frame).isValid env.adler32,
      ClientPackets.gatePacket env front guest frame with
  | .ok true, .ok packet =>
    decide (PeerInfo.getPeerType (clientDest frame) = .gateserver ∧
      PacketType.pktGameLoginReq.descriptor.Named packet.packetName) &&
    (env.parse .pktGameLoginReq packet.buffer packet.packetMsg packet.msgSize).isSome
  | _, _ => false

/-- The function that `OnMessage_BackEnd` of a gate hands packets to. -/
def backEndFn (env : Env) (gate : GateServer) : Packet → Except Fault GateServer
  | .s pktS =>
    gate.forwardPacketOnBackEnd env.build env.host (GateServer.deliverPacket env) pktS
  | .c _ => .ok gate

section Steps

variable (env : Env) (overread : Packet → Packet × Bool)

/-- A packet of the client on channel `k` arrives at the gate. -/
def client (s : State) (g k : UInt16) (frame : List UInt8) : Except Fault State :=
  match s.gates g with
  | none => .ok s
  | some gate =>
    match gate.frontEnd.getChannel k with
    | none => .ok s
    | some front =>
      match gate.guests front.getPeerInfo with
      | none => .ok s
      | some guest => do
        let gate' ← ClientPackets.atGate env overread front gate frame
        let uplink ← (gate'.sent.drop gate.sent.length).foldlM (gateWrites env) (s.uplink g)
        return { s with
          gates := Function.update s.gates g (some gate')
          uplink := Function.update s.uplink g uplink
          logins := s.logins ++ if isLogin env front guest frame then [(g, k)] else [] }

/-- The first `n` bytes on the way from a gate arrive at the center. -/
def centerArrive (s : State) (g : UInt16) (n : ℕ) : Except Fault State :=
  match s.center.frontEnd.getChannel g with
  | none => .ok s
  | some channel => do
    let (evbuf, _, center') ← onMessageFrontEnd env.build env.adler32 env.heap overread
      .centerserver (ClientPackets.centerFn env channel) (s.centerBuf g ++ (s.uplink g).take n) []
      s.center
    let downlink ← (center'.sent.drop s.center.sent.length).foldlM (centerWrites env) s.downlink
    return { s with
      center := center'
      uplink := Function.update s.uplink g ((s.uplink g).drop n)
      downlink := downlink
      centerBuf := Function.update s.centerBuf g evbuf }

/-- The first `n` bytes on the way from the center to a gate arrive there. -/
def gateArrive (s : State) (g : UInt16) (n : ℕ) : Except Fault State :=
  match s.gates g with
  | none => .ok s
  | some gate => do
    let (evbuf, _, gate') ← onMessageBackEnd env.build env.adler32 env.heap overread
      (backEndFn env) (s.gateBuf g ++ (s.downlink g).take n) [] gate
    let uplink ← (gate'.sent.drop gate.sent.length).foldlM (gateWrites env) (s.uplink g)
    return { s with
      gates := Function.update s.gates g (some gate')
      uplink := Function.update s.uplink g uplink
      downlink := Function.update s.downlink g ((s.downlink g).drop n)
      gateBuf := Function.update s.gateBuf g evbuf }

def step (s : State) : Event → Except Fault State
  | .client g k frame => client env overread s g k frame
  | .centerArrive g n => centerArrive env overread s g n
  | .gateArrive g n => gateArrive env overread s g n

/-- Gates are there, and clients send packets that `is_valid` can check, with any outcome. -/
def Enabled (s : State) : Event → Prop
  | .client g _ frame => (s.gates g).isSome ∧ IsFrame frame ∧
      ∃ valid, (PacketC.ofClientFrame env.heap frame).isValid env.adler32 = .ok valid
  | .centerArrive g _ => (s.gates g).isSome
  | .gateArrive g _ => (s.gates g).isSome

/-- The runs, from given servers on. -/
def system (gates : UInt16 → Option GateServer) (center : CenterServer) :
    Run.System State Event Fault where
  init := start gates center
  enabled := Enabled env
  step := step env overread

end Steps

/-! ### What was sent -/

/-- Whether an output may be a role list for the client on a channel. Bytes that are forwarded to
    the client count, whatever they are. -/
def isRoleList (k : UInt16) : Output → Bool
  | .packet .. => false
  | .clientPacket c _ msg => decide (c = k ∧ msg.type = .pktRoleListAck)
  | .bytes ptr _ => decide (ptr = .frontEnd k)

/-- Whether an output is a `PktEnterPermissionReq` for a guest. -/
def isRequest (guestId : Word) : Output → Bool
  | .packet ptr _ owner msg =>
    decide (ptr = .backEnd ∧ owner = guestId ∧ msg.type = .pktEnterPermissionReq)
  | .clientPacket .. => false
  | .bytes .. => false

/-- Whether a message is a `PktEnterPermissionAck` with `check_result` ok. -/
def isGrant : PacketMsg → Bool
  | ⟨.pktEnterPermissionAck, CheckResult.ok⟩ => true
  | _ => false

/-- Whether an output is such an answer for a guest, on the channel of its gate. -/
def isAnswer (g : UInt16) (guestId : Word) : Output → Bool
  | .packet ptr dest owner msg =>
    decide (ptr = .frontEnd g ∧ dest = guestId ∧ owner = guestId) && isGrant msg
  | .clientPacket .. => false
  | .bytes .. => false

/-- The role lists that a gate has sent to a client. -/
def roleLists (gate : GateServer) (k : UInt16) : ℕ := gate.sent.countP (isRoleList k)

/-- The requests that a gate has sent for a guest. -/
def requests (gate : GateServer) (guestId : Word) : ℕ := gate.sent.countP (isRequest guestId)

/-- The answers that the center has sent for a guest. -/
def answers (center : CenterServer) (g : UInt16) (guestId : Word) : ℕ :=
  center.sent.countP (isAnswer g guestId)

/-- Each gate has sent no more role lists to a client than the center has sent answers for its
    guest, the center no more answers than the gate requests, and the gate no more requests than
    the client logins. -/
def Authorised (s : State) : Prop :=
  ∀ g gate, s.gates g = some gate → ∀ k,
    roleLists gate k ≤ answers s.center g (guestInfo g k) ∧
    answers s.center g (guestInfo g k) ≤ requests gate (guestInfo g k) ∧
    requests gate (guestInfo g k) ≤ s.logins.count (g, k)

/-! ### Clients that pretend to be servers -/

/-- A valid frame for the gate does not hold an answer of the center, and one for the center neither
    a request of a gate nor, in a release build, the registration of a server. -/
def UnforgedFrame (env : Env) (front : NetChannel) (guest : Guest) (frame : List UInt8) : Prop :=
  (PacketC.ofClientFrame env.heap frame).isValid env.adler32 = .ok true →
  if PeerInfo.getPeerType (clientDest frame) = .gateserver then
    ∀ packet, ClientPackets.gatePacket env front guest frame = .ok packet →
      ∀ result, ¬ packet.Holds env .pktEnterPermissionAck result
  else
    PeerInfo.getPeerType (ClientPackets.destOf guest frame) = .centerserver →
    ∀ channel packet, ClientPackets.centerPacket env channel guest frame = .ok packet →
      (∀ req, ¬ packet.Holds env .pktEnterPermissionReq req) ∧
      (env.build = .release → ¬ packet.Holds env .pktRegisterReq ())

/-- The client does not pretend to be a server. -/
def Unforged (env : Env) (s : State) : Event → Prop
  | .client g k frame => ∀ gate front guest, s.gates g = some gate →
      gate.frontEnd.getChannel k = some front → gate.guests front.getPeerInfo = some guest →
      UnforgedFrame env front guest frame
  | .centerArrive .. => True
  | .gateArrive .. => True

/-! ### Gates with guests -/

/-- A gate on channel `g` of the center, after `DoFrontEnd_Connected` has run for its clients: each
    channel has the address of its guest, and each guest was made for such an address, with the peer
    info of the center or, if the gate did not know it, with 0. -/
structure GateReady (g : UInt16) (gate : GateServer) : Prop where
  pos : 0 < g
  lt : g.toNat < maxConnection
  channels : ∀ k front, gate.frontEnd.getChannel k = some front → front.getPeerInfo = guestInfo g k
  guests : ∀ guestId guest, gate.guests guestId = some guest → ∃ centerInfo,
    guest = .new guestId centerInfo ∧
      (PeerInfo.getPeerType centerInfo = .centerserver ∨ centerInfo = 0)

/-- The channels of the center have their keys as channel indexes, and none has the key 0. -/
structure CenterReady (net : NetServer) : Prop where
  noZero : net.getChannel 0 = none
  index : ∀ g channel, net.getChannel g = some channel → channel.getChannelIndex = g

/-- What the servers rely on from the generated code: an answer is short, and the names of a login
    take no more bytes in the request than in the login. -/
structure Compact (env : Env) : Prop where
  answer : (env.serialize ⟨.pktEnterPermissionAck, CheckResult.ok⟩).length ≤ maxMsgSize
  request : ∀ buffer packetMsg msgSize (pkt : PktGameLoginReq),
    env.parse .pktGameLoginReq buffer packetMsg msgSize = some pkt →
    (env.serialize ⟨.pktEnterPermissionReq,
      (⟨pkt.accountName, pkt.sessionKey⟩ : PktEnterPermissionReq)⟩).length ≤ msgSize.toNat

/-- Gates with guests, and their center, where no client has logged in yet. -/
structure Ready (gates : UInt16 → Option GateServer) (center : CenterServer) : Prop where
  gateReady : ∀ g gate, gates g = some gate → GateReady g gate
  centerReady : CenterReady center.frontEnd
  noRoleLists : ∀ g gate, gates g = some gate → ∀ k, roleLists gate k = 0
  noRequests : ∀ g gate, gates g = some gate → ∀ guestId, requests gate guestId = 0
  noAnswers : ∀ g guestId, answers center g guestId = 0

/-! ### Where they come from -/

/-- A gate without clients is ready. -/
theorem gateReady_of_none {g : UInt16} {gate : GateServer} (hreg : gate.RegisteredAt g)
    (hchannels : ∀ k, gate.frontEnd.getChannel k = none)
    (hguests : ∀ guestId, gate.guests guestId = none) : GateReady g gate where
  pos := hreg.pos
  lt := hreg.lt
  channels := by
    intro k front hfront
    rw [hchannels] at hfront
    cases hfront
  guests := by
    intro guestId guest hguest
    rw [hguests] at hguest
    cases hguest

/-- A registered gate stays ready when a client connects and `DoFrontEnd_Connected` runs for it. -/
theorem GateReady.connect {g k : UInt16} {gate : GateServer} (h : GateReady g gate)
    (hreg : gate.RegisteredAt g) (htyped : gate.infos.WellTyped) {freeIndexes : List UInt16}
    (hfree : gate.frontEnd.freeIndexes = k :: freeIndexes) :
    GateReady g
      ({ gate with frontEnd := gate.frontEnd.onConnect.1 }.doFrontEndConnected (.frontEnd k)) := by
  let fresh := NetChannel.setChannelIndex { connState := .connected } k
  have hconnect : gate.frontEnd.onConnect.1 =
      ⟨freeIndexes, Function.update gate.frontEnd.channels k (some fresh)⟩ := by
    rw [NetServer.onConnect, hfree]
  have hreg' : { gate with frontEnd := gate.frontEnd.onConnect.1 }.RegisteredAt g :=
    ⟨hreg.pos, hreg.lt, hreg.backEnd⟩
  have hfresh : gate.frontEnd.onConnect.1.getChannel k = some fresh := by
    rw [hconnect]
    exact Function.update_self ..
  have hindex : fresh.getChannelIndex = k := by
    rw [NetChannel.getChannelIndex, NetChannel.peerInfo_setChannelIndex,
      PeerInfo.getChannelIndex_serialize]
  obtain ⟨made, hinfo, hstate⟩ := GateServer.doFrontEndConnected_state hreg' hfresh hindex
  rw [hstate]
  refine ⟨h.pos, h.lt, fun k' front hfront => ?_, fun guestId guest hguest => ?_⟩
  · change (gate.frontEnd.onConnect.1.setChannel k made).getChannel k' = some front at hfront
    rw [NetServer.getChannel_setChannel, hconnect] at hfront
    by_cases hk : k' = k
    · rw [if_pos hk] at hfront
      cases hfront
      rw [hinfo, hk]
    · rw [if_neg hk] at hfront
      exact h.channels k' front ((Function.update_of_ne hk ..).symm.trans hfront)
  · change Function.update gate.guests (guestInfo g k) (some (.new (guestInfo g k)
      (ServerManager.getCenterPeerInfo gate.infos))) guestId = some guest at hguest
    by_cases hid : guestId = guestInfo g k
    · subst hid
      rw [Function.update_self] at hguest
      cases hguest
      exact ⟨_, rfl, ServerManager.firstPeerInfo_cases htyped .centerserver⟩
    · rw [Function.update_of_ne hid] at hguest
      exact h.guests guestId guest hguest

theorem centerReady_new (maxConns : UInt16) : CenterReady (.new maxConns) :=
  ⟨rfl, fun _ _ h => nomatch h⟩

/-- A center stays ready when a server connects, -/
theorem CenterReady.connect {net : NetServer} (h : CenterReady net) (hindexed : net.Indexed) :
    CenterReady net.onConnect.1 := by
  rcases net.onConnect_cases with hfull | ⟨idx, freeIndexes, hfree, hconnect⟩
  · rw [hfull]
    exact h
  · have hpos := (hindexed.free idx (hfree ▸ List.mem_cons_self)).1
    rw [hconnect]
    refine ⟨(Function.update_of_ne hpos.symm ..).trans h.noZero, fun g channel hchannel => ?_⟩
    by_cases hg : g = idx
    · subst hg
      cases (Function.update_self ..).symm.trans hchannel
      rw [NetChannel.getChannelIndex, NetChannel.peerInfo_setChannelIndex,
        PeerInfo.getChannelIndex_serialize]
    · exact h.index g channel ((Function.update_of_ne hg ..).symm.trans hchannel)

/-- and when one registers. -/
theorem CenterReady.setPeerType {net : NetServer} (h : CenterReady net) {g : UInt16}
    {channel : NetChannel} (hchannel : net.getChannel g = some channel) (peerType : PeerType) :
    CenterReady (net.setChannel g (channel.setPeerType peerType)) := by
  have hpos : (0 : UInt16) ≠ g := by
    rintro rfl
    exact nomatch h.noZero.symm.trans hchannel
  refine ⟨?_, fun g' channel' hchannel' => ?_⟩
  · rw [NetServer.getChannel_setChannel, if_neg hpos]
    exact h.noZero
  · rw [NetServer.getChannel_setChannel] at hchannel'
    by_cases hg : g' = g
    · rw [if_pos hg] at hchannel'
      cases hchannel'
      rw [NetChannel.getChannelIndex, NetChannel.peerInfo_setPeerType,
        PeerInfo.getChannelIndex_serialize, hg]
      exact h.index g channel hchannel
    · rw [if_neg hg] at hchannel'
      exact h.index g' channel' hchannel'

end Login

end TerraX
