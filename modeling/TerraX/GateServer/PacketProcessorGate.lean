import TerraX.Net.NetChannel
import TerraX.Net.Packet
import TerraX.SrvLib.PacketProcessor

/-!
# The gate server

`Guest`, `GuestManager` and `PacketProcessor_Gate`. The gate handles the packets of
its clients or relays them to its back end, the center. A `std::map` is the function
that finds an entry in it; the account and the game state of a guest are left out.

## Main definitions

- `Guest`, `GuestManager` — what the gate knows of its clients
- `sendPacket2Client` — what it sends to a client of its own
- `Gate`, `Gate.forwardPacketOnFrontEnd` — what it does with a packet of a client
-/

namespace TerraX

open Bytes Memory

/-- `Guest`. -/
structure Guest where
  guestId : Word
  currentAvatarId : Word := 0
  mapPeerInfos : PeerType → Option Word

namespace Guest

/-- `Guest::Guest`, with the peer info of the center that `ServerManager` knows. -/
def new (guestId centerPeerInfo : Word) : Guest where
  guestId := guestId
  mapPeerInfos := Function.update (fun _ => none) .centerserver (some centerPeerInfo)

/-- `Guest::AttachAvatar`. -/
def attachAvatar (guest : Guest) (avatarId : Word) : Guest :=
  { guest with currentAvatarId := avatarId }

/-- `Guest::GetDestPeerInfo`. -/
def getDestPeerInfo (guest : Guest) (peerType : PeerType) : Word :=
  (guest.mapPeerInfos peerType).getD 0

/-- The owner that the gate stamps on the packets of a guest. -/
def ownerInfo (guest : Guest) : Word :=
  if guest.currentAvatarId = 0 then guest.guestId else guest.currentAvatarId

end Guest

/-- `GuestManager`. -/
abbrev GuestManager := Word → Option Guest

/-- `GuestManager::CreateGuest`. -/
def GuestManager.createGuest (guests : GuestManager) (guestId centerPeerInfo : Word) :
    GuestManager :=
  Function.update guests guestId (some (.new guestId centerPeerInfo))

/-- `PacketProcessor_Gate::SendPacket2Client`: the bytes that are written to the channel. -/
def sendPacket2Client (build : Build) (adler32 : List UInt8 → UInt32) (heap : ℕ → UInt8)
    (ownerInfo : Word) (msg : Message) : Except Fault (List UInt8) := do
  let pkt ← PacketC.ofMessage build adler32 heap msg
  let pkt ← pkt.setOwner ownerInfo
  return pkt.buffer

/-- The arguments of `NetChannel::OnMessage`, for a packet of a client. -/
def PacketC.onMessage (pktC : PacketC) (channel : NetChannel) (ownerInfo : Word) :
    Except Fault Dispatch := do
  let packetName ← pktC.getPacketName
  let packetMsg ← pktC.getPacketMsg
  let msgSize ← pktC.getMsgSize
  return channel.onMessage ownerInfo packetName pktC.buffer packetMsg msgSize

/-- What the gate does with a packet of a client: it hands it to a handler of its own, or
    it writes bytes to its back end. -/
inductive GateAction
  | dispatch (packet : Dispatch)
  | sendBackEnd (bytes : List UInt8)
deriving DecidableEq, Repr

/-- The back end and the guests of a gate. -/
structure Gate where
  backEnd : Option NetChannel
  guests : GuestManager

namespace Gate

/-- `PacketProcessor_Gate::ForwardPacketOnFrontEnd`. -/
def forwardPacketOnFrontEnd (build : Build) (host : Endian) (gate : Gate)
    (frontChannel : NetChannel) (pktC : PacketC) : Except Fault (List GateAction) := do
  let pi := PeerInfo.parse (← pktC.getCltDestination)
  match gate.guests frontChannel.getPeerInfo with
  | none =>
    -- Only clients with a guest send packets.
    check build False
    return []
  | some guest =>
    let pktC ← pktC.setOwner guest.ownerInfo
    if PeerType.gateserver = pi.peerType then
      let packetName ← pktC.getPacketName
      let packetMsg ← pktC.getPacketMsg
      let msgSize ← pktC.getMsgSize
      return [.dispatch
        (frontChannel.onMessage guest.ownerInfo packetName pktC.buffer packetMsg msgSize)]
    else
      let pktC ← pktC.appendDestination host (guest.getDestPeerInfo pi.peerType)
      match gate.backEnd with
      | none => return []
      | some backEnd => return if backEnd.sendMsg then [.sendBackEnd pktC.buffer] else []

end Gate

end TerraX
