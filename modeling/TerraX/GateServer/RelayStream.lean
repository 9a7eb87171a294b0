import TerraX.GateServer.Relay
import TerraX.Lib.Run

/-!
# The stream of relayed packets

The gate accepts frames of up to `MAX_PACKET_SIZE` bytes and makes each of them
`EX_DATA_SIZE` bytes longer, and the next server accepts no more than the gate. This
file says exactly when the stream that the gate writes stays readable.

## Main definitions

- `Gate.takeFrame` — a frame of a client on its way through the gate
- `Gate.Relayable` — the frames that are relayed
- `Gate.RelayAsserts`, `Gate.RelayReadable` — no assertion fails, and the next server reads
  what was relayed

## Main results

- `relay_kept_iff` — the frames for which both hold
-/

namespace TerraX

open Bytes Memory Framing

namespace Gate

section Stream

variable (build : Build) (adler32 : List UInt8 → UInt32) (heap : ℕ → UInt8)
  (overread : Packet → Packet × Bool) (host : Endian) (gate : Gate)

/-- The function that `OnMessage_FrontEnd` hands packets to, with the actions so far. The
    front end of a gate reads packets of clients only. -/
def frontEndFn (front : NetChannel) (actions : List GateAction) :
    Packet → Except Fault (List GateAction)
  | .c pktC => do
    let more ← gate.forwardPacketOnFrontEnd build host front pktC
    return actions ++ more
  | .s _ => .ok actions

/-- A frame arrives from the client behind a channel. -/
def takeFrame (actions : List GateAction) (client : NetChannel × List UInt8) :
    Except Fault (List GateAction) := do
  let (_, _, actions) ← onMessageFrontEnd build adler32 heap overread .gateserver
    (gate.frontEndFn build host client.1) client.2 [] actions
  return actions

/-- The frames that were written to the back end. -/
def sentFrames (actions : List GateAction) : List (List UInt8) :=
  actions.filterMap fun action =>
    match action with
    | .sendBackEnd bytes => some bytes
    | .dispatch _ => none

/-- A frame that the gate accepts from a client with a guest, and relays. -/
structure Relayable (client : NetChannel × List UInt8) : Prop where
  isFrame : IsFrame client.2
  valid : (PacketC.ofClientFrame heap client.2).isValid adler32 = .ok true
  guest : ∃ guest, gate.guests client.1.getPeerInfo = some guest
  dest : PeerInfo.getPeerType (clientDest client.2) ≠ .gateserver
  backEnd : ∃ back, gate.backEnd = some back ∧ back.connState = .connected

/-- The row that is relayed for a client. -/
def relayRow (client : NetChannel × List UInt8) : List UInt8 :=
  match gate.guests client.1.getPeerInfo with
  | none => []
  | some guest => relayedRow host client.2 guest.ownerInfo
      (guest.getDestPeerInfo (PeerInfo.getPeerType (clientDest client.2)))

/-- No assertion fails while the gate relays the frames of `clients`. -/
def RelayAsserts (clients : List (NetChannel × List UInt8)) : Prop :=
  ∃ actions, clients.foldlM (gate.takeFrame .debug adler32 heap overread host) [] = .ok actions

/-- The next server cuts the stream that the gate writes into the relayed frames, in order,
    and reports no error. -/
def RelayReadable (clients : List (NetChannel × List UInt8)) : Prop :=
  ∃ actions, clients.foldlM (gate.takeFrame .release adler32 heap overread host) [] = .ok actions ∧
    sentFrames actions = clients.map (gate.relayRow host) ∧
    ∀ build heap, readMessage build heap false (sentFrames actions).flatten [] =
      .ok ([], (sentFrames actions).map fun frame => .s (.ofFrame frame), .noError)

end Stream

section Step

variable {build : Build} {adler32 : List UInt8 → UInt32} {heap : ℕ → UInt8} {host : Endian}
  {gate : Gate} {client : NetChannel × List UInt8}

/-- Reading a buffer that is one frame of a client. -/
theorem readMessage_client_frame {frame : List UInt8} (h : IsFrame frame) :
    readMessage build heap true frame [] =
      (check build (frame.length + PacketC.exDataSize ≤ maxPacketSize) >>= fun _ =>
        .ok ([], [.c (.ofClientFrame heap frame)], .noError)) := by
  have hnext : packetSplitter.next frame = some frame.length := packetSplitter_isFrame.mpr h
  have hempty : readMessage build heap true [] [.c (.ofClientFrame heap frame)] =
      .ok ([], [.c (.ofClientFrame heap frame)], .noError) :=
    readMessage_of_none build heap true rfl _
  rw [readMessage_of_some build heap true hnext, List.take_length, List.drop_length, readPacket_eq,
    bind_assoc]
  congr 1
  funext _
  exact hempty

/-- One frame: the assertion of `PacketBase`, and then one row for the back end. -/
theorem takeFrame_eq (overread : Packet → Packet × Bool) (h : gate.Relayable adler32 heap client)
    (actions : List GateAction) :
    gate.takeFrame build adler32 heap overread host actions client =
      (check build (client.2.length + PacketC.exDataSize ≤ maxPacketSize) >>= fun _ =>
        .ok (actions ++ [.sendBackEnd (gate.relayRow host client)])) := by
  obtain ⟨guest, hguest⟩ := h.guest
  obtain ⟨back, hback, hconn⟩ := h.backEnd
  obtain ⟨h10, -⟩ := (PacketC.ofClientFrame_isValid_iff adler32 heap h.isFrame.2.1).mp h.valid
  have hforward := forwardPacketOnFrontEnd_eq build heap host h10 hguest hback hconn h.dest
  have hrow : gate.relayRow host client = relayedRow host client.2 guest.ownerInfo
      (guest.getDestPeerInfo (PeerInfo.getPeerType (clientDest client.2))) := by
    rw [relayRow, hguest]
  have haccepted : [Packet.c (.ofClientFrame heap client.2)].filterMap
      (Packet.accepted adler32 overread) = [.c (.ofClientFrame heap client.2)] :=
    List.filterMap_cons_some (Packet.accepted_client heap overread h.valid)
  rw [takeFrame, onMessageFrontEnd, processMessage, beq_self_eq_true,
    readMessage_client_frame h.isFrame, hrow]
  cases check build (client.2.length + PacketC.exDataSize ≤ maxPacketSize) with
  | error e => rfl
  | ok _ =>
    simp only [ok_bind, drainQueue_eq, haccepted, List.foldlM_cons, List.foldlM_nil, frontEndFn,
      hforward, pure_eq_ok]

end Step

theorem sentFrames_map (rows : List (List UInt8)) : sentFrames (rows.map .sendBackEnd) = rows := by
  rw [sentFrames, List.filterMap_map]
  exact List.filterMap_some

section Runs

variable {adler32 : List UInt8 → UInt32} {heap : ℕ → UInt8} {host : Endian} {gate : Gate}
  {clients : List (NetChannel × List UInt8)}
  (overread : Packet → Packet × Bool)
  (hclients : ∀ client ∈ clients, gate.Relayable adler32 heap client)

include hclients

/-- A release build relays every frame. -/
theorem foldlM_takeFrame_release (actions : List GateAction) :
    clients.foldlM (gate.takeFrame .release adler32 heap overread host) actions =
      .ok (actions ++ clients.map fun client => .sendBackEnd (gate.relayRow host client)) := by
  induction clients generalizing actions with
  | nil => simp
  | cons client clients ih =>
    obtain ⟨hclient, hrest⟩ := List.forall_mem_cons.mp hclients
    rw [List.foldlM_cons, takeFrame_eq overread hclient, check_release, ok_bind, ok_bind, ih hrest,
      List.append_assoc]
    rfl

/-- A debug build stops at the first frame that is too long. -/
theorem foldlM_takeFrame_debug_iff (actions : List GateAction) :
    (∃ actions', clients.foldlM (gate.takeFrame .debug adler32 heap overread host) actions =
      .ok actions') ↔
      ∀ client ∈ clients, client.2.length + PacketC.exDataSize ≤ maxPacketSize := by
  induction clients generalizing actions with
  | nil => simp
  | cons client clients ih =>
    obtain ⟨hclient, hrest⟩ := List.forall_mem_cons.mp hclients
    rw [List.foldlM_cons, takeFrame_eq overread hclient, List.forall_mem_cons]
    by_cases hfits : client.2.length + PacketC.exDataSize ≤ maxPacketSize
    · rw [check_of .debug hfits, ok_bind, ok_bind, ih hrest]
      exact (and_iff_right hfits).symm
    · refine iff_of_false ?_ fun hall => hfits hall.1
      simp only [check, if_neg hfits, error_bind, reduceCtorEq, exists_false, not_false_eq_true]

omit hclients in
/-- A relayed row is a frame exactly if it is short enough; a longer one is never consumed. -/
theorem readMessage_relayRow {client : NetChannel × List UInt8}
    (h : gate.Relayable adler32 heap client) (build : Build) (heap' : ℕ → UInt8)
    (tail : List UInt8) (queueRead : List Packet) :
    readMessage build heap' false (gate.relayRow host client ++ tail) queueRead =
      if client.2.length + PacketC.exDataSize ≤ maxPacketSize then
        readMessage build heap' false tail
          (queueRead ++ [.s (.ofFrame (gate.relayRow host client))])
      else .ok (gate.relayRow host client ++ tail, queueRead, .invalidLength) := by
  obtain ⟨guest, hguest⟩ := h.guest
  have hrow : gate.relayRow host client = relayedRow host client.2 guest.ownerInfo
      (guest.getDestPeerInfo (PeerInfo.getPeerType (clientDest client.2))) := by
    rw [relayRow, hguest]
  rw [hrow]
  exact readMessage_relayedRow heap host _ _ adler32 h.isFrame h.valid build heap' tail queueRead

/-- The next server cuts the stream into the relayed rows without an error exactly if all
    of them are short enough. -/
theorem readMessage_relayRows_iff (build : Build) (heap' : ℕ → UInt8) (queueRead : List Packet) :
    readMessage build heap' false (clients.map (gate.relayRow host)).flatten queueRead =
      .ok ([], queueRead ++ (clients.map (gate.relayRow host)).map fun frame => .s (.ofFrame frame),
        .noError) ↔
      ∀ client ∈ clients, client.2.length + PacketC.exDataSize ≤ maxPacketSize := by
  induction clients generalizing queueRead with
  | nil =>
    have hempty : readMessage build heap' false [] queueRead = .ok ([], queueRead, .noError) :=
      readMessage_of_none build heap' false rfl _
    simp [hempty]
  | cons client clients ih =>
    obtain ⟨hclient, hrest⟩ := List.forall_mem_cons.mp hclients
    rw [List.map_cons, List.flatten_cons, readMessage_relayRow hclient, List.forall_mem_cons]
    by_cases hfits : client.2.length + PacketC.exDataSize ≤ maxPacketSize
    · have hih := ih hrest (queueRead ++ [.s (.ofFrame (gate.relayRow host client))])
      rw [if_pos hfits, List.map_cons, and_iff_right hfits]
      simpa only [List.append_assoc, List.singleton_append] using hih
    · rw [if_neg hfits]
      refine iff_of_false (fun heq => ?_) fun hall => hfits hall.1
      simp only [Except.ok.injEq, Prod.mk.injEq, reduceCtorEq, and_false] at heq

theorem relayReadable_iff :
    gate.RelayReadable adler32 heap overread host clients ↔
      ∀ client ∈ clients, client.2.length + PacketC.exDataSize ≤ maxPacketSize := by
  have hsent : sentFrames ([] ++ clients.map fun client =>
      .sendBackEnd (gate.relayRow host client)) = clients.map (gate.relayRow host) := by
    rw [List.nil_append, ← sentFrames_map (clients.map (gate.relayRow host)), List.map_map]
    rfl
  constructor
  · rintro ⟨actions, hactions, hrows, hread⟩
    rw [hrows] at hread
    exact (readMessage_relayRows_iff hclients .release heap []).mp (hread .release heap)
  · intro hfits
    refine ⟨_, foldlM_takeFrame_release overread hclients [], hsent, fun build heap' => ?_⟩
    rw [hsent]
    exact (readMessage_relayRows_iff hclients build heap' []).mpr hfits

end Runs

end Gate

section ClientRow

variable (adler32 : List UInt8 → UInt32) (heap : ℕ → UInt8) (dest : Word) (payload : List UInt8)

theorem clientDest_clientRow : clientDest (clientRow adler32 dest payload) = dest := by
  rw [clientDest, slice_dest_clientRow, ofNat_decodeBE]

/-- Every payload, also one that no message serializes to, makes a frame that passes. -/
theorem clientRow_accepted (hmax : payload.length + 10 ≤ maxPacketSize) :
    IsFrame (clientRow adler32 dest payload) ∧
      (PacketC.ofClientFrame heap (clientRow adler32 dest payload)).isValid adler32 = .ok true := by
  have hlen := clientRow_length adler32 dest payload
  have hpayload : slice (clientRow adler32 dest payload) 6 payload.length = payload :=
    (slice_payload_clientRow adler32 dest payload (Nat.zero_add _).le).trans
      (slice_zero_length payload)
  refine ⟨isFrame_clientRow adler32 dest payload hmax,
    (PacketC.ofClientFrame_isValid_iff adler32 heap (by omega)).mpr ⟨by omega, ?_⟩⟩
  have hoff : payload.length + 10 - 4 = 6 + payload.length := by omega
  rw [hlen, hoff, slice_sum_clientRow, Nat.add_sub_cancel, hpayload, ofNat_decodeBE]

end ClientRow

/-- The exact sequences of frames for which the gate keeps its back end readable. The gate
    adds `EX_DATA_SIZE` bytes to every frame that it relays, and both the assertion of
    `PacketBase` and `ReadMessage` of the next server hold the result to
    `MAX_PACKET_SIZE`: every frame must leave that room. -/
theorem relay_kept_iff (adler32 : List UInt8 → UInt32) (heap : ℕ → UInt8)
    (overread : Packet → Packet × Bool) (host : Endian) (gate : Gate)
    (clients : List (NetChannel × List UInt8))
    (hclients : ∀ client ∈ clients, gate.Relayable adler32 heap client) :
    (gate.RelayAsserts adler32 heap overread host clients ↔
      ∀ client ∈ clients, client.2.length + PacketC.exDataSize ≤ maxPacketSize) ∧
    (gate.RelayReadable adler32 heap overread host clients ↔
      ∀ client ∈ clients, client.2.length + PacketC.exDataSize ≤ maxPacketSize) :=
  ⟨Gate.foldlM_takeFrame_debug_iff overread hclients [],
    Gate.relayReadable_iff overread hclients⟩

theorem relay_kept_emptyMessage :
    Gate.RelayAsserts Adler32.adler32 (fun _ => 0) (fun pkt => (pkt, false)) .little
        ⟨some { connState := .connected }, fun _ => some (.new 0x03010002 0x02000000)⟩
        [({}, [0, 12, 2, 0, 0, 0, 1, 0, 0, 4, 0, 2])] ∧
      Gate.RelayReadable Adler32.adler32 (fun _ => 0) (fun pkt => (pkt, false)) .little
        ⟨some { connState := .connected }, fun _ => some (.new 0x03010002 0x02000000)⟩
        [({}, [0, 12, 2, 0, 0, 0, 1, 0, 0, 4, 0, 2])] := by
  obtain ⟨hasserts, hreadable⟩ := relay_kept_iff Adler32.adler32 (fun _ => 0)
    (fun pkt => (pkt, false)) .little
    ⟨some { connState := .connected }, fun _ => some (.new 0x03010002 0x02000000)⟩
    [({}, [0, 12, 2, 0, 0, 0, 1, 0, 0, 4, 0, 2])]
    (List.forall_mem_singleton.mpr ⟨by decide, rfl, ⟨_, rfl⟩, by decide, _, rfl, rfl⟩)
  exact ⟨hasserts.mpr (by decide), hreadable.mpr (by decide)⟩

/-- A frame of `MAX_PACKET_SIZE` bytes to the center: the gate accepts it, and neither half
    of the relay survives it. -/
theorem relay_kept_maxFrame_fails :
    (∀ client ∈ [(({} : NetChannel),
        clientRow Adler32.adler32 0x02000000 ([2, 80, 0] ++ List.replicate 63987 0))],
      Gate.Relayable Adler32.adler32 (fun _ => 0)
        ⟨some { connState := .connected }, fun _ => some (.new 0x03010002 0x02000000)⟩ client) ∧
      ¬ Gate.RelayAsserts Adler32.adler32 (fun _ => 0) (fun pkt => (pkt, false)) .little
        ⟨some { connState := .connected }, fun _ => some (.new 0x03010002 0x02000000)⟩
        [({}, clientRow Adler32.adler32 0x02000000 ([2, 80, 0] ++ List.replicate 63987 0))] ∧
      ¬ Gate.RelayReadable Adler32.adler32 (fun _ => 0) (fun pkt => (pkt, false)) .little
        ⟨some { connState := .connected }, fun _ => some (.new 0x03010002 0x02000000)⟩
        [({}, clientRow Adler32.adler32 0x02000000 ([2, 80, 0] ++ List.replicate 63987 0))] := by
  have hlength (n : ℕ) : ([2, 80, 0] ++ List.replicate n (0 : UInt8)).length = 3 + n := by
    rw [List.length_append, List.length_replicate]
    rfl
  have hpayload := hlength 63987
  generalize [2, 80, 0] ++ List.replicate 63987 (0 : UInt8) = payload at hpayload ⊢
  have hlen := clientRow_length Adler32.adler32 0x02000000 payload
  have hmax : maxPacketSize = 64000 := rfl
  obtain ⟨hframe, hvalid⟩ :=
    clientRow_accepted Adler32.adler32 (fun _ => 0) 0x02000000 payload (by omega)
  have hclients : ∀ client ∈ [(({} : NetChannel), clientRow Adler32.adler32 0x02000000 payload)],
      Gate.Relayable Adler32.adler32 (fun _ => 0)
        ⟨some { connState := .connected }, fun _ => some (.new 0x03010002 0x02000000)⟩ client := by
    refine List.forall_mem_singleton.mpr ⟨hframe, hvalid, ⟨_, rfl⟩, ?_, _, rfl, rfl⟩
    rw [clientDest_clientRow]
    decide
  have hlong : ¬ ∀ client ∈ [(({} : NetChannel),
      clientRow Adler32.adler32 0x02000000 payload)],
      client.2.length + PacketC.exDataSize ≤ maxPacketSize := by
    intro h
    have hle : (clientRow Adler32.adler32 0x02000000 payload).length + PacketC.exDataSize ≤
        maxPacketSize := h _ List.mem_cons_self
    rw [hlen, hpayload] at hle
    exact absurd hle (by decide)
  exact ⟨hclients,
    fun h => hlong ((Gate.foldlM_takeFrame_debug_iff _ hclients []).mp h),
    fun h => hlong ((Gate.relayReadable_iff _ hclients).mp h)⟩

end TerraX
