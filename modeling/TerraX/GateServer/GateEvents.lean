import TerraX.GateServer.GateServer
import TerraX.Lib.Adler32
import TerraX.Lib.Outcome
import TerraX.Lib.Run

/-!
# The events of a gate

The back end of a gate connects and is lost, clients come and go, and packets arrive from
both sides, in any order. `Accept` has registered `OnNetEvent_BackEnd` for the channels of
the front end, so that every event of a client is handled as one of the back end: a client
that connects makes the gate log in to the center, one that is lost cuts the gate off the
center, and no client ever has a guest.

## Main definitions

- `GateEvents.system` — the events, and what they do
- `GateEvents.Undisturbed` — what packets leave as it is
- `GateEvents.LinkKept`, `GateEvents.GuestsReady` — what a client must not change, and must have

## Main results

- `GateEvents.step_inv` — one event, in a gate without guests
- `GateEvents.link_kept_iff`, `GateEvents.null_dereferenced_iff`, `GateEvents.guests_ready_iff`
-/

namespace TerraX

open Memory Outcome

namespace GateEvents

inductive Event
  | backEnd (event : NetEvent)
  | backEndPacket (pktS : PacketS)
  | clientConnect
  | client (channelIndex : UInt16) (event : NetEvent)
  | clientPacket (channelIndex : UInt16) (pktC : PacketC)

/-- A channel reports events and packets while it is there. One that `Accept` has made is
    connected from the start, and does not report that. -/
def enabled (gate : GateServer) : Event → Prop
  | .backEnd _ => gate.backEnd.isSome
  | .backEndPacket _ => gate.backEnd.isSome
  | .clientConnect => True
  | .client c event => (gate.frontEnd.getChannel c).isSome ∧ event ≠ .connected
  | .clientPacket c _ => (gate.frontEnd.getChannel c).isSome

def step (env : Env) (gate : GateServer) : Event → Except Fault GateServer
  | .backEnd event => gate.netEvent env.build .backEnd event
  | .backEndPacket pktS =>
    gate.forwardPacketOnBackEnd env.build env.host (GateServer.deliverPacket env) pktS
  | .clientConnect => gate.onConnect env.build
  | .client c event => gate.netEvent env.build (.frontEnd c) event
  | .clientPacket c pktC =>
    match gate.frontEnd.getChannel c with
    | none => .ok gate
    | some frontChannel => gate.forwardPacketOnFrontEnd env frontChannel pktC

def system (env : Env) (maxConns : UInt16) : Run.System GateServer Event Fault where
  init := .initNetModule maxConns
  enabled := enabled
  step := step env

/-- Whether a packet that was sent is a `PktRegisterReq`. -/
def isRegisterReq : Output → Bool
  | .packet _ _ _ msg => decide (msg.type = .pktRegisterReq)
  | _ => false

/-- How many `PktRegisterReq` a gate has sent. -/
def registerReqs (gate : GateServer) : ℕ := gate.sent.countP isRegisterReq

/-! ### No packet has a null pointer -/

/-- The computation dereferences no null pointer. -/
abbrev NoNull {α : Type} (r : Except Fault α) : Prop := Ends (fun _ => True) (· ≠ .nullPointer) r

section NoNull

variable (buffer : List UInt8) (pktS : PacketS)

theorem noNull_check (build : Build) (p : Prop) [Decidable p] : NoNull (check build p) := by
  cases build with
  | debug =>
    by_cases hp : p
    · simp [check, hp]
    · simp [check, hp]
  | release => trivial

theorem noNull_read (off len : ℕ) : NoNull (read buffer off len) := by
  by_cases h : off + len ≤ buffer.length
  · rw [read_ok h]
    trivial
  · rw [read_error h]
    exact fun h => nomatch h

theorem noNull_nameLenAt (header : ℕ) : NoNull (nameLenAt buffer header) :=
  (noNull_read buffer header 1).bind fun _ _ => trivial

theorem noNull_getPacketName : NoNull pktS.getPacketName := by
  refine (noNull_nameLenAt pktS.buffer _).bind fun nameLen _ => ?_
  rw [newString]
  split
  · intro h
    cases h
  · exact noNull_read ..

theorem noNull_getOwnerInfo : NoNull pktS.getOwnerInfo :=
  (noNull_read pktS.buffer _ 4).bind fun _ _ => trivial

theorem noNull_getPacketMsg : NoNull pktS.getPacketMsg :=
  (noNull_nameLenAt pktS.buffer _).bind fun _ _ => trivial

theorem noNull_getMsgSize : NoNull pktS.getMsgSize :=
  (noNull_nameLenAt pktS.buffer _).bind fun _ _ => trivial

theorem noNull_destinations (build : Build) (host : Bytes.Endian) :
    NoNull (pktS.destinations build host) := by
  have hall : NoNull (pktS.getAllDestination build) :=
    (noNull_check build _).bind fun _ _ => trivial
  refine hall.bind fun all _ => (Ends.mapM (P := fun _ => True) fun i _ => ?_).mono
    (fun _ _ => trivial) fun _ h => h
  exact (noNull_read pktS.buffer _ 4).bind fun _ _ => trivial

theorem noNull_getCltDestination (pktC : PacketC) : NoNull pktC.getCltDestination :=
  (noNull_read pktC.buffer _ 4).bind fun _ _ => trivial

theorem noNull_onMessagePktServerSync (build : Build) (infos : ServerInfos) (pkt : PktServerSync) :
    NoNull (ServerManager.onMessagePktServerSync build infos pkt) := by
  rw [ServerManager.onMessagePktServerSync]
  split
  · refine Ends.foldlM trivial fun infos w _ _ => ?_
    refine (noNull_check build _).bind fun _ _ => ?_
    split <;> trivial
  · trivial

end NoNull

/-! ### What packets do in a gate without guests -/

/-- What packets leave as it is in a gate without guests: there are still none, the back end is
    there if it was, and no `PktRegisterReq` has been sent. -/
structure Undisturbed (gate gate' : GateServer) : Prop where
  guests : gate'.guests = gate.guests
  linked : gate'.backEnd.isSome = gate.backEnd.isSome
  frontEnd : gate'.frontEnd = gate.frontEnd
  requests : registerReqs gate' = registerReqs gate

theorem Undisturbed.refl (gate : GateServer) : Undisturbed gate gate := ⟨rfl, rfl, rfl, rfl⟩

theorem Undisturbed.trans {gate gate' gate'' : GateServer} (h : Undisturbed gate gate')
    (h' : Undisturbed gate' gate'') : Undisturbed gate gate'' :=
  ⟨h'.guests.trans h.guests, h'.linked.trans h.linked, h'.frontEnd.trans h.frontEnd,
    h'.requests.trans h.requests⟩

/-- The gate is undisturbed, or the code has failed, but not by a null pointer. -/
abbrev Undisturbing (gate : GateServer) (r : Except Fault GateServer) : Prop :=
  Ends (Undisturbed gate) (· ≠ .nullPointer) r

/-- What is written does not count, unless it is a `PktRegisterReq`. -/
theorem registerReqs_write (gate : GateServer) (channel : NetChannel) {output : Output}
    (h : isRegisterReq output = false) :
    registerReqs (gate.write channel output) = registerReqs gate := by
  rw [registerReqs, GateServer.write, PacketProcessor.write_sent]
  split
  · rw [List.countP_append, List.countP_singleton, h]
    rfl
  · rfl

section Packets

variable {env : Env} {gate : GateServer}

theorem checked_undisturbing (build : Build) (gate : GateServer) :
    Undisturbing gate (check build False >>= fun _ => .ok gate) :=
  (noNull_check build False).bind fun _ _ => Undisturbed.refl gate

theorem deliverPacket_undisturbing (env : Env) {gate : GateServer} (packet : Dispatch)
    (hguests : gate.guests = fun _ => none) (hback : gate.backEnd.isSome) :
    Undisturbing gate (gate.deliverPacket env packet) := by
  rcases GateServer.deliverPacket_cases env packet gate with
    ⟨it, hit, msg, -, -, hrun⟩ | hrun | hrun
  · rw [hrun]
    simp only [GateServer.callBacks, List.mem_cons, List.not_mem_nil, or_false] at hit
    rcases hit with rfl | rfl | rfl | rfl
    · obtain ⟨channel, hchannel⟩ := Option.isSome_iff_exists.mp hback
      simp only [GateServer.onMessagePktRegisterAck, hchannel]
      exact ⟨rfl, by rw [hchannel]; rfl, rfl, rfl⟩
    · exact (noNull_onMessagePktServerSync env.build gate.infos msg).bind
        fun infos _ => ⟨rfl, rfl, rfl, rfl⟩
    · simp only [GateServer.onMessagePktGameLoginReq, hguests]
      exact checked_undisturbing env.build gate
    · simp only [GateServer.onMessagePktEnterPermissionAck, hguests]
      exact checked_undisturbing env.build gate
  · rw [hrun]
    exact Undisturbed.refl gate
  · rw [hrun]
    intro h
    cases h

theorem onMessage_undisturbing (ptr : ChannelPtr) (channel : NetChannel) (packetName : List UInt8)
    (pktS : PacketS) (hguests : gate.guests = fun _ => none) (hback : gate.backEnd.isSome) :
    Undisturbing gate
      (GateServer.onMessage (GateServer.deliverPacket env) ptr channel packetName pktS gate) := by
  have hpacket : NoNull (pktS.onMessage channel packetName) := by
    refine (noNull_getOwnerInfo pktS).bind fun ownerInfo _ => ?_
    refine (noNull_getPacketMsg pktS).bind fun packetMsg _ => ?_
    exact (noNull_getMsgSize pktS).bind fun msgSize _ => trivial
  refine hpacket.bind fun packet _ => ?_
  generalize hlogged : { gate with dispatched := gate.dispatched ++ [(ptr, packet)] } = logged
  have hsame : Undisturbed gate logged := by
    subst hlogged
    exact ⟨rfl, rfl, rfl, rfl⟩
  exact (deliverPacket_undisturbing env packet (hsame.guests.trans hguests)
    (hsame.linked.trans hback)).mono (fun _ h => hsame.trans h) fun _ he => he

theorem forwardDest_undisturbing (pktS : PacketS) (destInfo : Word)
    (hguests : gate.guests = fun _ => none) :
    Undisturbing gate (GateServer.forwardDest (GateServer.deliverPacket env) pktS gate destInfo) := by
  rw [GateServer.forwardDest]
  split
  · exact Undisturbed.refl gate
  · next backChannel hback =>
    have hsome : gate.backEnd.isSome := by rw [hback]; rfl
    have hname : NoNull (GateServer.destName pktS destInfo) := by
      rw [GateServer.destName]
      split
      · exact noNull_getPacketName pktS
      · trivial
    refine hname.bind fun packetName _ => ?_
    cases Gate.target backChannel destInfo with
    | backEnd => exact onMessage_undisturbing .backEnd backChannel packetName pktS hguests hsome
    | frontEnd c =>
      rw [GateServer.forward]
      split
      · exact Undisturbed.refl gate
      · next channel _ =>
        exact onMessage_undisturbing (.frontEnd c) channel packetName pktS hguests hsome
    | client c =>
      rw [GateServer.forward]
      split
      · exact Undisturbed.refl gate
      · next channel hchannel =>
        split
        · refine (noNull_read pktS.buffer _ _).bind fun bytes _ => ?_
          exact ⟨rfl, congrArg Option.isSome (PacketProcessor.write_backEnd ..),
            PacketProcessor.write_frontEnd .., registerReqs_write gate channel rfl⟩
        · exact Undisturbed.refl gate
    | nobody => exact Undisturbed.refl gate

theorem backEndPacket_undisturbing (pktS : PacketS) (hguests : gate.guests = fun _ => none) :
    Undisturbing gate (step env gate (.backEndPacket pktS)) := by
  refine (noNull_destinations pktS env.build env.host).bind fun dests _ => ?_
  refine Ends.foldlM (Undisturbed.refl gate) fun gate' dest _ h => ?_
  exact (forwardDest_undisturbing pktS dest (h.guests.trans hguests)).mono
    (fun _ h' => h.trans h') fun _ he => he

/-- A packet of a client without a guest fails, or is ignored. -/
theorem clientPacket_undisturbing (c : UInt16) (pktC : PacketC)
    (hguests : gate.guests = fun _ => none) :
    Undisturbing gate (step env gate (.clientPacket c pktC)) := by
  rw [step]
  split
  · exact Undisturbed.refl gate
  · next channel _ =>
    have hactions : Ends (fun actions => actions = []) (· ≠ .nullPointer)
        (gate.toGate.forwardPacketOnFrontEnd env.build env.host channel pktC) := by
      refine (noNull_getCltDestination pktC).bind fun dest _ => ?_
      simp only [GateServer.toGate, hguests]
      exact (noNull_check env.build False).bind fun _ _ => rfl
    refine hactions.bind fun actions hnil => ?_
    rw [hnil]
    exact Undisturbed.refl gate

/-- The login writes a `PktRegisterReq`, if the back end is connected. -/
theorem login2Center_registerReqs (gate : GateServer) {channel : NetChannel} (h : gate.backEnd = some channel) :
    ∃ gate', gate.login2Center = .ok gate' ∧ gate'.backEnd = gate.backEnd ∧
      gate'.guests = gate.guests ∧ gate'.frontEnd = gate.frontEnd ∧
      registerReqs gate' = registerReqs gate + if channel.sendMsg then 1 else 0 := by
  refine ⟨_, GateServer.login2Center_of_some h, PacketProcessor.write_backEnd .., rfl,
    PacketProcessor.write_frontEnd .., ?_⟩
  rw [registerReqs, GateServer.write, PacketProcessor.write_sent]
  split
  · rw [List.countP_append]
    rfl
  · rfl

/-- A back end that reports an event: the gate logs in if it is connected, and gives it up if
    it is lost. -/
theorem step_backEnd (env : Env) (event : NetEvent) {channel : NetChannel}
    (hback : gate.backEnd = some channel) :
    ∃ gate', step env gate (.backEnd event) = .ok gate' ∧ gate'.guests = gate.guests ∧
      gate'.frontEnd = gate.frontEnd ∧
      registerReqs gate' = registerReqs gate + if event = .connected then 1 else 0 := by
  have hlost : ∀ event : NetEvent, event ≠ .connected →
      step env gate (.backEnd event) = .ok gate.doBackEndDisconnected := by
    intro event hevent
    rw [step, GateServer.netEvent]
    simp only [PacketProcessor.getChannel, hback]
    cases event with
    | connected => exact absurd rfl hevent
    | connectFailed => rfl
    | disconnected => rfl
  cases event with
  | connected =>
    obtain ⟨gate', hlogin, -, hguests, hfront, hreqs⟩ := login2Center_registerReqs
      { gate with backEnd := some { channel with connState := .connected } } rfl
    refine ⟨gate', ?_, hguests, hfront, hreqs⟩
    rw [step, GateServer.netEvent]
    simp only [PacketProcessor.getChannel, hback]
    exact hlogin
  | connectFailed => exact ⟨_, hlost _ (by decide), rfl, rfl, rfl⟩
  | disconnected => exact ⟨_, hlost _ (by decide), rfl, rfl, rfl⟩

/-- A client that connects makes the gate log in: nothing happens if the connection is refused,
    a null pointer is dereferenced if the back end is gone, and a `PktRegisterReq` is sent if
    the back end is connected. -/
theorem step_clientConnect (env : Env) (gate : GateServer) :
    (gate.frontEnd.freeIndexes = [] ∧ step env gate .clientConnect = .ok gate) ∨
    (gate.frontEnd.freeIndexes ≠ [] ∧ gate.backEnd = none ∧
      step env gate .clientConnect = .error .nullPointer) ∨
    (gate.frontEnd.freeIndexes ≠ [] ∧ ∃ channel gate', gate.backEnd = some channel ∧
      step env gate .clientConnect = .ok gate' ∧ gate'.backEnd = gate.backEnd ∧
      gate'.guests = gate.guests ∧
      registerReqs gate' = registerReqs gate + if channel.sendMsg then 1 else 0) := by
  cases hfree : gate.frontEnd.freeIndexes with
  | nil =>
    refine Or.inl ⟨rfl, ?_⟩
    rw [step, GateServer.onConnect, NetServer.onConnect, hfree]
  | cons idx rest =>
    obtain ⟨frontEnd, hstep⟩ : ∃ frontEnd,
        step env gate .clientConnect = GateServer.login2Center { gate with frontEnd } := by
      rw [step, GateServer.onConnect, NetServer.onConnect, hfree]
      exact ⟨_, rfl⟩
    rw [hstep]
    refine Or.inr ?_
    rcases Option.eq_none_or_eq_some gate.backEnd with hback | ⟨channel, hback⟩
    · exact Or.inl ⟨List.cons_ne_nil _ _, hback, GateServer.login2Center_of_none hback⟩
    · obtain ⟨gate', hlogin, hback', hguests, -, hreqs⟩ :=
        login2Center_registerReqs { gate with frontEnd } hback
      exact Or.inr ⟨List.cons_ne_nil _ _, channel, gate', hback, hlogin, hback', hguests, hreqs⟩

/-- A client that is lost makes the gate give up its back end. -/
theorem step_client (env : Env) {c : UInt16} {event : NetEvent} {channel : NetChannel}
    (hchannel : gate.frontEnd.getChannel c = some channel) (hevent : event ≠ .connected) :
    ∃ gate', step env gate (.client c event) = .ok gate' ∧ gate'.backEnd = none ∧
      gate'.guests = gate.guests ∧ registerReqs gate' = registerReqs gate := by
  obtain ⟨frontEnd, hstep⟩ : ∃ frontEnd, step env gate (.client c event) =
      .ok (GateServer.doBackEndDisconnected { gate with frontEnd }) := by
    rw [step, GateServer.netEvent]
    simp only [PacketProcessor.getChannel, hchannel]
    cases event with
    | connected => exact absurd rfl hevent
    | connectFailed => exact ⟨_, rfl⟩
    | disconnected => exact ⟨_, rfl⟩
  exact ⟨_, hstep, rfl, rfl, rfl⟩

end Packets

/-! ### Runs -/

section Runs

variable {env : Env} {maxConns : UInt16} {es : List Event} {gate : GateServer}

/-- No event gives a client a guest. -/
theorem step_guests {e : Event} {gate' : GateServer} (hguests : gate.guests = fun _ => none)
    (henabled : enabled gate e) (h : step env gate e = .ok gate') :
    gate'.guests = fun _ => none := by
  cases e with
  | backEnd event =>
    obtain ⟨channel, hback⟩ := Option.isSome_iff_exists.mp henabled
    obtain ⟨next, hnext, hsame, -⟩ := step_backEnd env event hback
    cases hnext.symm.trans h
    exact hsame.trans hguests
  | backEndPacket pktS =>
    exact ((backEndPacket_undisturbing pktS hguests).of_ok h).guests.trans hguests
  | clientConnect =>
    rcases step_clientConnect env gate with
      ⟨-, hnext⟩ | ⟨-, -, hnext⟩ | ⟨-, _, next, -, hnext, -, hsame, -⟩
    · cases hnext.symm.trans h
      exact hguests
    · cases hnext.symm.trans h
    · cases hnext.symm.trans h
      exact hsame.trans hguests
  | client c event =>
    obtain ⟨channel, hchannel⟩ := Option.isSome_iff_exists.mp henabled.1
    obtain ⟨next, hnext, -, hsame, -⟩ := step_client env hchannel henabled.2
    cases hnext.symm.trans h
    exact hsame.trans hguests
  | clientPacket c pktC =>
    exact ((clientPacket_undisturbing c pktC hguests).of_ok h).guests.trans hguests

/-- No client ever has a guest. -/
theorem runs_guests (h : (system env maxConns).Runs es (.ok gate)) :
    gate.guests = fun _ => none := by
  have hstep : ∀ (_ : List Event) s e s', (s.guests = fun _ => none) → enabled s e →
      step env s e = .ok s' → s'.guests = fun _ => none :=
    fun _ _ _ _ hguests henabled hstep => step_guests hguests henabled hstep
  apply Run.System.preserves rfl hstep h

end Runs

/-! ### The back end -/

/-- The connection, disconnection or connection error of a client. -/
def Event.IsClient : Event → Prop
  | clientConnect => True
  | client _ _ => True
  | _ => False

/-- An event leaves the back end as it is, and no `PktRegisterReq` is sent. -/
def LinkKept (env : Env) (gate : GateServer) (e : Event) : Prop :=
  ∃ gate', step env gate e = .ok gate' ∧ gate'.backEnd = gate.backEnd ∧
    registerReqs gate' = registerReqs gate

/-- The event of a client does not reach the back end: a connection that is refused, or one
    while the back end is still connecting, and a loss when the back end is gone. -/
def Quiet (gate : GateServer) : Event → Prop
  | .clientConnect => gate.frontEnd.freeIndexes = [] ∨
      ∃ channel, gate.backEnd = some channel ∧ channel.connState ≠ .connected
  | .client _ _ => gate.backEnd = none
  | _ => True

/-- Whether an event is the establishment of the back end. -/
def isEstablished : Event → Bool
  | .backEnd event => decide (event = .connected)
  | _ => false

section BackEnd

variable {env : Env} {es : List Event} {gate : GateServer}

theorem sendMsg_false_iff (channel : NetChannel) :
    channel.sendMsg = false ↔ channel.connState ≠ .connected := by
  rw [NetChannel.sendMsg, beq_eq_false_iff_ne]

theorem linkKept_iff {e : Event} (hclient : e.IsClient) (henabled : enabled gate e) :
    LinkKept env gate e ↔ Quiet gate e := by
  cases e with
  | backEnd event => exact absurd hclient id
  | backEndPacket pktS => exact absurd hclient id
  | clientPacket c pktC => exact absurd hclient id
  | clientConnect =>
    rcases step_clientConnect env gate with
      ⟨hfull, hnext⟩ | ⟨hfree, hback, hnext⟩ | ⟨hfree, channel, next, hback, hnext, hsame, -, hreqs⟩
    · exact ⟨fun _ => Or.inl hfull, fun _ => ⟨gate, hnext, rfl, rfl⟩⟩
    · constructor
      · rintro ⟨gate', hstep, -⟩
        cases hnext.symm.trans hstep
      · rintro (hfull | ⟨channel, hsome, -⟩)
        · exact absurd hfull hfree
        · cases hback.symm.trans hsome
    · -- a guest is greeted with a request unless the channel to the center is down
      constructor
      · rintro ⟨gate', hstep, -, hcount⟩
        cases hnext.symm.trans hstep
        refine Or.inr ⟨channel, hback, (sendMsg_false_iff channel).mp ?_⟩
        cases hsend : channel.sendMsg with
        | false => rfl
        | true =>
          rw [hsend, if_pos rfl] at hreqs
          omega
      · rintro (hfull | ⟨channel', hsome, hstate⟩)
        · exact absurd hfull hfree
        · cases hback.symm.trans hsome
          rw [(sendMsg_false_iff channel).mpr hstate] at hreqs
          exact ⟨next, hnext, hsame, hreqs⟩
  | client c event =>
    obtain ⟨channel, hchannel⟩ := Option.isSome_iff_exists.mp henabled.1
    obtain ⟨next, hnext, hnone, -, hreqs⟩ := step_client env hchannel henabled.2
    constructor
    · rintro ⟨gate', hstep, hsame, -⟩
      cases hnext.symm.trans hstep
      exact hsame.symm.trans hnone
    · exact fun hback => ⟨next, hnext, hnone.trans hback.symm, hreqs⟩

/-- Unless a client reaches the back end, only its establishment makes the gate log in. -/
theorem step_registerReqs {e : Event} {gate' : GateServer} (hguests : gate.guests = fun _ => none)
    (henabled : enabled gate e) (hquiet : Quiet gate e) (h : step env gate e = .ok gate') :
    registerReqs gate' = registerReqs gate + if isEstablished e then 1 else 0 := by
  have hclient : ∀ e : Event, e.IsClient → enabled gate e → Quiet gate e →
      step env gate e = .ok gate' → registerReqs gate' = registerReqs gate := by
    intro e hclient henabled hquiet h
    have hkept : LinkKept env gate e := (linkKept_iff hclient henabled).mpr hquiet
    obtain ⟨next, hnext, -, hreqs⟩ := hkept
    cases hnext.symm.trans h
    exact hreqs
  cases e with
  | backEnd event =>
    obtain ⟨channel, hback⟩ := Option.isSome_iff_exists.mp henabled
    obtain ⟨next, hnext, -, -, hreqs⟩ := step_backEnd env event hback
    cases hnext.symm.trans h
    simpa only [isEstablished, decide_eq_true_eq] using hreqs
  | backEndPacket pktS => exact ((backEndPacket_undisturbing pktS hguests).of_ok h).requests
  | clientConnect => exact hclient .clientConnect trivial henabled hquiet h
  | client c event => exact hclient (.client c event) trivial henabled hquiet h
  | clientPacket c pktC => exact ((clientPacket_undisturbing c pktC hguests).of_ok h).requests

end BackEnd

/-- In every reachable state the connection, disconnection or connection error of a client
    keeps the back end and makes the gate send no `PktRegisterReq` exactly if the connection is
    refused or finds the back end still connecting, or if what is lost finds it gone. In the
    runs in which all events of clients are so, the gate sends one `PktRegisterReq` for each
    establishment of the back end. -/
theorem link_kept_iff (env : Env) (maxConns : UInt16) :
    (∀ es gate, (system env maxConns).Runs es (.ok gate) → ∀ e : Event, e.IsClient →
      enabled gate e → (LinkKept env gate e ↔ Quiet gate e)) ∧
    ∀ es gate, ((system env maxConns).restrict Quiet).Runs es (.ok gate) →
      registerReqs gate = es.countP isEstablished := by
  refine ⟨fun _ _ _ e hclient henabled => linkKept_iff hclient henabled, fun es gate h => ?_⟩
  have hstep : ∀ es s e s', registerReqs s = es.countP isEstablished ∧ (s.guests = fun _ => none) →
      enabled s e ∧ Quiet s e → step env s e = .ok s' →
      registerReqs s' = (es ++ [e]).countP isEstablished ∧ (s'.guests = fun _ => none) := by
    rintro es s e s' ⟨hreqs, hguests⟩ ⟨henabled, hquiet⟩ hstep
    refine ⟨?_, step_guests hguests henabled hstep⟩
    rw [step_registerReqs hguests henabled hquiet hstep, hreqs, List.countP_append,
      List.countP_singleton]
  refine (Run.System.preserves ?_ hstep h).1
  exact ⟨rfl, rfl⟩

/-- A gate of the runs below. The only messages in them are the ack of the center for the gate
    on its channel 1, and the news of the center itself. -/
def registeredGate : Env where
  build := .debug
  host := .little
  adler32 := Adler32.adler32
  heap := fun _ => 0
  serialize := fun _ => []
  parse := fun
    | .pktRegisterAck, _, _, _ => some (0x03000001 : Word)
    | .pktServerSync, _, _, _ => some (⟨.add, [0x02000000]⟩ : PktServerSync)
    | _, _, _, _ => none

/-- A second gate connects to the port of the clients while the first one is not there yet. -/
theorem link_kept_iff_connecting :
    ∃ gate, ((system registeredGate 4).restrict Quiet).Runs
        [.clientConnect, .backEnd .connected] (.ok gate) ∧
      registerReqs gate = 1 ∧ LinkKept registeredGate (.initNetModule 4) .clientConnect := by
  have hclient : ((system registeredGate 4).restrict Quiet).Runs [.clientConnect] (.ok _) :=
    .concat .nil ⟨trivial, Or.inr ⟨_, rfl, by decide⟩⟩
  have hback := hclient.concat (l := Event.backEnd .connected) ⟨rfl, trivial⟩
  obtain ⟨hkept, hcount⟩ := link_kept_iff registeredGate 4
  exact ⟨_, hback, hcount _ _ hback, (hkept [] _ .nil .clientConnect trivial trivial).mpr
    (Or.inr ⟨_, rfl, by decide⟩)⟩

/-- A client that connects to a connected gate makes it send a second `PktRegisterReq`, and
    cuts it off the center when it disconnects. -/
theorem not_linkKept_connected :
    ∃ gate gate', (system registeredGate 4).Runs [.backEnd .connected] (.ok gate) ∧
      (system registeredGate 4).Runs [.backEnd .connected, .clientConnect] (.ok gate') ∧
      registerReqs gate = 1 ∧ registerReqs gate' = 2 ∧ gate'.backEnd.isSome ∧
      enabled gate' (.client 1 .disconnected) ∧
      ¬ LinkKept registeredGate gate .clientConnect ∧
      ¬ LinkKept registeredGate gate' (.client 1 .disconnected) := by
  have hback : (system registeredGate 4).Runs [.backEnd .connected] (.ok _) := .concat .nil rfl
  have hclient := hback.concat (l := Event.clientConnect) trivial
  refine ⟨_, _, hback, hclient, rfl, rfl, rfl, ⟨rfl, by decide⟩, ?_, ?_⟩
  · rintro ⟨_, hstep, -, hreqs⟩
    cases hstep
    cases hreqs
  · rintro ⟨_, hstep, hsame, -⟩
    cases hstep
    cases hsame

/-! ### Null pointers -/

/-- A client that connects finds a back end, or is refused. -/
def Linked (gate : GateServer) : Event → Prop
  | .clientConnect => gate.frontEnd.freeIndexes = [] ∨ gate.backEnd.isSome
  | _ => True

/-- In a gate without guests the back end is used without a test only when a client connects. -/
theorem step_nullPointer_iff {env : Env} {gate : GateServer} {e : Event}
    (hguests : gate.guests = fun _ => none) (henabled : enabled gate e) :
    step env gate e = .error .nullPointer ↔ ¬ Linked gate e := by
  have hsafe : step env gate e ≠ .error .nullPointer → Linked gate e →
      (step env gate e = .error .nullPointer ↔ ¬ Linked gate e) :=
    fun hne hlinked => ⟨fun h => absurd h hne, fun h => absurd hlinked h⟩
  cases e with
  | backEnd event =>
    obtain ⟨channel, hback⟩ := Option.isSome_iff_exists.mp henabled
    obtain ⟨next, hnext, -⟩ := step_backEnd env event hback
    exact hsafe (by rw [hnext]; exact fun h => nomatch h) trivial
  | backEndPacket pktS =>
    exact hsafe (fun h => (backEndPacket_undisturbing pktS hguests).of_error h rfl) trivial
  | clientConnect =>
    rcases step_clientConnect env gate with
      ⟨hfull, hnext⟩ | ⟨hfree, hback, hnext⟩ | ⟨hfree, channel, next, hback, hnext, -⟩
    · exact hsafe (by rw [hnext]; exact fun h => nomatch h) (Or.inl hfull)
    · refine ⟨fun _ => ?_, fun _ => hnext⟩
      rintro (hfull | hsome)
      · exact hfree hfull
      · rw [hback] at hsome
        cases hsome
    · exact hsafe (by rw [hnext]; exact fun h => nomatch h) (Or.inr (by rw [hback]; rfl))
  | client c event =>
    obtain ⟨channel, hchannel⟩ := Option.isSome_iff_exists.mp henabled.1
    obtain ⟨next, hnext, -⟩ := step_client env hchannel henabled.2
    exact hsafe (by rw [hnext]; exact fun h => nomatch h) trivial
  | clientPacket c pktC =>
    exact hsafe (fun h => (clientPacket_undisturbing c pktC hguests).of_error h rfl) trivial

/-- In every reachable state an event dereferences a null pointer exactly if it is a client that
    connects, is not refused, and finds no back end. No run in which every client that connects
    finds one, or is refused, dereferences a null pointer. -/
theorem null_dereferenced_iff (env : Env) (maxConns : UInt16) :
    (∀ es gate, (system env maxConns).Runs es (.ok gate) → ∀ e, enabled gate e →
      (step env gate e = .error .nullPointer ↔ ¬ Linked gate e)) ∧
    ∀ es r, ((system env maxConns).restrict Linked).Runs es r → r ≠ .error .nullPointer := by
  refine ⟨fun es gate h e henabled => step_nullPointer_iff (runs_guests h) henabled,
    fun es r h => ?_⟩
  cases h with
  | nil => exact fun h => nomatch h
  | @concat es gate e hrun henabled =>
    intro hnull
    exact (step_nullPointer_iff (runs_guests hrun.of_restrict) henabled.1).mp hnull henabled.2

/-- The center is lost, and a packet of a client arrives. -/
theorem null_dereferenced_iff_lost :
    ∃ r, ((system registeredGate 4).restrict Linked).Runs
        [.backEnd .connected, .clientConnect, .backEnd .disconnected, .clientPacket 1 ⟨[], 2, 0⟩] r ∧
      r ≠ .error .nullPointer := by
  have hback : ((system registeredGate 4).restrict Linked).Runs [.backEnd .connected] (.ok _) :=
    .concat .nil ⟨rfl, trivial⟩
  have hclient := hback.concat (l := Event.clientConnect) ⟨trivial, Or.inr rfl⟩
  have hlost := hclient.concat (l := Event.backEnd .disconnected) ⟨rfl, trivial⟩
  have hpacket := hlost.concat (l := Event.clientPacket 1 ⟨[], 2, 0⟩) ⟨rfl, trivial⟩
  exact ⟨_, hpacket, (null_dereferenced_iff registeredGate 4).2 _ _ hpacket⟩

/-- A client connects when the center has been lost. -/
theorem null_dereferenced_connect :
    ∃ gate, (system registeredGate 4).Runs [.backEnd .connected, .backEnd .disconnected] (.ok gate) ∧
      enabled gate .clientConnect ∧
      step registeredGate gate .clientConnect = .error .nullPointer := by
  have hback : (system registeredGate 4).Runs [.backEnd .connected] (.ok _) := .concat .nil rfl
  have hlost := hback.concat (l := Event.backEnd .disconnected) rfl
  exact ⟨_, hlost, trivial, rfl⟩

/-! ### Guests -/

/-- Every connected client has a guest, which knows the peer info of the center. -/
def GuestsReady (gate : GateServer) (centerInfo : Word) : Prop :=
  ∀ c channel, gate.frontEnd.getChannel c = some channel → channel.connState = .connected →
    ∃ guest, gate.guests channel.getPeerInfo = some guest ∧
      guest.getDestPeerInfo .centerserver = centerInfo

/-- In every reachable state, before the gate has registered and after it, the clients have
    their guests exactly if no client is connected. -/
theorem guests_ready_iff (env : Env) (maxConns : UInt16) (es : List Event) (gate : GateServer)
    (centerInfo : Word) (h : (system env maxConns).Runs es (.ok gate)) :
    GuestsReady gate centerInfo ↔
      ∀ c channel, gate.frontEnd.getChannel c = some channel → channel.connState ≠ .connected := by
  have hguests := runs_guests h
  constructor
  · intro hready c channel hchannel hstate
    obtain ⟨guest, hguest, -⟩ := hready c channel hchannel hstate
    rw [hguests] at hguest
    cases hguest
  · exact fun hnone c channel hchannel hstate => absurd hstate (hnone c channel hchannel)

/-- The ack of the center for a gate on its channel 1. -/
def ackOfCenter : PacketS where
  buffer := [0, 37, 0, 31, 3, 0, 0, 1, 15] ++ ascii "PktRegisterAck" ++
    [0, 8, 129, 128, 128, 24, 80, 86, 7, 52, 0, 0, 0, 3]
  dataSize := 31
  packetSize := 37

/-- The news of the center for this gate. -/
def syncOfCenter : PacketS where
  buffer := [0, 37, 0, 31, 0, 0, 0, 0, 14] ++ ascii "PktServerSync" ++
    [0, 18, 4, 128, 128, 128, 16, 79, 83, 6, 248, 1, 0, 0, 3]
  dataSize := 31
  packetSize := 37

/-- Before the first client connects to a registered gate, none is without a guest. -/
theorem guests_ready_iff_registered :
    ∃ gate, (system registeredGate 4).Runs
        [.backEnd .connected, .backEndPacket ackOfCenter, .backEndPacket syncOfCenter] (.ok gate) ∧
      0x02000000 ∈ gate.infos.known .centerserver ∧ GuestsReady gate 0x02000000 := by
  have hback : (system registeredGate 4).Runs [.backEnd .connected] (.ok _) := .concat .nil rfl
  have hack := hback.concat (l := Event.backEndPacket ackOfCenter) rfl
  have hsync := hack.concat (l := Event.backEndPacket syncOfCenter) rfl
  refine ⟨_, hsync, ?_, ?_⟩
  · exact ServerInfos.mem_known_add.mpr (Or.inr ⟨rfl, rfl⟩)
  · refine (guests_ready_iff registeredGate 4 _ _ 0x02000000 hsync).mpr ?_
    exact fun c channel hchannel => nomatch hchannel

/-- A client connects to a registered gate which knows the center, and has no guest. -/
theorem not_guestsReady_connected :
    ∃ gate, (system registeredGate 4).Runs
        [.backEnd .connected, .backEndPacket ackOfCenter, .backEndPacket syncOfCenter,
          .clientConnect] (.ok gate) ∧
      0x02000000 ∈ gate.infos.known .centerserver ∧ ¬ GuestsReady gate 0x02000000 := by
  have hback : (system registeredGate 4).Runs [.backEnd .connected] (.ok _) := .concat .nil rfl
  have hack := hback.concat (l := Event.backEndPacket ackOfCenter) rfl
  have hsync := hack.concat (l := Event.backEndPacket syncOfCenter) rfl
  have hclient := hsync.concat (l := Event.clientConnect) trivial
  refine ⟨_, hclient, ?_, fun hready => ?_⟩
  · exact ServerInfos.mem_known_add.mpr (Or.inr ⟨rfl, rfl⟩)
  · obtain ⟨guest, hguest, -⟩ := hready 1 _ rfl rfl
    cases hguest

end GateEvents

end TerraX
