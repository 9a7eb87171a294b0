import TerraX.Cluster.LoginPackets

/-!
# No role list without a login

Where no client pretends to be a server, every role list has its own answer of the center, every
answer its own request of the gate, and every request its own login of the client. Between the
counts of two of these stands what is on the way: the requests in the stream from a gate to the
center, and the answers in the stream back.

## Main definitions

- `Login.GateInv`, `Login.Inv` — the invariant, for one gate and for all servers

## Main results

- `Login.inv_step` — what every step preserves
- `Login.role_lists_authorised` — every run in which no client pretends to be a server
-/

namespace TerraX

open Bytes Memory Framing

namespace Login

/-! ### Counting outputs -/

section Counts

variable {env : Env} {g k : UInt16} {gate gate' : GateServer} {out : List Output}

theorem Sends.roleLists (h : Sends gate gate' out) (k : UInt16) :
    roleLists gate' k = roleLists gate k + out.countP (isRoleList k) := by
  rw [Login.roleLists, h.sent, List.countP_append]
  rfl

theorem Sends.requests (h : Sends gate gate' out) (guestId : Word) :
    requests gate' guestId = requests gate guestId + out.countP (isRequest guestId) := by
  rw [Login.requests, h.sent, List.countP_append]
  rfl

theorem Sends.gateReady (h : Sends gate gate' out) (hready : GateReady g gate) :
    GateReady g gate' where
  pos := hready.pos
  lt := hready.lt
  channels := by
    rw [h.frontEnd]
    exact hready.channels
  guests := by
    rw [h.guests]
    exact hready.guests

/-- A frame of a client makes no role list. -/
theorem ClientSends.countP_isRoleList {guestId : Word} {front : NetChannel} {guest : Guest}
    {frame : List UInt8} (h : ClientSends env guestId front guest frame out) (k : UInt16) :
    out.countP (isRoleList k) = 0 := by
  cases h with
  | nothing => rfl
  | request dest req hlogin hdest hbody => rfl
  | relayed htype hvalid => simp [isRoleList]

/-- A frame makes a request only if it is a login. -/
theorem ClientSends.countP_isRequest {guestId : Word} {front : NetChannel} {guest : Guest}
    {frame : List UInt8} (h : ClientSends env guestId front guest frame out) (guestId' : Word) :
    out.countP (isRequest guestId') ≤
      if isLogin env front guest frame = true ∧ guestId' = guestId then 1 else 0 := by
  cases h with
  | nothing => exact Nat.zero_le _
  | request dest req hlogin hdest hbody =>
    by_cases heq : guestId' = guestId
    · rw [if_pos ⟨hlogin, heq⟩]
      exact List.countP_le_length
    · rw [if_neg fun h => heq h.2]
      simp [isRequest, Ne.symm heq]
  | relayed htype hvalid =>
    simp [isRequest]

/-- Role lists for some clients. -/
theorem countP_roleListOutput (g k : UInt16) (ks : List UInt16) :
    (ks.map fun k => roleListOutput (guestInfo g k)).countP (isRoleList k) = ks.count k := by
  rw [List.countP_map, List.count]
  refine List.countP_congr fun k' _ => ?_
  simp [roleListOutput, isRoleList, guestInfo]

/-- They are no requests. -/
theorem countP_isRequest_roleListOutput (g : UInt16) (guestId : Word) (ks : List UInt16) :
    (ks.map fun k => roleListOutput (guestInfo g k)).countP (isRequest guestId) = 0 := by
  rw [List.countP_map, List.countP_eq_zero]
  intro k' _
  exact Bool.false_ne_true

/-- Answers for some clients of a gate. -/
theorem countP_ackOutput (hlt : g.toNat < maxConnection) (k : UInt16) (ks : List UInt16) :
    (ks.map fun k => ackOutput g (guestInfo g k)).countP (isAnswer g (guestInfo g k)) =
      ks.count k := by
  rw [List.countP_map, List.count]
  refine List.countP_congr fun k' _ => ?_
  have hinj : guestInfo g k' = guestInfo g k ↔ k' = k :=
    ⟨fun h => (guestInfo_inj hlt hlt h).2, fun h => h ▸ rfl⟩
  simp [ackOutput, isAnswer, isGrant, ackMsg, hinj]

/-- They are no answers on the channel of another gate. -/
theorem countP_ackOutput_of_ne {g' : UInt16} (hne : g' ≠ g) (guestId : Word) (ks : List UInt16) :
    (ks.map fun k => ackOutput g (guestInfo g k)).countP (isAnswer g' guestId) = 0 := by
  rw [List.countP_map, List.countP_eq_zero]
  intro k' _
  simp [ackOutput, isAnswer, Ne.symm hne]

/-- Role lists leave the stream to the center as it is. -/
theorem foldlM_gateWrites_roleLists (env : Env) (g : UInt16) (ks : List UInt16)
    (uplink : List UInt8) :
    (ks.map fun k => roleListOutput (guestInfo g k)).foldlM (gateWrites env) uplink =
      .ok uplink := by
  induction ks with
  | nil => rfl
  | cons k ks ih => exact ih

end Counts

/-! ### The invariant -/

/-- The invariant for a gate on channel `g` of the center: `up` and `down` are the streams to the
    center and back, with what has arrived and is unread in front. Each frame of the one that asks
    for a guest is still to be answered, and each answer in the other is still to be read. -/
structure GateInv (env : Env) (g : UInt16) (gate : GateServer) (center : CenterServer)
    (up down : List UInt8) (logins : UInt16 → ℕ) : Prop where
  ready : GateReady g gate
  up : ∃ fs, packetSplitter.Queued fs up ∧ (∀ f ∈ fs, UpFrame env g f) ∧ ∀ k,
    answers center g (guestInfo g k) + asked env (guestInfo g k) fs ≤ requests gate (guestInfo g k)
  down : ∃ ks, down = Sent.wire env.adler32 env.host (acks env g ks) ∧ ∀ k,
    roleLists gate k + ks.count k ≤ answers center g (guestInfo g k)
  logins : ∀ k, requests gate (guestInfo g k) ≤ logins k

/-- The invariant. -/
structure Inv (env : Env) (s : State) : Prop where
  centerReady : CenterReady s.center.frontEnd
  gates : ∀ g gate, s.gates g = some gate → GateInv env g gate s.center
    (s.centerBuf g ++ s.uplink g) (s.gateBuf g ++ s.downlink g) fun k => s.logins.count (g, k)

section GateSteps

variable {env : Env} {g k : UInt16} {gate gate' : GateServer} {center center' : CenterServer}
  {up down buf uplink uplink' arrived onTheWay : List UInt8} {logins : UInt16 → ℕ}

/-- Other gates take no part in what happens at a gate. -/
theorem GateInv.logins_mono (h : GateInv env g gate center up down logins) {logins' : UInt16 → ℕ}
    (hle : ∀ k, logins k ≤ logins' k) : GateInv env g gate center up down logins' :=
  ⟨h.ready, h.up, h.down, fun k => (h.logins k).trans (hle k)⟩

/-- Nor do they in what the center answers another gate. -/
theorem GateInv.answer_other (h : GateInv env g gate center up down logins) {g' : UInt16}
    (hne : g ≠ g') {ks : List UInt16}
    (hsent : center'.sent = center.sent ++ ks.map fun k => ackOutput g' (guestInfo g' k)) :
    GateInv env g gate center' up down logins := by
  have hanswers : ∀ guestId, answers center' g guestId = answers center g guestId := by
    intro guestId
    rw [answers, hsent, List.countP_append, countP_ackOutput_of_ne hne, Nat.add_zero]
    rfl
  obtain ⟨hready, hup, hdown, hlogins⟩ := h
  simp only [← hanswers] at hup hdown
  exact ⟨hready, hup, hdown, hlogins⟩

/-- A client sends a frame. -/
theorem GateInv.client (h : GateInv env g gate center (buf ++ uplink) down logins)
    {front : NetChannel} {guest : Guest} {frame : List UInt8} (hcompact : Compact env)
    (overread : Packet → Packet × Bool) (hfront : gate.frontEnd.getChannel k = some front)
    (hguest : gate.guests front.getPeerInfo = some guest) (hframe : IsFrame frame)
    (hchecked : ∃ valid, (PacketC.ofClientFrame env.heap frame).isValid env.adler32 = .ok valid)
    (hunforged : UnforgedFrame env front guest frame)
    (hgate : ClientPackets.atGate env overread front gate frame = .ok gate')
    (hwrites : (gate'.sent.drop gate.sent.length).foldlM (gateWrites env) uplink = .ok uplink') :
    GateInv env g gate' center (buf ++ uplink') down fun k' =>
      logins k' + if isLogin env front guest frame = true ∧ k' = k then 1 else 0 := by
  obtain ⟨out, hsends, hout⟩ :=
    gate_client hcompact overread h.ready hfront hguest hframe hchecked hunforged hgate
  obtain ⟨centerInfo, hnew, hcenter⟩ := h.ready.guests _ _ hguest
  rw [h.ready.channels k front hfront] at hnew
  rw [hsends.drop] at hwrites
  obtain ⟨fs, hqueued, hup, hcount⟩ := h.up
  obtain ⟨fs', hqueued', hup', hcount'⟩ :=
    hout.queued hcenter hnew hframe hunforged hwrites hqueued hup
  refine ⟨hsends.gateReady h.ready, ⟨fs', hqueued', hup', fun k' => ?_⟩, ?_, fun k' => ?_⟩
  · have hold := hcount k'
    have hnew := hcount' (guestInfo g k')
    rw [hsends.requests]
    omega
  · obtain ⟨ks, hdown, hks⟩ := h.down
    refine ⟨ks, hdown, fun k' => ?_⟩
    rw [hsends.roleLists, hout.countP_isRoleList]
    exact hks k'
  · have hold := h.logins k'
    have hlogin := hout.countP_isRequest (guestInfo g k')
    have hinj : guestInfo g k' = guestInfo g k ↔ k' = k :=
      ⟨fun heq => (guestInfo_inj h.ready.lt h.ready.lt heq).2, fun heq => heq ▸ rfl⟩
    simp only [hinj] at hlogin
    rw [hsends.requests]
    omega

/-- Something arrives at the center. -/
theorem GateInv.centerArrive (h : GateInv env g gate center (buf ++ (arrived ++ onTheWay)) down logins)
    (overread : Packet → Packet × Bool)
    (hcenter : CenterReady center.frontEnd) {channel : NetChannel}
    (hchannel : center.frontEnd.getChannel g = some channel) {evbuf : List UInt8}
    {queue : List Packet}
    (hrun : onMessageFrontEnd env.build env.adler32 env.heap overread .centerserver
      (ClientPackets.centerFn env channel) (buf ++ arrived) [] center =
        .ok (evbuf, queue, center')) :
    ∃ ks, center'.frontEnd = center.frontEnd ∧
      center'.sent = center.sent ++ ks.map (fun k => ackOutput g (guestInfo g k)) ∧
      GateInv env g gate center' (evbuf ++ onTheWay)
        (down ++ Sent.wire env.adler32 env.host (acks env g ks)) logins := by
  obtain ⟨fs, hqueued, hup, hcount⟩ := h.up
  rw [← List.append_assoc] at hqueued
  obtain ⟨n, hframes, hqueued'⟩ := hqueued.arrive
  have hservers : (PeerType.centerserver == PeerType.gateserver) = false := by decide
  rw [onMessageFrontEnd, hservers, processMessage_eq env.build env.adler32 env.heap overread _
    (fits_server env.build _), hframes] at hrun
  obtain ⟨_, hfold, hrun⟩ := bind_eq_ok.mp hrun
  cases hrun
  obtain ⟨hfront, ks, hsent, hks⟩ := center_frames h.ready.pos h.ready.lt overread
    (fun f hf => hup f (List.mem_of_mem_take hf)) hcenter hchannel hfold
  -- what the center adds is one answer for each of the requests that it took
  have hanswers : ∀ k, answers center' g (guestInfo g k) =
      answers center g (guestInfo g k) + ks.count k := by
    intro k
    rw [answers, hsent, List.countP_append, countP_ackOutput h.ready.lt]
    rfl
  refine ⟨ks, hfront, hsent, h.ready, ⟨fs.drop n, hqueued', ?_, fun k => ?_⟩, ?_, h.logins⟩
  · exact fun f hf => hup f (List.mem_of_mem_drop hf)
  · have hsplit : asked env (guestInfo g k) fs =
        asked env (guestInfo g k) (fs.take n) + asked env (guestInfo g k) (fs.drop n) := by
      rw [← asked_append, List.take_append_drop]
    have hold := hcount k
    have hanswered := hks k
    rw [hanswers]
    omega
  · obtain ⟨ks₀, hdown, hks₀⟩ := h.down
    refine ⟨ks₀ ++ ks, ?_, fun k => ?_⟩
    · rw [hdown, ← Sent.wire_append, acks, acks, acks, List.map_append]
    · have hold := hks₀ k
      rw [hanswers, List.count_append]
      omega

/-- Something arrives at the gate. -/
theorem GateInv.gateArrive (h : GateInv env g gate center up (buf ++ (arrived ++ onTheWay)) logins)
    (hcompact : Compact env) (overread : Packet → Packet × Bool) {evbuf : List UInt8}
    {queue : List Packet}
    (hrun : onMessageBackEnd env.build env.adler32 env.heap overread (backEndFn env)
      (buf ++ arrived) [] gate = .ok (evbuf, queue, gate')) :
    (gate'.sent.drop gate.sent.length).foldlM (gateWrites env) uplink = .ok uplink ∧
      GateInv env g gate' center up (evbuf ++ onTheWay) logins := by
  obtain ⟨ks, hdown, hks⟩ := h.down
  rw [← List.append_assoc] at hdown
  obtain ⟨n, rest, hrest, -, hprocess⟩ := Cluster.processMessage_wire env.adler32 env.heap env.host
    overread env.build (backEndFn env) (acks_sendable hcompact g ks) hdown gate
  rw [onMessageBackEnd, hprocess, acks, ← List.map_take] at hrun
  obtain ⟨_, hfold, hrun⟩ := bind_eq_ok.mp hrun
  cases hrun
  obtain ⟨ks', hsub, hsends⟩ := gate_acks hcompact hfold
  have hrequests : ∀ guestId, requests gate' guestId = requests gate guestId := by
    intro guestId
    rw [hsends.requests, countP_isRequest_roleListOutput, Nat.add_zero]
  rw [acks, ← List.map_drop] at hrest
  refine ⟨?_, hsends.gateReady h.ready, ?_, ⟨ks.drop n, hrest, fun k => ?_⟩, ?_⟩
  · rw [hsends.drop]
    exact foldlM_gateWrites_roleLists env g ks' uplink
  · simpa only [hrequests] using h.up
  · have hold := hks k
    have hcount := hsub.count_le k
    have hsplit : ks.count k = (ks.take n).count k + (ks.drop n).count k := by
      rw [← List.count_append, List.take_append_drop]
    rw [hsends.roleLists, countP_roleListOutput]
    omega
  · simpa only [hrequests] using h.logins

end GateSteps

/-! ### The steps -/

section Steps

/-- What a client's frame does whose gate handles it and writes to the center. -/
theorem client_eq {env : Env} {overread : Packet → Packet × Bool} {s : State} {g k : UInt16}
    {frame : List UInt8} {gate gate' : GateServer} {front : NetChannel} {guest : Guest}
    {uplink : List UInt8} (hgate : s.gates g = some gate)
    (hfront : gate.frontEnd.getChannel k = some front)
    (hguest : gate.guests front.getPeerInfo = some guest)
    (hat : ClientPackets.atGate env overread front gate frame = .ok gate')
    (hwrites : (gate'.sent.drop gate.sent.length).foldlM (gateWrites env) (s.uplink g) =
      .ok uplink) :
    client env overread s g k frame = .ok { s with
      gates := Function.update s.gates g (some gate')
      uplink := Function.update s.uplink g uplink
      logins := s.logins ++ if isLogin env front guest frame then [(g, k)] else [] } := by
  rw [client, hgate]
  dsimp only
  rw [hfront]
  dsimp only
  rw [hguest]
  dsimp only
  rw [hat, ok_bind, hwrites]
  rfl

section OneFrame

variable {env : Env} {overread : Packet → Packet × Bool} {s : State} {g : UInt16} {n : ℕ}
  {f : List UInt8} {pktS : PacketS} (hframe : IsFrame f)
  (hvalid : (PacketS.ofFrame f).isValid env.adler32 = .ok (pktS, true))

include hframe hvalid

/-- What one frame does at the center. -/
theorem centerArrive_frame (hbuf : s.centerBuf g = []) (hup : (s.uplink g).take n = f)
    {channel : NetChannel} (hchannel : s.center.frontEnd.getChannel g = some channel)
    {center' : CenterServer} (hrun : s.center.forwardPacketOnFrontEnd env channel pktS = .ok center')
    {downlink : UInt16 → List UInt8}
    (hwrites : (center'.sent.drop s.center.sent.length).foldlM (centerWrites env) s.downlink =
      .ok downlink) :
    centerArrive env overread s g n = .ok { s with
      center := center'
      uplink := Function.update s.uplink g ((s.uplink g).drop n)
      downlink := downlink
      centerBuf := Function.update s.centerBuf g [] } := by
  have hservers : (PeerType.centerserver == PeerType.gateserver) = false := by decide
  have haccepted := Packet.accepted_server env.heap overread hvalid
  rw [centerArrive, hchannel]
  dsimp only
  rw [hbuf, hup, List.nil_append, onMessageFrontEnd, hservers,
    processMessage_frame env.build env.adler32 env.heap overread false _ hframe haccepted,
    check_of env.build (by simpa [Packet.extraSize] using hframe.2.1)]
  simp only [ok_bind, ClientPackets.centerFn, hrun, hwrites, pure_eq_ok]

/-- What one frame of the center does at the gate. -/
theorem gateArrive_frame (hbuf : s.gateBuf g = []) (hdown : (s.downlink g).take n = f)
    {gate gate' : GateServer} (hgate : s.gates g = some gate)
    (hrun : gate.forwardPacketOnBackEnd env.build env.host (GateServer.deliverPacket env) pktS =
      .ok gate')
    {uplink : List UInt8}
    (hwrites : (gate'.sent.drop gate.sent.length).foldlM (gateWrites env) (s.uplink g) =
      .ok uplink) :
    gateArrive env overread s g n = .ok { s with
      gates := Function.update s.gates g (some gate')
      uplink := Function.update s.uplink g uplink
      downlink := Function.update s.downlink g ((s.downlink g).drop n)
      gateBuf := Function.update s.gateBuf g [] } := by
  have haccepted := Packet.accepted_server env.heap overread hvalid
  rw [gateArrive, hgate]
  dsimp only
  rw [hbuf, hdown, List.nil_append, onMessageBackEnd,
    processMessage_frame env.build env.adler32 env.heap overread false _ hframe haccepted,
    check_of env.build (by simpa [Packet.extraSize] using hframe.2.1)]
  simp only [ok_bind, backEndFn, hrun, hwrites, pure_eq_ok]

end OneFrame

variable {env : Env} (hcompact : Compact env) (overread : Packet → Packet × Bool) {s s' : State}
  (hinv : Inv env s)

include hcompact hinv

theorem inv_client {g k : UInt16} {frame : List UInt8} (henabled : Enabled env s (.client g k frame))
    (hunforged : Unforged env s (.client g k frame))
    (h : client env overread s g k frame = .ok s') : Inv env s' := by
  obtain ⟨-, hframe, hchecked⟩ := henabled
  rw [client] at h
  split at h
  · cases h
    exact hinv
  next gate hg =>
  split at h
  · cases h
    exact hinv
  next front hfront =>
  split at h
  · cases h
    exact hinv
  next guest hguest =>
  obtain ⟨gate', hgate, h⟩ := bind_eq_ok.mp h
  obtain ⟨uplink, hwrites, h⟩ := bind_eq_ok.mp h
  cases h
  refine ⟨hinv.centerReady, fun g' gate₁ hgate₁ => ?_⟩
  dsimp only at hgate₁ ⊢
  by_cases hg' : g' = g
  · subst hg'
    rw [Function.update_self] at hgate₁ ⊢
    cases hgate₁
    have hown := (hinv.gates g' gate hg).client hcompact overread hfront hguest hframe hchecked
      (hunforged gate front guest hg hfront hguest) hgate hwrites
    refine hown.logins_mono fun k' => ?_
    rw [List.count_append]
    refine Nat.add_le_add_left ?_ _
    split
    · next hlogin =>
      rw [if_pos hlogin.1, hlogin.2, List.count_singleton_self]
    · exact Nat.zero_le _
  · rw [Function.update_of_ne hg'] at hgate₁ ⊢
    refine (hinv.gates g' gate₁ hgate₁).logins_mono fun k' => ?_
    rw [List.count_append]
    exact Nat.le_add_right _ _

theorem inv_centerArrive {g : UInt16} {n : ℕ} (henabled : Enabled env s (.centerArrive g n))
    (h : centerArrive env overread s g n = .ok s') : Inv env s' := by
  obtain ⟨gate, hg⟩ := Option.isSome_iff_exists.mp henabled
  rw [centerArrive] at h
  split at h
  · cases h
    exact hinv
  next channel hchannel =>
  obtain ⟨⟨evbuf, queue, center'⟩, hrun, h⟩ := bind_eq_ok.mp h
  obtain ⟨downlink, hwrites, h⟩ := bind_eq_ok.mp h
  cases h
  have hown := hinv.gates g gate hg
  rw [← List.take_append_drop n (s.uplink g)] at hown
  obtain ⟨ks, hfront, hsent, hown'⟩ := hown.centerArrive overread hinv.centerReady hchannel hrun
  rw [hsent, List.drop_left, foldlM_centerWrites hcompact] at hwrites
  cases hwrites
  refine ⟨?_, fun g' gate' hgate' => ?_⟩
  · dsimp only
    rw [hfront]
    exact hinv.centerReady
  dsimp only at hgate' ⊢
  by_cases hg' : g' = g
  · subst hg'
    cases hg.symm.trans hgate'
    rw [Function.update_self, Function.update_self, Function.update_self, ← List.append_assoc]
    exact hown'
  · rw [Function.update_of_ne hg', Function.update_of_ne hg', Function.update_of_ne hg']
    exact (hinv.gates g' gate' hgate').answer_other hg' hsent

theorem inv_gateArrive {g : UInt16} {n : ℕ} (h : gateArrive env overread s g n = .ok s') :
    Inv env s' := by
  rw [gateArrive] at h
  split at h
  · cases h
    exact hinv
  next gate hg =>
  obtain ⟨⟨evbuf, queue, gate'⟩, hrun, h⟩ := bind_eq_ok.mp h
  obtain ⟨uplink, hwrites, h⟩ := bind_eq_ok.mp h
  cases h
  have hown := hinv.gates g gate hg
  rw [← List.take_append_drop n (s.downlink g)] at hown
  obtain ⟨hsame, hown'⟩ := hown.gateArrive hcompact overread hrun
  cases hsame.symm.trans hwrites
  refine ⟨hinv.centerReady, fun g' gate₁ hgate₁ => ?_⟩
  dsimp only at hgate₁ ⊢
  by_cases hg' : g' = g
  · subst hg'
    rw [Function.update_self] at hgate₁
    cases hgate₁
    rw [Function.update_self, Function.update_self, Function.update_self]
    exact hown'
  · rw [Function.update_of_ne hg'] at hgate₁
    rw [Function.update_of_ne hg', Function.update_of_ne hg', Function.update_of_ne hg']
    exact hinv.gates g' gate₁ hgate₁

/-- Every step keeps the invariant. -/
theorem inv_step {e : Event} (henabled : Enabled env s e) (hunforged : Unforged env s e)
    (h : step env overread s e = .ok s') : Inv env s' := by
  cases e with
  | client g k frame => exact inv_client hcompact overread hinv henabled hunforged h
  | centerArrive g n => exact inv_centerArrive hcompact overread hinv henabled h
  | gateArrive g n => exact inv_gateArrive hcompact overread hinv h

end Steps

/-- It holds at the start. -/
theorem inv_start {gates : UInt16 → Option GateServer} {center : CenterServer} (env : Env)
    (hready : Ready gates center) : Inv env (start gates center) where
  centerReady := hready.centerReady
  gates := by
    intro g gate hgate
    have hanswers := hready.noAnswers g
    have hrequests := hready.noRequests g gate hgate
    have hroleLists := hready.noRoleLists g gate hgate
    refine ⟨hready.gateReady g gate hgate, ⟨[], Splitter.queued_nil, ?_, fun k => ?_⟩, ⟨[], rfl, fun k => ?_⟩,
      fun k => ?_⟩
    · exact fun _ hf => nomatch hf
    · exact ((hanswers _).trans (hrequests _).symm).le
    · exact ((hroleLists k).trans (hanswers _).symm).le
    · exact (hrequests _).le.trans (Nat.zero_le _)

/-- The invariant bounds the counts. -/
theorem Inv.authorised {env : Env} {s : State} (h : Inv env s) : Authorised s := by
  intro g gate hgate k
  obtain ⟨-, ⟨fs, -, -, hup⟩, ⟨ks, -, hdown⟩, hlogins⟩ := h.gates g gate hgate
  exact ⟨(Nat.le_add_right _ _).trans (hdown k), (Nat.le_add_right _ _).trans (hup k), hlogins k⟩

/-- For every interleaving of packets of clients and of arrivals between gates and center in which no
    client pretends to be a server: in every state that is reached, each gate has sent a client no
    more role lists than the center has sent answers with `check_result` ok for its guest, the
    center no more of these than the gate has sent requests for it, and the gate no more of these
    than the client has sent logins. -/
theorem role_lists_authorised (env : Env) (overread : Packet → Packet × Bool)
    (gates : UInt16 → Option GateServer) (center : CenterServer) (hcompact : Compact env)
    (hready : Ready gates center) (es : List Event) (s : State)
    (h : ((system env overread gates center).restrict (Unforged env)).Runs es (.ok s)) :
    Authorised s := by
  have hstep : ∀ (ls : List Event) (s : State) (e : Event) (s' : State), Inv env s →
      Enabled env s e ∧ Unforged env s e → step env overread s e = .ok s' → Inv env s' :=
    fun _ _ _ _ hinv henabled hrun =>
      inv_step hcompact overread hinv henabled.1 henabled.2 hrun
  exact (Run.System.preserves (inv_start env hready) hstep h).authorised

/-! ### A client of a registered gate -/

def oneGate : UInt16 → Option GateServer := fun g => if g = 1 then some ClientPackets.gate else none

/-- The center, with the channel of the gate. -/
def oneChannel : CenterServer :=
  { CenterServer.initNetModule 4 with frontEnd := (NetServer.new 4).onConnect.1 }

/-- A `PktGameLoginReq` of the account `A`. -/
def loginFrame : List UInt8 :=
  [0, 30, 3, 0, 0, 0, 16, 80, 107, 116, 71, 97, 109, 101, 76, 111, 103, 105, 110, 82, 101, 113, 0, 10, 1,
    65, 70, 98, 6, 39]

/-- A `PktEnterPermissionAck` that even refuses the permission. -/
def forgedFrame : List UInt8 :=
  [0, 35, 3, 0, 0, 0, 22, 80, 107, 116, 69, 110, 116, 101, 114, 80, 101, 114, 109, 105, 115, 115, 105, 111,
    110, 65, 99, 107, 0, 8, 1, 119, 69, 8, 133]

theorem compact_shortEnv : Compact shortEnv where
  answer := by decide
  request := by
    intro buffer packetMsg msgSize pkt hparse
    change shortFields .pktGameLoginReq (slice buffer packetMsg msgSize.toNat) = some pkt at hparse
    cases hparse
    have hfields := length_stringFields_le (slice buffer packetMsg msgSize.toNat)
    rw [← List.length_append] at hfields
    refine hfields.trans ?_
    rw [slice]
    exact List.length_take_le ..

theorem ready_oneGate : Ready oneGate oneChannel where
  gateReady := by
    have hnew : GateReady 1 { GuestRouting.registeredGate with frontEnd := .new 4 } :=
      gateReady_of_none ⟨by decide, by decide, _, rfl, rfl⟩ (fun _ => rfl) (fun _ => rfl)
    have hclient : GateReady 1 GuestRouting.gateWithClient :=
      hnew.connect ⟨by decide, by decide, _, rfl, rfl⟩ (fun _ _ h => nomatch h) rfl
    intro g gate hgate
    rw [oneGate] at hgate
    split at hgate
    · next hg =>
      cases hgate
      subst hg
      have hguests : ClientPackets.gate.guests = Function.update GuestRouting.gateWithClient.guests
          (guestInfo 1 1) (some (.new (guestInfo 1 1) 0x02000000)) := rfl
      refine ⟨by decide, by decide, hclient.channels, fun guestId guest hguest => ?_⟩
      rw [hguests] at hguest
      by_cases hid : guestId = guestInfo 1 1
      · subst hid
        rw [Function.update_self] at hguest
        cases hguest
        exact ⟨_, rfl, .inl (by decide)⟩
      · rw [Function.update_of_ne hid] at hguest
        exact hclient.guests guestId guest hguest
    · cases hgate
  centerReady := (centerReady_new 4).connect (NetServer.new_indexed 4)
  noRoleLists := by
    intro g gate hgate k
    rw [oneGate] at hgate
    split at hgate
    · cases hgate
      rfl
    · cases hgate
  noRequests := by
    intro g gate hgate guestId
    rw [oneGate] at hgate
    split at hgate
    · cases hgate
      rfl
    · cases hgate
  noAnswers := fun _ _ => rfl

/-- A frame that the gate of the client takes for itself. -/
theorem step_oneGate (overread : Packet → Packet × Bool) {frame uplink : List UInt8}
    (hframe : IsFrame frame)
    (hvalid : (PacketC.ofClientFrame shortEnv.heap frame).isValid shortEnv.adler32 = .ok true)
    (htype : PeerInfo.getPeerType (clientDest frame) = .gateserver) {gate' : GateServer}
    (hgate : (check shortEnv.build (frame.length + PacketC.exDataSize ≤ maxPacketSize) >>= fun _ =>
      ClientPackets.gatePacket shortEnv GuestRouting.clientChannel (.new (guestInfo 1 1) 0x02000000)
        frame >>= fun packet => ClientPackets.gate.deliverPacket shortEnv packet) = .ok gate')
    (hwrites : gate'.sent.foldlM (gateWrites shortEnv) [] = .ok uplink) :
    client shortEnv overread (start oneGate oneChannel) 1 1 frame = .ok
      { start oneGate oneChannel with
        gates := Function.update oneGate 1 (some gate')
        uplink := Function.update (fun _ => []) 1 uplink
        logins :=
          if isLogin shortEnv GuestRouting.clientChannel (.new (guestInfo 1 1) 0x02000000) frame
            then [(1, 1)] else [] } := by
  have hguest : ClientPackets.gate.guests GuestRouting.clientChannel.getPeerInfo =
      some (.new (guestInfo 1 1) 0x02000000) := rfl
  have hat : ClientPackets.atGate shortEnv overread GuestRouting.clientChannel ClientPackets.gate
      frame = .ok gate' := (ClientPackets.atGate_own overread hframe hvalid hguest htype).trans hgate
  exact @client_eq shortEnv overread (start oneGate oneChannel) 1 1 frame ClientPackets.gate gate'
    GuestRouting.clientChannel _ uplink rfl rfl hguest hat hwrites

/-- The `PktEnterPermissionReq` that the gate makes of the login. -/
def requestFrame : List UInt8 :=
  [0, 42, 0, 36, 3, 1, 0, 1, 22, 80, 107, 116, 69, 110, 116, 101, 114, 80, 101, 114, 109, 105, 115, 115,
    105, 111, 110, 82, 101, 113, 0, 10, 1, 65, 128, 178, 8, 225, 0, 0, 0, 2]

/-- The `PktEnterPermissionAck` that the center answers it with. -/
def answerFrame : List UInt8 :=
  [0, 39, 0, 33, 3, 1, 0, 1, 22, 80, 107, 116, 69, 110, 116, 101, 114, 80, 101, 114, 109, 105, 115, 115,
    105, 111, 110, 65, 99, 107, 0, 102, 60, 8, 124, 1, 0, 1, 3]

/-- What the frames of a login make the two servers do. -/
theorem login_answered : ∃ gate₁ channel pkt₁ center' pkt₂ gate₂,
    (check shortEnv.build (loginFrame.length + PacketC.exDataSize ≤ maxPacketSize) >>= fun _ =>
      ClientPackets.gatePacket shortEnv GuestRouting.clientChannel (.new (guestInfo 1 1) 0x02000000)
        loginFrame >>= fun packet => ClientPackets.gate.deliverPacket shortEnv packet) = .ok gate₁ ∧
    gate₁.sent.foldlM (gateWrites shortEnv) [] = .ok requestFrame ∧
    oneChannel.frontEnd.getChannel 1 = some channel ∧
    (PacketS.ofFrame requestFrame).isValid shortEnv.adler32 = .ok (pkt₁, true) ∧
    oneChannel.forwardPacketOnFrontEnd shortEnv channel pkt₁ = .ok center' ∧
    center'.sent.foldlM (centerWrites shortEnv) (fun _ => []) =
      .ok (Function.update (fun _ => []) 1 answerFrame) ∧
    (PacketS.ofFrame answerFrame).isValid shortEnv.adler32 = .ok (pkt₂, true) ∧
    gate₁.forwardPacketOnBackEnd shortEnv.build shortEnv.host (GateServer.deliverPacket shortEnv)
      pkt₂ = .ok gate₂ ∧
    (gate₂.sent.drop gate₁.sent.length).foldlM (gateWrites shortEnv) [] = .ok [] ∧
    requests gate₂ (guestInfo 1 1) = 1 ∧ answers center' 1 (guestInfo 1 1) = 1 ∧
    roleLists gate₂ 1 = 1 ∧ gate₂.sent.getLast? = some (roleListOutput (guestInfo 1 1)) :=
  ⟨_, _, _, _, _, _, rfl, rfl, rfl, rfl, rfl, rfl, rfl, rfl, rfl, rfl, rfl, rfl, rfl⟩

/-- A client logs in, the center answers its gate, and the gate sends the role list. -/
theorem role_lists_authorised_login : ∃ s gate,
    ((system shortEnv (fun pkt => (pkt, false)) oneGate oneChannel).restrict (Unforged shortEnv)).Runs
      [.client 1 1 loginFrame, .centerArrive 1 42, .gateArrive 1 39] (.ok s) ∧
      s.logins = [(1, 1)] ∧ s.gates 1 = some gate ∧ requests gate (guestInfo 1 1) = 1 ∧
      answers s.center 1 (guestInfo 1 1) = 1 ∧ roleLists gate 1 = 1 ∧
      gate.sent.getLast? = some (roleListOutput (guestInfo 1 1)) ∧ Authorised s := by
  have hframe : IsFrame loginFrame := by decide
  have hvalid : (PacketC.ofClientFrame shortEnv.heap loginFrame).isValid shortEnv.adler32 =
      .ok true := rfl
  have htype : PeerInfo.getPeerType (clientDest loginFrame) = .gateserver := by decide
  have hunforged : Unforged shortEnv (start oneGate oneChannel) (.client 1 1 loginFrame) := by
    intro gate front guest hgate hfront hguest
    cases hgate
    cases hfront
    cases hguest
    intro _
    rw [if_pos htype]
    intro packet hpacket result hholds
    cases hpacket
    exact absurd hholds.1 (by decide)
  obtain ⟨gate₁, channel, pkt₁, center', pkt₂, gate₂, hgate₁, hwrites₁, hchannel, hvalid₁, hcenter,
    hwrites₂, hvalid₂, hgate₂, hwrites₃, hrequests, hanswers, hlists, hlast⟩ := login_answered
  obtain ⟨s₁, hs₁, hg₁, hc₁, hup₁, hdown₁, hcbuf₁, hgbuf₁, hlogins₁⟩ : ∃ s₁,
      client shortEnv (fun pkt => (pkt, false)) (start oneGate oneChannel) 1 1 loginFrame = .ok s₁ ∧
      s₁.gates 1 = some gate₁ ∧ s₁.center = oneChannel ∧ s₁.uplink 1 = requestFrame ∧
      s₁.downlink = (fun _ => []) ∧ s₁.centerBuf 1 = [] ∧ s₁.gateBuf 1 = [] ∧
      s₁.logins = [(1, 1)] :=
    ⟨_, step_oneGate _ hframe hvalid htype hgate₁ hwrites₁, rfl, rfl, rfl, rfl, rfl, rfl, rfl⟩
  obtain ⟨s₂, hs₂, hg₂, hc₂, hup₂, hdown₂, hgbuf₂, hlogins₂⟩ : ∃ s₂,
      centerArrive shortEnv (fun pkt => (pkt, false)) s₁ 1 42 = .ok s₂ ∧ s₂.gates 1 = some gate₁ ∧
      s₂.center = center' ∧ s₂.uplink 1 = [] ∧ s₂.downlink 1 = answerFrame ∧ s₂.gateBuf 1 = [] ∧
      s₂.logins = [(1, 1)] := by
    have htake : (s₁.uplink 1).take 42 = requestFrame := congrArg (List.take 42) hup₁
    have hdrop : (s₁.uplink 1).drop 42 = [] := congrArg (List.drop 42) hup₁
    have hwrites : (center'.sent.drop s₁.center.sent.length).foldlM (centerWrites shortEnv)
        s₁.downlink = .ok (Function.update (fun _ => []) 1 answerFrame) := by
      rw [hc₁, hdown₁]
      exact hwrites₂
    exact ⟨_, centerArrive_frame (by decide) hvalid₁ hcbuf₁ htake (hc₁ ▸ hchannel) (hc₁ ▸ hcenter)
      hwrites, hg₁, rfl, hdrop, rfl, hgbuf₁, hlogins₁⟩
  obtain ⟨s₃, hs₃, hg₃, hc₃, hlogins₃⟩ : ∃ s₃,
      gateArrive shortEnv (fun pkt => (pkt, false)) s₂ 1 39 = .ok s₃ ∧ s₃.gates 1 = some gate₂ ∧
      s₃.center = center' ∧ s₃.logins = [(1, 1)] := by
    have htake : (s₂.downlink 1).take 39 = answerFrame := congrArg (List.take 39) hdown₂
    exact ⟨_, gateArrive_frame (by decide) hvalid₂ hgbuf₂ htake hg₂ hgate₂ (hup₂.symm ▸ hwrites₃), rfl,
      hc₂, hlogins₂⟩
  have hrun₀ := Run.System.Runs.nil
    (S := (system shortEnv (fun pkt => (pkt, false)) oneGate oneChannel).restrict (Unforged shortEnv))
  have hrun₁ := hrun₀.next (.client 1 1 loginFrame) ⟨⟨rfl, hframe, true, hvalid⟩, hunforged⟩ hs₁
  have hrun₂ := hrun₁.next (.centerArrive 1 42)
    ⟨Option.isSome_iff_exists.mpr ⟨_, hg₁⟩, trivial⟩ hs₂
  have hruns := hrun₂.next (.gateArrive 1 39)
    ⟨Option.isSome_iff_exists.mpr ⟨_, hg₂⟩, trivial⟩ hs₃
  exact ⟨s₃, gate₂, hruns, hlogins₃, hg₃, hrequests, hc₃ ▸ hanswers, hlists, hlast,
    role_lists_authorised shortEnv _ oneGate oneChannel compact_shortEnv ready_oneGate _ s₃ hruns⟩

/-- A client sends the answer of the center itself, and the gate takes it for one. -/
theorem not_authorised_forgedAck : Compact shortEnv ∧ Ready oneGate oneChannel ∧ ∃ s,
    (system shortEnv (fun pkt => (pkt, false)) oneGate oneChannel).Runs [.client 1 1 forgedFrame] (.ok s) ∧
      ¬ Authorised s := by
  have hframe : IsFrame forgedFrame := by decide
  have hvalid : (PacketC.ofClientFrame shortEnv.heap forgedFrame).isValid shortEnv.adler32 =
      .ok true := rfl
  obtain ⟨gate', hgate, hwrites, hlists⟩ : ∃ gate',
      (check shortEnv.build (forgedFrame.length + PacketC.exDataSize ≤ maxPacketSize) >>= fun _ =>
        ClientPackets.gatePacket shortEnv GuestRouting.clientChannel (.new (guestInfo 1 1) 0x02000000)
          forgedFrame >>= fun packet => ClientPackets.gate.deliverPacket shortEnv packet) = .ok gate' ∧
      gate'.sent.foldlM (gateWrites shortEnv) [] = .ok [] ∧ roleLists gate' 1 = 1 :=
    ⟨_, rfl, rfl, rfl⟩
  have hs := step_oneGate (fun pkt => (pkt, false)) hframe hvalid rfl hgate hwrites
  have hruns : (system shortEnv (fun pkt => (pkt, false)) oneGate oneChannel).Runs
      ([] ++ [.client 1 1 forgedFrame]) (client shortEnv (fun pkt => (pkt, false))
        (start oneGate oneChannel) 1 1 forgedFrame) :=
    Run.System.Runs.concat .nil ⟨rfl, hframe, true, hvalid⟩
  rw [hs] at hruns
  refine ⟨compact_shortEnv, ready_oneGate, _, hruns, fun hauthorised => ?_⟩
  have hle := (hauthorised 1 gate' rfl 1).1
  rw [hlists] at hle
  change 1 ≤ answers oneChannel 1 (guestInfo 1 1) at hle
  exact absurd hle (by decide)

end Login

end TerraX
