import TerraX.Cluster.ClientLoginPackets
import TerraX.Lib.Stream

/-!
# What one arrival of a login does

Several packets of a login arrive at once, and the rest of their stream is still on the way. The
receiver handles the complete ones one by one; what it writes for them goes to the streams behind it.

## Main results

- `ClientLogin.front_arrival`, `ClientLogin.center_arrival`, `ClientLogin.gate_arrival` — an arrival at
  a server
- `ClientLogin.gateWrites_asks`, `ClientLogin.gateWrites_roleLists`, `ClientLogin.centerWrites_answers`
  — what this adds to the streams
-/

namespace TerraX

open Bytes Memory Framing

namespace ClientLogin

section Arrivals

variable {env : Env} (overread : Packet → Packet × Bool) {g k : UInt16} {gate : GateServer}

/-! ### Logins at the gate -/

/-- Several logins of a client. -/
theorem front_batch (hup : GateUp g gate) {front : NetChannel}
    (hfront : gate.frontEnd.getChannel k = some front) {guest : LocalGuest} (hfits : Fits env guest)
    (items : List Unit) :
    ∃ gate', (((items.map fun _ => ClientProgram.loginFrame env guest).map
        (Packet.ofFrame env.heap true)).filterMap (Packet.accepted env.adler32 overread)).foldlM
          (ClientPackets.gateFn env front) gate = .ok gate' ∧
      Wrote gate gate'
        (items.map fun _ => askOutput (ServerManager.getCenterPeerInfo gate.infos) g k guest) := by
  obtain ⟨-, -, hvalid⟩ := loginFrame_accepted hfits
  induction items generalizing gate with
  | nil => exact ⟨gate, rfl, .refl gate⟩
  | cons item items ih =>
    obtain ⟨gate₁, hfirst, hwrote⟩ := gate_login hup hfront hfits
    have hfront₁ : gate₁.frontEnd.getChannel k = some front := by
      rw [hwrote.frontEnd]
      exact hfront
    obtain ⟨gate', hrest, hwrote'⟩ := ih (hup.wrote hwrote) hfront₁
    rw [hwrote.infos] at hwrote'
    refine ⟨gate', ?_, hwrote.trans hwrote'⟩
    rw [List.map_cons, List.map_cons,
      List.filterMap_cons_some (Packet.accepted_client env.heap overread hvalid), List.foldlM_cons,
      hfirst, ok_bind]
    exact hrest

/-- An arrival at the gate, of some of the logins of a client that are on their way. -/
theorem front_arrival (hup : GateUp g gate) {front : NetChannel}
    (hfront : gate.frontEnd.getChannel k = some front) {guest : LocalGuest} (hfits : Fits env guest)
    {items : List Unit} {buf stream : List UInt8}
    (h : packetSplitter.Carries (fun _ => ClientProgram.loginFrame env guest) items buf stream)
    (n : ℕ) :
    ∃ j rest gate', onMessageFrontEnd env.build env.adler32 env.heap overread .gateserver
        (ClientPackets.gateFn env front) (buf ++ stream.take n) [] gate = .ok (rest, [], gate') ∧
      Wrote gate gate' ((items.take j).map fun _ =>
        askOutput (ServerManager.getCenterPeerInfo gate.infos) g k guest) ∧
      packetSplitter.Carries (fun _ => ClientProgram.loginFrame env guest) (items.drop j) rest
        (stream.drop n) := by
  obtain ⟨j, hframes, hcarries⟩ := h.arrive n
  obtain ⟨gate', hbatch, hwrote⟩ := front_batch overread hup hfront hfits (items.take j)
  obtain ⟨-, hlen, -⟩ := loginFrame_accepted hfits
  have hroom : TerraX.Fits env.build true (buf ++ stream.take n) := by
    intro _ f hf
    rw [hframes] at hf
    obtain ⟨_, -, rfl⟩ := List.mem_map.mp hf
    exact hlen
  refine ⟨j, _, gate', ?_, hwrote, hcarries⟩
  rw [onMessageFrontEnd, beq_self_eq_true, processMessage_eq env.build env.adler32 env.heap overread _
    hroom, hframes, hbatch]
  rfl

/-! ### Requests at the center -/

/-- Several requests of a gate. -/
theorem center_batch {center : CenterServer} (hready : Login.CenterReady center.frontEnd)
    (hconn : center.frontEnd.connected g = true) {channel : NetChannel}
    (hchannel : center.frontEnd.getChannel g = some channel) {centerInfo : Word}
    (hcenter : PeerInfo.getPeerType centerInfo = .centerserver) (guestOf : Key → LocalGuest)
    {ks : List UInt16} (hfits : ∀ k ∈ ks, Fits env (guestOf (g, k))) :
    ((ks.map fun k => askSent env centerInfo g k (guestOf (g, k))).map
        (Cluster.packetOf env.adler32 env.host)).foldlM (ClientPackets.centerFn env channel) center =
      .ok { center with
        sent := center.sent ++ ks.map fun k => Login.ackOutput g (guestInfo g k) } := by
  induction ks generalizing center with
  | nil =>
    rw [List.map_nil, List.map_nil, List.map_nil, List.append_nil]
    rfl
  | cons k ks ih =>
    obtain ⟨hk, hks⟩ := List.forall_mem_cons.mp hfits
    have hrest := @ih { center with sent := center.sent ++ [Login.ackOutput g (guestInfo g k)] }
      hready hconn hchannel hks
    rw [List.map_cons, List.map_cons, List.foldlM_cons,
      center_ask hready hconn hchannel hcenter hk, ok_bind, hrest]
    simp

/-- An arrival at the center, of some of the requests that are on their way. -/
theorem center_arrival {center : CenterServer} (hready : Login.CenterReady center.frontEnd)
    (hconn : center.frontEnd.connected g = true) {channel : NetChannel}
    (hchannel : center.frontEnd.getChannel g = some channel) {centerInfo : Word}
    (hcenter : PeerInfo.getPeerType centerInfo = .centerserver) (guestOf : Key → LocalGuest)
    {ks : List UInt16} (hfits : ∀ k ∈ ks, Fits env (guestOf (g, k))) {buf stream : List UInt8}
    (h : packetSplitter.Carries (fun k => (askSent env centerInfo g k (guestOf (g, k))).frame
      env.adler32 env.host) ks buf stream) (n : ℕ) :
    ∃ j rest, onMessageFrontEnd env.build env.adler32 env.heap overread .centerserver
        (ClientPackets.centerFn env channel) (buf ++ stream.take n) [] center =
          .ok (rest, [], { center with
            sent := center.sent ++ (ks.take j).map fun k => Login.ackOutput g (guestInfo g k) }) ∧
      packetSplitter.Carries (fun k => (askSent env centerInfo g k (guestOf (g, k))).frame
        env.adler32 env.host) (ks.drop j) rest (stream.drop n) := by
  obtain ⟨j, hframes, hcarries⟩ := h.arrive n
  have hsendable : ∀ s ∈ (ks.take j).map fun k => askSent env centerInfo g k (guestOf (g, k)),
      s.Sendable := by
    intro s hs
    obtain ⟨k, hk, rfl⟩ := List.mem_map.mp hs
    exact askSent_sendable (hfits k (List.mem_of_mem_take hk))
  have haccepted := Cluster.accepted_frames env.adler32 env.heap env.host overread hsendable
  have hbatch := center_batch hready hconn hchannel hcenter guestOf
    fun k hk => hfits k (List.mem_of_mem_take (i := j) hk)
  have hserver : (PeerType.centerserver == PeerType.gateserver) = false := by decide
  have hmap : (ks.take j).map (fun k => (askSent env centerInfo g k (guestOf (g, k))).frame
      env.adler32 env.host) = ((ks.take j).map fun k => askSent env centerInfo g k
        (guestOf (g, k))).map (Sent.frame env.adler32 env.host) := by
    rw [List.map_map]
    rfl
  refine ⟨j, _, ?_, hcarries⟩
  rw [onMessageFrontEnd, hserver, processMessage_eq env.build env.adler32 env.heap overread _
    (fits_server env.build _), hframes, hmap, haccepted, hbatch]
  rfl

/-! ### Answers at the gate -/

variable (hund : Understood env)

include hund

/-- Several answers for clients of a gate. -/
theorem gate_batch (hup : GateUp g gate) {ks : List UInt16}
    (hks : ∀ k ∈ ks, (gate.frontEnd.getChannel k).isSome) :
    ∃ gate', ((ks.map fun k => Login.ackSent env (guestInfo g k)).map
        (Cluster.packetOf env.adler32 env.host)).foldlM (Login.backEndFn env) gate = .ok gate' ∧
      Wrote gate gate' (ks.map fun k => Login.roleListOutput (guestInfo g k)) := by
  induction ks generalizing gate with
  | nil => exact ⟨gate, rfl, .refl gate⟩
  | cons k ks ih =>
    obtain ⟨hk, hks⟩ := List.forall_mem_cons.mp hks
    obtain ⟨front, hfront⟩ := Option.isSome_iff_exists.mp hk
    obtain ⟨gate₁, hfirst, hwrote⟩ := gate_answer hund hup hfront
    obtain ⟨gate', hrest, hwrote'⟩ := ih (hup.wrote hwrote) (by rwa [hwrote.frontEnd])
    refine ⟨gate', ?_, hwrote.trans hwrote'⟩
    rw [List.map_cons, List.map_cons, List.foldlM_cons, hfirst, ok_bind]
    exact hrest

/-- An arrival at the gate, of some of the answers that are on their way. -/
theorem gate_arrival (hup : GateUp g gate) {ks : List UInt16}
    (hks : ∀ k ∈ ks, (gate.frontEnd.getChannel k).isSome) {buf stream : List UInt8}
    (h : packetSplitter.Carries (fun k => (Login.ackSent env (guestInfo g k)).frame env.adler32
      env.host) ks buf stream) (n : ℕ) :
    ∃ j rest gate', onMessageBackEnd env.build env.adler32 env.heap overread (Login.backEndFn env)
        (buf ++ stream.take n) [] gate = .ok (rest, [], gate') ∧
      Wrote gate gate' ((ks.take j).map fun k => Login.roleListOutput (guestInfo g k)) ∧
      packetSplitter.Carries (fun k => (Login.ackSent env (guestInfo g k)).frame env.adler32
        env.host) (ks.drop j) rest (stream.drop n) := by
  obtain ⟨j, hframes, hcarries⟩ := h.arrive n
  have hsendable : ∀ s ∈ (ks.take j).map fun k => Login.ackSent env (guestInfo g k),
      s.Sendable := by
    intro s hs
    obtain ⟨k, -, rfl⟩ := List.mem_map.mp hs
    exact ackSent_sendable hund _
  have haccepted := Cluster.accepted_frames env.adler32 env.heap env.host overread hsendable
  obtain ⟨gate', hbatch, hwrote⟩ := gate_batch hund hup
    fun k hk => hks k (List.mem_of_mem_take (i := j) hk)
  have hmap : (ks.take j).map (fun k => (Login.ackSent env (guestInfo g k)).frame env.adler32
      env.host) = ((ks.take j).map fun k => Login.ackSent env (guestInfo g k)).map
        (Sent.frame env.adler32 env.host) := by
    rw [List.map_map]
    rfl
  refine ⟨j, _, gate', ?_, hwrote, hcarries⟩
  rw [onMessageBackEnd, processMessage_eq env.build env.adler32 env.heap overread _
    (fits_server env.build _), hframes, hmap, haccepted, hbatch]
  rfl

end Arrivals

/-! ### What is written -/

section Writes

variable {env : Env} (g : UInt16)

/-- The requests of a gate go to the center. -/
theorem gateWrites_asks (centerInfo : Word) {k : UInt16} (guestOf : Key → LocalGuest)
    (hfits : Fits env (guestOf (g, k))) (items : List Unit) (links : GateLinks) :
    (items.map fun _ => askOutput centerInfo g k (guestOf (g, k))).foldlM (gateWrites env g) links =
      .ok (links.1 ++ ((items.map fun _ => k).map fun k =>
        (askSent env centerInfo g k (guestOf (g, k))).frame env.adler32 env.host).flatten,
          links.2) := by
  have hbytes : bytesOf env (askOutput centerInfo g k (guestOf (g, k))) =
      .ok ((askSent env centerInfo g k (guestOf (g, k))).frame env.adler32 env.host) :=
    bind_eq_ok.mpr ⟨_, (askSent_sendable hfits).send_frame env.build env.adler32 env.heap env.host, rfl⟩
  have hone : ∀ links : GateLinks,
      gateWrites env g links (askOutput centerInfo g k (guestOf (g, k))) =
        .ok (links.1 ++ (askSent env centerInfo g k (guestOf (g, k))).frame env.adler32 env.host,
          links.2) := fun links => bind_eq_ok.mpr ⟨_, hbytes, rfl⟩
  induction items generalizing links with
  | nil => simp
  | cons item items ih =>
    rw [List.map_cons, List.foldlM_cons, hone, ok_bind, ih]
    simp

/-- The role lists go to the clients, each to its own. -/
theorem gateWrites_roleLists (hund : Understood env) (ks : List UInt16) (links : GateLinks) :
    ∃ clientDown, (ks.map fun k => Login.roleListOutput (guestInfo g k)).foldlM (gateWrites env g)
        links = .ok (links.1, clientDown) ∧
      (∀ k, clientDown (g, k) = links.2 (g, k) ++ ((List.replicate (ks.count k) ()).map fun _ =>
        ClientProgram.roleListFrame env (guestInfo g k) roles).flatten) ∧
      ∀ key : Key, key.1 ≠ g → clientDown key = links.2 key := by
  have hone : ∀ (links : GateLinks) (k : UInt16),
      gateWrites env g links (Login.roleListOutput (guestInfo g k)) =
        .ok (links.1, Function.update links.2 (g, k)
          (links.2 (g, k) ++ ClientProgram.roleListFrame env (guestInfo g k) roles)) := by
    intro links k
    have hbytes : bytesOf env (Login.roleListOutput (guestInfo g k)) =
        .ok (ClientProgram.roleListFrame env (guestInfo g k) roles) :=
      sendPacket2Client_eq (name_length_le env ⟨.pktRoleListAck, roles⟩) hund.roleListFits env.build
        env.adler32 env.heap (guestInfo g k)
    have hindex : PeerInfo.getChannelIndex (guestInfo g k) = k := PeerInfo.getChannelIndex_serialize _
    rw [gateWrites, hbytes, ok_bind]
    simp only [Login.channelOf, Login.roleListOutput, hindex, pure_eq_ok]
  induction ks generalizing links with
  | nil => exact ⟨links.2, rfl, fun k => (List.append_nil _).symm, fun _ _ => rfl⟩
  | cons k ks ih =>
    obtain ⟨clientDown, hrest, hown, hother⟩ := ih (links.1, Function.update links.2 (g, k)
      (links.2 (g, k) ++ ClientProgram.roleListFrame env (guestInfo g k) roles))
    refine ⟨clientDown, ?_, fun k' => ?_, fun key hkey => ?_⟩
    · rw [List.map_cons, List.foldlM_cons, hone, ok_bind, hrest]
    · rw [hown k']
      dsimp only
      by_cases hk : k' = k
      · subst hk
        rw [Function.update_self, List.count_cons_self, List.replicate_succ, List.map_cons,
          List.flatten_cons, List.append_assoc]
      · have hne : (g, k') ≠ (g, k) := fun heq => hk (Prod.mk.inj heq).2
        rw [Function.update_of_ne hne, List.count_cons_of_ne (Ne.symm hk)]
    · rw [hother key hkey]
      exact Function.update_of_ne (fun heq => hkey (congrArg Prod.fst heq)) ..

/-- The answers go to the gate. -/
theorem centerWrites_answers (hund : Understood env) (ks : List UInt16)
    (downlink : UInt16 → List UInt8) :
    (ks.map fun k => Login.ackOutput g (guestInfo g k)).foldlM (Login.centerWrites env) downlink =
      .ok (Function.update downlink g (downlink g ++ (ks.map fun k =>
        (Login.ackSent env (guestInfo g k)).frame env.adler32 env.host).flatten)) := by
  have hone : ∀ (downlink : UInt16 → List UInt8) (k : UInt16),
      Login.centerWrites env downlink (Login.ackOutput g (guestInfo g k)) =
        .ok (Function.update downlink g (downlink g ++
          (Login.ackSent env (guestInfo g k)).frame env.adler32 env.host)) := by
    intro downlink k
    have hbytes : Login.bytesOf env (Login.ackOutput g (guestInfo g k)) =
        .ok ((Login.ackSent env (guestInfo g k)).frame env.adler32 env.host) :=
      bind_eq_ok.mpr ⟨_, (ackSent_sendable hund (guestInfo g k)).send_frame env.build env.adler32
        env.heap env.host, rfl⟩
    exact bind_eq_ok.mpr ⟨_, hbytes, rfl⟩
  induction ks generalizing downlink with
  | nil => simp
  | cons k ks ih =>
    rw [List.map_cons, List.foldlM_cons, hone, ok_bind, ih, Function.update_self,
      Function.update_idem, List.map_cons, List.flatten_cons, List.append_assoc]

end Writes

end ClientLogin

end TerraX
