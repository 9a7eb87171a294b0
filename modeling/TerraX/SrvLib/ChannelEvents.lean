import TerraX.Client.UnreadBytes
import TerraX.SrvLib.NetEvents

/-!
# Channels that are closed

`NetChannel.cpp` as the event loop drives it, and `NetServer::CloseAll`. A channel is closed in
two steps: `ForceClose` stops its reading, and when the loop finds its socket writable and no output is
left, `OnWrite` reports it as disconnected, but only if nothing of its input is unread. Nobody drains
that input any more, so a channel whose peer has sent a part of a frame is never reported. The loop
waits for the socket while there is output, and once after the connection was accepted.

## Main definitions

- `EventChannel` — a `NetChannel` with its `bufferevent`, and the member functions that the loop calls
- `EventServer`, with `onConnect` and `closeAll` — the channels of a `NetServer`
- `EventServer.system` — connections, what happens on the channels, and `CloseAll`

## Main results

- `EventChannel.failed_stays_failed` — what becomes of a connection that has failed
- `EventServer.input_eq` — what a channel has not read yet
- `EventServer.closeAll_reported` — which channels are reported as disconnected after `CloseAll`
-/

namespace TerraX

open Bytes Memory Framing

/-- The `bufferevent` of a channel: whether it reads, whether the loop waits until its socket is
    writable, and the bytes in its two buffers. -/
structure Bufferevent where
  reading : Bool := false
  writing : Bool := false
  input : List UInt8 := []
  output : List UInt8 := []
deriving DecidableEq, Repr

/-- `NetChannel` with its `bufferevent`, and what it has reported through `m_NetEventCB`. -/
structure EventChannel where
  channel : NetChannel
  connectFailed : Bool := false
  evConn : Bufferevent := {}
  reported : List NetEvent := []
deriving DecidableEq, Repr

/-- What the event loop tells a channel, and what the program does with it: bytes have arrived, the
    socket was writable and took some of the output, the flags of an event, `SendMsg`, and
    `ForceClose`. -/
inductive ChannelEvent
  | read (bytes : List UInt8)
  | written (n : ℕ)
  | event (connected eof error : Bool)
  | sendMsg (buf : List UInt8)
  | forceClose

namespace EventChannel

/-- The constructor for a connection that the listener has accepted. -/
def ofSocket : EventChannel where
  channel := { connState := .connected }
  evConn := { reading := true, writing := true }

/-- The constructor for a connection that is being made. Until it is there, the loop tells of its socket
    by the flags of an event. -/
def ofHost : EventChannel where
  channel := { connState := .connecting }

/-- `NetChannel::SetConnState`. -/
def setConnState (ch : EventChannel) (connState : ConnState) : EventChannel :=
  { ch with channel := { ch.channel with connState } }

/-- A call of `m_NetEventCB`. -/
def report (ch : EventChannel) (event : NetEvent) : EventChannel :=
  { ch with reported := ch.reported ++ [event] }

/-- `bufferevent_enable` and `bufferevent_disable`, for reading. -/
def setReading (ch : EventChannel) (reading : Bool) : EventChannel :=
  { ch with evConn := { ch.evConn with reading } }

/-- `NetChannel::ConnectError`. -/
def connectError (ch : EventChannel) : EventChannel :=
  ({ ch with connectFailed := true }.setConnState .disconnected).report .connectFailed

/-- `NetChannel::Connected`. The loop goes on from the same writable socket, so that it waits for it
    again only if there is output. -/
def connected (ch : EventChannel) : EventChannel :=
  if ch.connectFailed then ch
  else ((ch.setConnState .connected).setReading true).report .connected

/-- `NetChannel::Disconnected`. -/
def disconnected (ch : EventChannel) : EventChannel :=
  (ch.setConnState .disconnected).report .disconnected

/-- `NetChannel::ForceClose`. -/
def forceClose (ch : EventChannel) : EventChannel :=
  (ch.setReading false).setConnState .disconnecting

/-- `NetChannel::OnRead`: what `ReadMessage` leaves in the buffer. The loop over its queue leaves the
    buffer alone. -/
def onRead (build : Build) (heap : ℕ → UInt8) (fromClient : Bool) (ch : EventChannel) :
    Except Fault EventChannel := do
  let (input, _, _) ← readMessage build heap fromClient ch.evConn.input []
  return { ch with evConn := { ch.evConn with input } }

/-- `NetChannel::OnWrite`. -/
def onWrite (ch : EventChannel) : EventChannel :=
  if ch.channel.connState = .disconnecting then
    if ch.evConn.input.length ≤ 0 then ch.disconnected else ch
  else ch

/-- `NetChannel::EventCallback`. -/
def eventCallback (ch : EventChannel) (connected eof error : Bool) : EventChannel :=
  if connected then ch.connected
  else if eof then ch.disconnected
  else if error then ch.connectError
  else ch

/-- `NetChannel::SendMsg`. From now on the loop waits for the socket, unless nothing was added. -/
def sendMsg (ch : EventChannel) (buf : List UInt8) : EventChannel :=
  if ch.channel.sendMsg then
    { ch with evConn := { ch.evConn with
      writing := ch.evConn.writing || !buf.isEmpty
      output := ch.evConn.output ++ buf } }
  else ch

/-- The socket has taken the first `n` bytes of the output: the loop waits for it as long as there are
    more. -/
def taken (ch : EventChannel) (n : ℕ) : EventChannel :=
  { ch with evConn := { ch.evConn with
    writing := !(ch.evConn.output.drop n).isEmpty
    output := ch.evConn.output.drop n } }

/-- Bytes arrive only at a channel that reads. A socket that the loop waits for takes some of the
    output if there is any. -/
def enabled (ch : EventChannel) : ChannelEvent → Prop
  | .read _ => ch.evConn.reading
  | .written n => ch.evConn.writing = true ∧ n ≤ ch.evConn.output.length ∧
      (ch.evConn.output ≠ [] → 0 < n)
  | _ => True

/-- The write callback is called when the socket was writable and there is no output any more, also if
    there was none: its low-water mark is 0. -/
def step (build : Build) (heap : ℕ → UInt8) (fromClient : Bool) (ch : EventChannel) :
    ChannelEvent → Except Fault EventChannel
  | .read bytes =>
    onRead build heap fromClient
      { ch with evConn := { ch.evConn with input := ch.evConn.input ++ bytes } }
  | .written n =>
    let ch := ch.taken n
    .ok (if ch.evConn.output = [] then ch.onWrite else ch)
  | .event connected eof error => .ok (ch.eventCallback connected eof error)
  | .sendMsg buf => .ok (ch.sendMsg buf)
  | .forceClose => .ok ch.forceClose

/-! ### What an event does to the buffers -/

section Step

variable {build : Build} {heap : ℕ → UInt8} {fromClient : Bool} {ch ch' : EventChannel}

/-- What has been read and is no frame stays unread. -/
theorem input_of_read {bytes : List UInt8}
    (h : ch.step build heap fromClient (.read bytes) = .ok ch') :
    ch'.evConn.input = packetSplitter.rest (ch.evConn.input ++ bytes) := by
  simp only [step, onRead] at h
  by_cases hfits : Fits build fromClient (ch.evConn.input ++ bytes)
  · rw [readMessage_eq build heap fromClient hfits] at h
    cases h
    rfl
  · rw [readMessage_assertFailed build heap fromClient hfits] at h
    cases h

/-- The other events leave the input alone. -/
theorem input_of_ne_read {e : ChannelEvent} (he : ∀ bytes, e ≠ .read bytes)
    (h : ch.step build heap fromClient e = .ok ch') : ch'.evConn.input = ch.evConn.input := by
  cases e with
  | read bytes => exact absurd rfl (he bytes)
  | written n =>
    simp only [step, onWrite, disconnected] at h
    cases h
    repeat' split
    all_goals rfl
  | event connected eof error =>
    cases h
    simp only [eventCallback, EventChannel.connected]
    repeat' split
    all_goals rfl
  | sendMsg buf =>
    cases h
    rw [sendMsg]
    split <;> rfl
  | forceClose =>
    cases h
    rfl

/-- The loop waits for the socket only to write output. -/
def OnlyOutput (ch : EventChannel) : Prop := ch.evConn.writing = true → ch.evConn.output ≠ []

theorem OnlyOutput.onWrite (h : ch.OnlyOutput) : ch.onWrite.OnlyOutput := by
  rw [EventChannel.onWrite]
  repeat' split
  all_goals exact h

/-- So it does after the socket was found writable. -/
theorem onlyOutput_of_written {n : ℕ} (h : ch.step build heap fromClient (.written n) = .ok ch') :
    ch'.OnlyOutput := by
  have htaken : (ch.taken n).OnlyOutput := by
    intro hwriting hnil
    change ch.evConn.output.drop n = [] at hnil
    rw [taken, hnil] at hwriting
    cases hwriting
  cases h
  split
  · exact htaken.onWrite
  · exact htaken

/-- And then it goes on so. -/
theorem OnlyOutput.step (h : ch.OnlyOutput) {e : ChannelEvent}
    (hstep : ch.step build heap fromClient e = .ok ch') : ch'.OnlyOutput := by
  cases e with
  | read bytes =>
    obtain ⟨_, -, hstep⟩ := bind_eq_ok.mp hstep
    cases hstep
    exact h
  | written n => exact onlyOutput_of_written hstep
  | event connected eof error =>
    cases hstep
    simp only [eventCallback, EventChannel.connected]
    repeat' split
    all_goals exact h
  | sendMsg buf =>
    cases hstep
    rw [EventChannel.sendMsg]
    split
    · intro hwriting hnil
      obtain ⟨houtput, hbuf⟩ := List.append_eq_nil_iff.mp hnil
      rw [hbuf, List.isEmpty_nil, Bool.not_true, Bool.or_false] at hwriting
      exact h hwriting houtput
    · exact h
  | forceClose =>
    cases hstep
    exact h

end Step

/-! ### A connection that has failed -/

/-- The runs of one channel. -/
def system (build : Build) (heap : ℕ → UInt8) (fromClient : Bool) (ch : EventChannel) :
    Run.System EventChannel ChannelEvent Fault where
  init := ch
  enabled := enabled
  step := step build heap fromClient

/-- The channel has failed, and since it was `ch` it has neither been connected nor sent anything. -/
structure FailedSince (ch ch' : EventChannel) : Prop where
  connectFailed : ch'.connectFailed = true
  connState : ch'.channel.connState ≠ .connected
  output : ch'.evConn.output <:+ ch.evConn.output
  reported : ∃ later, ch'.reported = ch.reported ++ later ∧ .connected ∉ later

section Failed

variable {build : Build} {heap : ℕ → UInt8} {fromClient : Bool} {ch ch' ch'' : EventChannel}

theorem FailedSince.setConnState (h : FailedSince ch ch') {connState : ConnState}
    (hne : connState ≠ .connected) : FailedSince ch (ch'.setConnState connState) :=
  ⟨h.connectFailed, hne, h.output, h.reported⟩

theorem FailedSince.report (h : FailedSince ch ch') {event : NetEvent} (hne : event ≠ .connected) :
    FailedSince ch (ch'.report event) := by
  obtain ⟨later, hlater, hno⟩ := h.reported
  refine ⟨h.connectFailed, h.connState, h.output, later ++ [event], ?_, ?_⟩
  · rw [EventChannel.report, hlater, List.append_assoc]
  · rw [List.mem_append, List.mem_singleton]
    rintro (hmem | rfl)
    · exact hno hmem
    · exact hne rfl

theorem FailedSince.disconnected (h : FailedSince ch ch') : FailedSince ch ch'.disconnected :=
  (h.setConnState (by decide)).report (by decide)

theorem FailedSince.onWrite (h : FailedSince ch ch') : FailedSince ch ch'.onWrite := by
  unfold EventChannel.onWrite
  split
  · split
    · exact h.disconnected
    · exact h
  · exact h

theorem FailedSince.eventCallback (h : FailedSince ch ch') (connected eof error : Bool) :
    FailedSince ch (ch'.eventCallback connected eof error) := by
  unfold EventChannel.eventCallback
  split
  · rw [EventChannel.connected, if_pos h.connectFailed]
    exact h
  · split
    · exact h.disconnected
    · split
      · have hfailed : FailedSince ch { ch' with connectFailed := true } :=
          ⟨rfl, h.connState, h.output, h.reported⟩
        exact (hfailed.setConnState (by decide)).report (by decide)
      · exact h

theorem FailedSince.step (h : FailedSince ch ch') {e : ChannelEvent}
    (hstep : ch'.step build heap fromClient e = .ok ch'') : FailedSince ch ch'' := by
  cases e with
  | read bytes =>
    obtain ⟨_, -, hstep⟩ := bind_eq_ok.mp hstep
    cases hstep
    exact ⟨h.connectFailed, h.connState, h.output, h.reported⟩
  | written n =>
    have hdrop : FailedSince ch (ch'.taken n) :=
      ⟨h.connectFailed, h.connState, (List.drop_suffix n _).trans h.output, h.reported⟩
    cases hstep
    split
    · exact hdrop.onWrite
    · exact hdrop
  | event connected eof error =>
    cases hstep
    exact h.eventCallback connected eof error
  | sendMsg buf =>
    cases hstep
    have hclosed : ¬ ch'.channel.sendMsg = true := by
      rw [NetChannel.sendMsg, beq_iff_eq]
      exact h.connState
    rw [EventChannel.sendMsg, if_neg hclosed]
    exact h
  | forceClose =>
    cases hstep
    have hstopped : FailedSince ch (ch'.setReading false) :=
      ⟨h.connectFailed, h.connState, h.output, h.reported⟩
    exact hstopped.setConnState (by decide)

/-- A connection that has failed stays failed, whatever the event loop tells afterwards: it is never
    reported as connected again, and nothing is sent on it any more. -/
theorem failed_stays_failed (es : List ChannelEvent) {ch' : EventChannel}
    (h : (system build heap fromClient ch.connectError).Runs es (.ok ch')) :
    ch'.channel.connState ≠ .connected ∧ ch'.evConn.output <:+ ch.evConn.output ∧
      ∃ later, ch'.reported = ch.reported ++ .connectFailed :: later ∧ .connected ∉ later := by
  have hfailed : FailedSince ch.connectError ch.connectError :=
    ⟨rfl, (nomatch ·), List.suffix_rfl, [], (List.append_nil _).symm, by simp⟩
  have hsince : FailedSince ch.connectError ch' :=
    @Run.System.preserves _ _ _ (system build heap fromClient ch.connectError)
      (fun _ ch' => FailedSince ch.connectError ch') hfailed (fun _ _ _ _ hch _ hstep => hch.step hstep)
      _ _ h
  obtain ⟨later, hlater, hno⟩ := hsince.reported
  refine ⟨hsince.connState, hsince.output, later, ?_, hno⟩
  rw [hlater, List.append_cons]
  rfl

/-- The loop tells of a connection after it has told of the error. -/
theorem failed_stays_failed_late : ∃ ch,
    (system .debug (fun _ => 0) false ofHost.connectError).Runs
        [.event true false false, .sendMsg [7]] (.ok ch) ∧ ch.evConn.output = [] := by
  have hrun := ((Run.System.Runs.nil
    (S := system .debug (fun _ => 0) false ofHost.connectError)).next (.event true false false)
      trivial rfl).next (.sendMsg [7]) trivial rfl
  exact ⟨_, hrun, List.suffix_nil.mp (failed_stays_failed _ hrun).2.1⟩

end Failed

end EventChannel

/-- `NetServer` with the rest of its channels. -/
structure EventServer where
  net : NetServer
  rest : UInt16 → EventChannel

/-- What happens to a server. -/
inductive ServerEvent
  | connect
  | channel (channelIndex : UInt16) (e : ChannelEvent)
  | closeAll

namespace EventServer

/-- A channel of the map. -/
def getChannel (s : EventServer) (k : UInt16) : Option EventChannel :=
  (s.net.getChannel k).map fun channel => { s.rest k with channel }

/-- The server with another state of the channel at an index. -/
def setChannel (s : EventServer) (k : UInt16) (ch : EventChannel) : EventServer where
  net := s.net.setChannel k ch.channel
  rest := Function.update s.rest k ch

/-- `NetServer::OnConnect`, which reports the connection itself. -/
def onConnect (s : EventServer) : EventServer :=
  match s.net.onConnect with
  | (_, none) => s
  | (net, some k) => ⟨net, Function.update s.rest k (EventChannel.ofSocket.report .connected)⟩

/-- `NetServer::CloseAll`. -/
def closeAll (s : EventServer) : EventServer where
  net := { s.net with channels := fun k => (s.getChannel k).map fun ch => ch.forceClose.channel }
  rest k := (s.rest k).forceClose

section System

variable (build : Build) (heap : ℕ → UInt8) (fromClient : Bool) (maxConns : UInt16)

def enabled (s : EventServer) : ServerEvent → Prop
  | .channel k e => ∃ ch, s.getChannel k = some ch ∧ ch.enabled e
  | _ => True

def step (s : EventServer) : ServerEvent → Except Fault EventServer
  | .connect => .ok s.onConnect
  | .channel k e =>
    match s.getChannel k with
    | none => .ok s
    | some ch => do
      let ch ← ch.step build heap fromClient e
      return s.setChannel k ch
  | .closeAll => .ok s.closeAll

/-- The server after its constructor. -/
def system : Run.System EventServer ServerEvent Fault where
  init := ⟨.new maxConns, fun _ => .ofSocket⟩
  enabled := enabled
  step := step build heap fromClient

end System

/-! ### The channels after an event -/

variable {s : EventServer} {k k' : UInt16} {ch : EventChannel}

theorem isSome_net_getChannel (h : s.getChannel k = some ch) : (s.net.getChannel k).isSome := by
  rw [← Option.isSome_map, ← getChannel, h]
  rfl

theorem getChannel_setChannel (s : EventServer) (k k' : UInt16) (ch : EventChannel) :
    (s.setChannel k ch).getChannel k' = if k' = k then some ch else s.getChannel k' := by
  simp only [getChannel, setChannel, NetServer.getChannel_setChannel, Function.update_apply]
  split <;> rfl

theorem getChannel_closeAll (s : EventServer) (k : UInt16) :
    s.closeAll.getChannel k = (s.getChannel k).map EventChannel.forceClose := by
  simp only [getChannel, closeAll, NetServer.getChannel, Option.map_map]
  rfl

/-- A connection is refused, or its channel is added at an index that no channel had. -/
theorem getChannel_onConnect (h : s.net.Indexed) (k : UInt16) :
    s.onConnect.getChannel k = s.getChannel k ∨
      s.getChannel k = none ∧ ∃ ch, s.onConnect.getChannel k = some ch ∧ ch.evConn.input = [] := by
  rcases NetServer.onConnect_cases s.net with hrefused | ⟨idx, freeIndexes, hfree, haccepted⟩
  · rw [onConnect, hrefused]
    exact Or.inl rfl
  · rw [onConnect, haccepted]
    by_cases hk : k = idx
    · subst hk
      have hnone := (h.free k (by rw [hfree]; exact List.mem_cons_self)).2
      refine Or.inr ⟨by rw [getChannel, hnone]; rfl, ?_⟩
      simp only [getChannel, NetServer.getChannel, Function.update_self, Option.map_some]
      exact ⟨_, rfl, rfl⟩
    · refine Or.inl ?_
      simp only [getChannel, NetServer.getChannel, Function.update_of_ne hk]

theorem getChannel_onConnect_of_some (h : s.net.Indexed) (hk : s.getChannel k = some ch) :
    s.onConnect.getChannel k = some ch := by
  rcases getChannel_onConnect h k with hsame | ⟨hnone, -⟩
  · rw [hsame, hk]
  · rw [hk] at hnone
    cases hnone

theorem indexed_onConnect (h : s.net.Indexed) : s.onConnect.net.Indexed := by
  rcases NetServer.onConnect_cases s.net with hrefused | ⟨idx, freeIndexes, hfree, haccepted⟩
  · rwa [onConnect, hrefused]
  · rw [onConnect, haccepted]
    exact h.connect hfree _

theorem indexed_setChannel (h : s.net.Indexed) (hk : s.getChannel k = some ch)
    (ch' : EventChannel) : (s.setChannel k ch').net.Indexed := by
  obtain ⟨channel, hchannel⟩ := Option.isSome_iff_exists.mp (isSome_net_getChannel hk)
  exact h.setChannel hchannel _

theorem indexed_closeAll (h : s.net.Indexed) : s.closeAll.net.Indexed := by
  refine ⟨h.nodup, fun c hc => ?_, fun c channel hc => ?_⟩
  · obtain ⟨hpos, hnone⟩ := h.free c hc
    have hmap : s.getChannel c = none := by rw [getChannel, hnone]; rfl
    refine ⟨hpos, ?_⟩
    change (s.getChannel c).map _ = none
    rw [hmap]
    rfl
  · obtain ⟨ch, hch, -⟩ := Option.map_eq_some_iff.mp hc
    obtain ⟨channel', hchannel'⟩ := Option.isSome_iff_exists.mp (isSome_net_getChannel hch)
    exact h.used c channel' hchannel'

section Runs

variable {build : Build} {heap : ℕ → UInt8} {fromClient : Bool} {maxConns : UInt16}
  {s' : EventServer}

/-- What an event does: a connection, one event of one channel, or the close of all. -/
theorem step_cases {e : ServerEvent} (he : enabled s e)
    (h : step build heap fromClient s e = .ok s') :
    (e = .connect ∧ s' = s.onConnect) ∨
    (∃ k ce ch ch', e = .channel k ce ∧ s.getChannel k = some ch ∧ ch.enabled ce ∧
      ch.step build heap fromClient ce = .ok ch' ∧ s' = s.setChannel k ch') ∨
    (e = .closeAll ∧ s' = s.closeAll) := by
  cases e with
  | connect =>
    cases h
    exact Or.inl ⟨rfl, rfl⟩
  | closeAll =>
    cases h
    exact Or.inr (Or.inr ⟨rfl, rfl⟩)
  | channel k ce =>
    obtain ⟨ch, hch, hce⟩ := he
    simp only [step, hch] at h
    obtain ⟨ch', hstep, hs'⟩ := bind_eq_ok.mp h
    cases hs'
    exact Or.inr (Or.inl ⟨k, ce, ch, ch', rfl, hch, hce, hstep, rfl⟩)

theorem step_indexed {e : ServerEvent} (h : s.net.Indexed) (he : enabled s e)
    (hstep : step build heap fromClient s e = .ok s') : s'.net.Indexed := by
  obtain ⟨-, rfl⟩ | ⟨k, ce, ch, ch', -, hch, -, -, rfl⟩ | ⟨-, rfl⟩ := step_cases he hstep
  · exact indexed_onConnect h
  · exact indexed_setChannel h hch ch'
  · exact indexed_closeAll h

theorem runs_indexed {es : List ServerEvent}
    (h : (system build heap fromClient maxConns).Runs es (.ok s)) : s.net.Indexed :=
  @Run.System.preserves _ _ _ (system build heap fromClient maxConns) (fun _ s => s.net.Indexed)
    (NetServer.new_indexed maxConns) (fun _ _ _ _ hs he hstep => step_indexed hs he hstep) _ _ h

end Runs

/-! ### What is unread -/

/-- The bytes that have arrived on a channel. -/
def received (k : UInt16) (es : List ServerEvent) : List UInt8 := es.flatMap fun
  | .channel k' (.read bytes) => if k' = k then bytes else []
  | _ => []

theorem received_concat (k : UInt16) (es : List ServerEvent) (e : ServerEvent) :
    received k (es ++ [e]) = received k es ++ received k [e] := List.flatMap_append ..

theorem received_of_ne {k' : UInt16} (h : k' ≠ k) (ce : ChannelEvent) :
    received k [.channel k' ce] = [] := by
  cases ce <;> simp [received, h]

/-- The socket of a channel has been found writable. -/
def Writable (k : UInt16) (es : List ServerEvent) : Prop := ∃ n, .channel k (.written n) ∈ es

theorem writable_concat (k : UInt16) (es : List ServerEvent) (e : ServerEvent) :
    Writable k (es ++ [e]) ↔ Writable k es ∨ ∃ n, e = .channel k (.written n) := by
  simp only [Writable, List.mem_append, List.mem_singleton, exists_or, eq_comm]

/-- The channels of the map have left what their streams do not have as frames, and the loop waits for
    the sockets that it has found writable only to write output; on the others nothing has happened
    yet. -/
structure Unread (es : List ServerEvent) (s : EventServer) : Prop where
  indexed : s.net.Indexed
  input : ∀ k ch, s.getChannel k = some ch → ch.evConn.input = packetSplitter.rest (received k es)
  output : ∀ k ch, s.getChannel k = some ch → Writable k es → ch.OnlyOutput
  fresh : ∀ k, s.getChannel k = none → received k es = [] ∧ ¬ Writable k es

section Runs

variable {build : Build} {heap : ℕ → UInt8} {fromClient : Bool} {maxConns : UInt16}
  {s' : EventServer} {es : List ServerEvent}

theorem unread_init : Unread [] (system build heap fromClient maxConns).init where
  indexed := NetServer.new_indexed maxConns
  input _ _ h := nomatch h
  output _ _ h := nomatch h
  fresh _ _ := ⟨rfl, fun ⟨_, hmem⟩ => nomatch hmem⟩

/-- An event of no channel that leaves the buffers of every channel alone, but may add channels. -/
theorem Unread.of_same {e : ServerEvent} (h : Unread es s) (hindexed : s'.net.Indexed)
    (he : ∀ k ce, e ≠ .channel k ce)
    (hsame : ∀ k ch', s'.getChannel k = some ch' →
      (∃ ch, s.getChannel k = some ch ∧ ch'.evConn.input = ch.evConn.input ∧
        (ch.OnlyOutput → ch'.OnlyOutput)) ∨ (s.getChannel k = none ∧ ch'.evConn.input = []))
    (hkeep : ∀ k, s'.getChannel k = none → s.getChannel k = none) : Unread (es ++ [e]) s' := by
  have hreceived : ∀ k, received k (es ++ [e]) = received k es := by
    intro k
    rw [received_concat]
    cases e with
    | connect => exact List.append_nil _
    | closeAll => exact List.append_nil _
    | channel k' ce => exact absurd rfl (he k' ce)
  have hwritable : ∀ k, Writable k (es ++ [e]) ↔ Writable k es := fun k =>
    (writable_concat k es e).trans (or_iff_left fun ⟨_, hn⟩ => he _ _ hn)
  refine ⟨hindexed, fun k ch' hch' => ?_, fun k ch' hch' => ?_, fun k hk => ?_⟩
  · rw [hreceived]
    obtain ⟨ch, hch, hinput, -⟩ | ⟨hnone, hinput⟩ := hsame k ch' hch'
    · rw [hinput, h.input k ch hch]
    · rw [hinput, (h.fresh k hnone).1, packetSplitter.rest_of_none packetSplitter.next_nil]
  · rw [hwritable]
    intro hfound
    obtain ⟨ch, hch, -, houtput⟩ | ⟨hnone, -⟩ := hsame k ch' hch'
    · exact houtput (h.output k ch hch hfound)
    · exact absurd hfound (h.fresh k hnone).2
  · rw [hreceived, hwritable]
    exact h.fresh k (hkeep k hk)

theorem Unread.onConnect (h : Unread es s) : Unread (es ++ [.connect]) s.onConnect := by
  refine h.of_same (indexed_onConnect h.indexed) (nofun) (fun k ch' hch' => ?_) fun k hk => ?_
  · rcases getChannel_onConnect h.indexed k with hsame | ⟨hnone, ch, hch, hinput⟩
    · exact Or.inl ⟨ch', hsame ▸ hch', rfl, id⟩
    · rw [hch] at hch'
      cases hch'
      exact Or.inr ⟨hnone, hinput⟩
  · rcases getChannel_onConnect h.indexed k with hsame | ⟨hnone, -⟩
    · rw [← hsame, hk]
    · exact hnone

theorem Unread.closeAll (h : Unread es s) : Unread (es ++ [.closeAll]) s.closeAll := by
  refine h.of_same (indexed_closeAll h.indexed) (nofun) (fun k ch' hch' => ?_) fun k hk => ?_
  · rw [getChannel_closeAll] at hch'
    obtain ⟨ch, hch, rfl⟩ := Option.map_eq_some_iff.mp hch'
    exact Or.inl ⟨ch, hch, rfl, id⟩
  · rwa [getChannel_closeAll, Option.map_eq_none_iff] at hk

theorem Unread.channel (h : Unread es s) {ce : ChannelEvent} {ch ch' : EventChannel}
    (hch : s.getChannel k = some ch) (hstep : ch.step build heap fromClient ce = .ok ch') :
    Unread (es ++ [.channel k ce]) (s.setChannel k ch') := by
  have hother : ∀ k', k' ≠ k → received k' (es ++ [.channel k ce]) = received k' es ∧
      (Writable k' (es ++ [.channel k ce]) ↔ Writable k' es) := by
    intro k' hk
    rw [received_concat, received_of_ne (Ne.symm hk), List.append_nil, writable_concat]
    refine ⟨rfl, or_iff_left ?_⟩
    rintro ⟨n, hn⟩
    cases hn
    exact hk rfl
  refine ⟨indexed_setChannel h.indexed hch ch', fun k' found hfound => ?_,
    fun k' found hfound => ?_, fun k' hnone => ?_⟩
  · rw [getChannel_setChannel] at hfound
    by_cases hk : k' = k
    · subst hk
      rw [if_pos rfl] at hfound
      cases hfound
      by_cases hread : ∃ bytes, ce = .read bytes
      · obtain ⟨bytes, rfl⟩ := hread
        have hbytes : received k' [.channel k' (.read bytes)] = bytes := by simp [received]
        rw [EventChannel.input_of_read hstep, h.input k' ch hch, received_concat, hbytes,
          ← packetSplitter.rest_append]
      · have hno : received k' [.channel k' ce] = [] := by
          cases ce with
          | read bytes => exact absurd ⟨bytes, rfl⟩ hread
          | _ => rfl
        rw [EventChannel.input_of_ne_read (fun bytes he => hread ⟨bytes, he⟩) hstep,
          h.input k' ch hch, received_concat, hno, List.append_nil]
    · rw [if_neg hk] at hfound
      rw [(hother k' hk).1]
      exact h.input k' found hfound
  · rw [getChannel_setChannel] at hfound
    by_cases hk : k' = k
    · subst hk
      rw [if_pos rfl] at hfound
      cases hfound
      rw [writable_concat]
      rintro (hfound | ⟨n, hn⟩)
      · exact (h.output k' ch hch hfound).step hstep
      · cases hn
        exact EventChannel.onlyOutput_of_written hstep
    · rw [if_neg hk] at hfound
      rw [(hother k' hk).2]
      exact h.output k' found hfound
  · rw [getChannel_setChannel] at hnone
    by_cases hk : k' = k
    · rw [if_pos hk] at hnone
      cases hnone
    · rw [if_neg hk] at hnone
      rw [(hother k' hk).1, (hother k' hk).2]
      exact h.fresh k' hnone

theorem unread_of_runs (h : (system build heap fromClient maxConns).Runs es (.ok s)) :
    Unread es s := by
  refine @Run.System.preserves _ _ _ (system build heap fromClient maxConns) Unread unread_init
    ?_ _ _ h
  intro es s e s' hs he hstep
  obtain ⟨rfl, rfl⟩ | ⟨k, ce, ch, ch', rfl, hch, -, hce, rfl⟩ | ⟨rfl, rfl⟩ := step_cases he hstep
  · exact hs.onConnect
  · exact hs.channel hch hce
  · exact hs.closeAll

/-- What a channel has not read yet is what is no frame of its stream. -/
theorem input_eq (h : (system build heap fromClient maxConns).Runs es (.ok s))
    (hk : s.getChannel k = some ch) :
    ch.evConn.input = packetSplitter.rest (received k es) := (unread_of_runs h).input k ch hk

end Runs

/-! ### Closing -/

/-- How much of the output of a channel has been written. -/
def written (k : UInt16) (es : List ServerEvent) : ℕ := (es.map fun
  | .channel k' (.written n) => if k' = k then n else 0
  | _ => 0).sum

theorem written_concat (k : UInt16) (es : List ServerEvent) (e : ServerEvent) :
    written k (es ++ [e]) = written k es + written k [e] := by
  simp [written]

/-- An event that neither closes a channel nor tells of its socket. -/
def Undisturbed (k : UInt16) : ServerEvent → Prop
  | .connect => True
  | .closeAll => False
  | .channel k' (.event ..) => k' ≠ k
  | .channel k' .forceClose => k' ≠ k
  | .channel _ _ => True

/-- The stream is a sequence of frames. -/
def WholeFrames (s : List UInt8) : Prop :=
  ∃ fs : List (List UInt8), (∀ f ∈ fs, IsFrame f) ∧ s = fs.flatten

theorem rest_eq_nil_iff (s : List UInt8) : packetSplitter.rest s = [] ↔ WholeFrames s := by
  constructor
  · intro h
    refine ⟨packetSplitter.frames s,
      fun f hf => packetSplitter_isFrame.mp (packetSplitter.isFrame_of_mem hf), ?_⟩
    have hall := packetSplitter.flatten_frames_append_rest s
    rw [h, List.append_nil] at hall
    exact hall.symm
  · rintro ⟨fs, hfs, rfl⟩
    have h := (packetSplitter.frames_flatten_append
      (fun f hf => packetSplitter_isFrame.mpr (hfs f hf)) []).2
    rwa [List.append_nil, packetSplitter.rest_of_none packetSplitter.next_nil] at h

/-- A channel after `CloseAll`, with `n` bytes written since: it does not read, its output gets shorter,
    and once its socket is `found` writable and there is no output any more, it is disconnected if
    it has no input. -/
structure Closing (ch : EventChannel) (n : ℕ) (found : Prop) (ch' : EventChannel) : Prop where
  reading : ch'.evConn.reading = false
  input : ch'.evConn.input = ch.evConn.input
  output : ch'.evConn.output = ch.evConn.output.drop n
  le : n ≤ ch.evConn.output.length
  unfound : ¬ found → ch'.evConn.writing = ch.evConn.writing
  was : found → ch.evConn.writing = true
  only : found → ch'.OnlyOutput
  closed : (ch.evConn.input = [] ∧ found ∧ n = ch.evConn.output.length) →
    ch'.channel.connState = .disconnected ∧ ch'.reported = ch.reported ++ [.disconnected]
  waiting : ¬ (ch.evConn.input = [] ∧ found ∧ n = ch.evConn.output.length) →
    ch'.channel.connState = .disconnecting ∧ ch'.reported = ch.reported

theorem closing_forceClose (ch : EventChannel) : Closing ch 0 False ch.forceClose where
  reading := rfl
  input := rfl
  output := rfl
  le := Nat.zero_le _
  unfound _ := rfl
  was := False.elim
  only := False.elim
  closed h := h.2.1.elim
  waiting _ := ⟨rfl, rfl⟩

theorem Closing.sendMsg_eq {n : ℕ} {found : Prop} {ch' : EventChannel}
    (h : Closing ch n found ch') : ch'.channel.sendMsg = false := by
  by_cases hclosed : ch.evConn.input = [] ∧ found ∧ n = ch.evConn.output.length
  · rw [NetChannel.sendMsg, (h.closed hclosed).1]
    rfl
  · rw [NetChannel.sendMsg, (h.waiting hclosed).1]
    rfl

/-- The socket is found writable. -/
theorem Closing.written {n m : ℕ} {found : Prop} {ch' ch'' : EventChannel} {build : Build}
    {heap : ℕ → UInt8} {fromClient : Bool} (h : Closing ch n found ch')
    (hm : ch'.enabled (.written m))
    (hstep : ch'.step build heap fromClient (.written m) = .ok ch'') :
    Closing ch (n + m) True ch'' := by
  obtain ⟨hwriting, hle, -⟩ := hm
  have honly := EventChannel.onlyOutput_of_written hstep
  have hwas : ch.evConn.writing = true := by
    by_cases hfound : found
    · exact h.was hfound
    · rw [← h.unfound hfound, hwriting]
  -- the loop waited for the socket, so the channel was still waiting
  have hopen : ¬ (ch.evConn.input = [] ∧ found ∧ n = ch.evConn.output.length) := by
    rintro ⟨-, hfound, hall⟩
    refine h.only hfound hwriting ?_
    rw [h.output, hall, List.drop_length]
  obtain ⟨hstate, hreported⟩ := h.waiting hopen
  have hstate' : (ch'.taken m).channel.connState = .disconnecting := hstate
  rw [h.output, List.length_drop] at hle
  have hn := h.le
  have hdrop : (ch'.taken m).evConn.output = ch.evConn.output.drop (n + m) := by
    rw [EventChannel.taken, h.output, List.drop_drop]
  have hempty : (ch'.taken m).evConn.output = [] ↔ n + m = ch.evConn.output.length := by
    rw [hdrop, List.drop_eq_nil_iff]
    omega
  cases hstep
  by_cases hall : n + m = ch.evConn.output.length
  · rw [if_pos (hempty.mpr hall)] at honly ⊢
    rw [EventChannel.onWrite, if_pos hstate'] at honly ⊢
    by_cases hinput : ch.evConn.input = []
    · have hlen : (ch'.taken m).evConn.input.length ≤ 0 := by
        rw [EventChannel.taken, h.input, hinput]
        rfl
      rw [if_pos hlen] at honly ⊢
      exact ⟨h.reading, h.input, hdrop, by omega, fun hno => absurd trivial hno, fun _ => hwas,
        fun _ => honly, fun _ => ⟨rfl, by rw [← hreported]; rfl⟩,
        fun hno => absurd ⟨hinput, trivial, hall⟩ hno⟩
    · have hlen : ¬ (ch'.taken m).evConn.input.length ≤ 0 := by
        rw [EventChannel.taken, h.input, Nat.le_zero, List.length_eq_zero_iff]
        exact hinput
      rw [if_neg hlen] at honly ⊢
      exact ⟨h.reading, h.input, hdrop, by omega, fun hno => absurd trivial hno, fun _ => hwas,
        fun _ => honly, fun hyes => absurd hyes.1 hinput, fun _ => ⟨hstate, hreported⟩⟩
  · rw [if_neg (mt hempty.mp hall)] at honly ⊢
    exact ⟨h.reading, h.input, hdrop, by omega, fun hno => absurd trivial hno, fun _ => hwas,
      fun _ => honly, fun hyes => absurd hyes.2.2 hall, fun _ => ⟨hstate, hreported⟩⟩

/-- What happens to a channel that is being closed, as long as nothing is told of its socket. -/
theorem Closing.channel {es : List ServerEvent} {ch' ch'' : EventChannel} {build : Build}
    {heap : ℕ → UInt8} {fromClient : Bool} (h : Closing ch (EventServer.written k es) (Writable k es) ch')
    {ce : ChannelEvent} (he : ch'.enabled ce) (hquiet : Undisturbed k (.channel k ce))
    (hstep : ch'.step build heap fromClient ce = .ok ch'') :
    Closing ch (EventServer.written k (es ++ [.channel k ce])) (Writable k (es ++ [.channel k ce]))
      ch'' := by
  rw [written_concat, writable_concat]
  cases ce with
  | read bytes =>
    have hreading : ch'.evConn.reading = true := he
    rw [h.reading] at hreading
    cases hreading
  | written m =>
    have hm : EventServer.written k [ServerEvent.channel k (.written m)] = m := by
      simp [EventServer.written]
    have hfound : (Writable k es ∨ ∃ n, ServerEvent.channel k (.written m) =
        .channel k (.written n)) = True := eq_true (Or.inr ⟨m, rfl⟩)
    rw [hm, hfound]
    exact h.written he hstep
  | event connected eof error => exact absurd rfl hquiet
  | sendMsg buf =>
    cases hstep
    have hfound : (Writable k es ∨ ∃ n, ServerEvent.channel k (.sendMsg buf) =
        .channel k (.written n)) = Writable k es := propext (or_iff_left fun ⟨_, hn⟩ => nomatch hn)
    rw [EventChannel.sendMsg, h.sendMsg_eq, hfound]
    exact h
  | forceClose => exact absurd rfl hquiet

section Runs

variable {build : Build} {heap : ℕ → UInt8} {fromClient : Bool} {maxConns : UInt16}
  {s' : EventServer} {es : List ServerEvent}

/-- `CloseAll` and what follows it, for one of the channels. -/
theorem closing_of_runs (hindexed : s.net.Indexed) (hk : s.getChannel k = some ch)
    (h : { system build heap fromClient maxConns with init := s.closeAll }.Runs es (.ok s'))
    (hquiet : ∀ e ∈ es, Undisturbed k e) :
    ∃ ch', s'.getChannel k = some ch' ∧ Closing ch (written k es) (Writable k es) ch' := by
  have hinv := @Run.System.preserves _ _ _
    { system build heap fromClient maxConns with init := s.closeAll }
    (fun es s' => (∀ e ∈ es, Undisturbed k e) → s'.net.Indexed ∧
      ∃ ch', s'.getChannel k = some ch' ∧ Closing ch (written k es) (Writable k es) ch') ?_ ?_ _ _ h
  · exact (hinv hquiet).2
  · intro _
    have hnever : Writable k [] = False := eq_false fun ⟨_, hmem⟩ => nomatch hmem
    refine ⟨indexed_closeAll hindexed, ch.forceClose, ?_, hnever ▸ closing_forceClose ch⟩
    rw [getChannel_closeAll, hk]
    rfl
  · intro es s₁ e s₂ hinv he hstep hquiet
    obtain ⟨hquiet, hlast⟩ := List.forall_mem_append.mp hquiet
    have hlast := List.forall_mem_singleton.mp hlast
    obtain ⟨hs₁, ch₁, hch₁, hclosing⟩ := hinv hquiet
    refine ⟨step_indexed hs₁ he hstep, ?_⟩
    -- an event that is not of this channel leaves it as it is
    have hsame : written k [e] = 0 → (∀ n, e ≠ .channel k (.written n)) →
        Closing ch (written k (es ++ [e])) (Writable k (es ++ [e])) ch₁ := by
      intro hnone hother
      have hfound : Writable k (es ++ [e]) = Writable k es :=
        propext ((writable_concat k es e).trans (or_iff_left fun ⟨n, hn⟩ => hother n hn))
      rw [written_concat, hnone, hfound]
      exact hclosing
    obtain ⟨rfl, rfl⟩ | ⟨k', ce, chk, chk', rfl, hchk, hce, hchstep, rfl⟩ | ⟨rfl, rfl⟩ :=
      step_cases he hstep
    · exact ⟨ch₁, getChannel_onConnect_of_some hs₁ hch₁, hsame rfl nofun⟩
    · rw [getChannel_setChannel]
      by_cases hkk : k = k'
      · subst hkk
        rw [hch₁] at hchk
        cases hchk
        exact ⟨chk', if_pos rfl, hclosing.channel hce hlast hchstep⟩
      · have hno : written k [.channel k' ce] = 0 := by
          cases ce <;> simp [written, Ne.symm hkk]
        refine ⟨ch₁, (if_neg hkk).trans hch₁, hsame hno fun n hn => ?_⟩
        cases hn
        exact hkk rfl
    · exact hlast.elim

/-- Closing all channels, in every run: as long as nothing is told of the socket of a channel, it is
    reported as disconnected, once, if its socket has been found writable since and all its output
    is written, and if whole frames are all that has ever arrived on it. Otherwise it is not
    reported and waits. What is sent to it meanwhile is dropped, and if it has no output, its socket
    is not found writable a second time. -/
theorem closeAll_reported {es₁ es₂ : List ServerEvent}
    (h₁ : (system build heap fromClient maxConns).Runs es₁ (.ok s))
    (h₂ : (system build heap fromClient maxConns).Runs (es₁ ++ .closeAll :: es₂) (.ok s'))
    (hk : s.getChannel k = some ch) (hquiet : ∀ e ∈ es₂, Undisturbed k e) :
    ∃ ch', s'.getChannel k = some ch' ∧
      ch'.evConn.output = ch.evConn.output.drop (written k es₂) ∧
      (ch'.channel.connState = .disconnected ↔ WholeFrames (received k es₁) ∧
        Writable k es₂ ∧ written k es₂ = ch.evConn.output.length) ∧
      (ch'.channel.connState = .disconnected →
        ch'.reported = ch.reported ++ [.disconnected]) ∧
      (ch'.channel.connState ≠ .disconnected →
        ch'.channel.connState = .disconnecting ∧ ch'.reported = ch.reported) ∧
      (Writable k es₁ → Writable k es₂ → ch.evConn.output ≠ []) := by
  rw [List.append_cons] at h₂
  obtain ⟨s₁, hclose, hrest⟩ := h₂.split
  obtain ⟨t, ht, -, hs₁⟩ := hclose.last
  cases h₁.unique ht
  cases hs₁
  obtain ⟨ch', hch', hclosing⟩ := closing_of_runs (runs_indexed h₁) hk hrest hquiet
  have hclosed : (ch.evConn.input = [] ∧ Writable k es₂ ∧
      written k es₂ = ch.evConn.output.length) ↔ WholeFrames (received k es₁) ∧
        Writable k es₂ ∧ written k es₂ = ch.evConn.output.length := by
    rw [input_eq h₁ hk, rest_eq_nil_iff]
  have honce : Writable k es₁ → Writable k es₂ → ch.evConn.output ≠ [] := fun hbefore hafter =>
    (unread_of_runs h₁).output k ch hk hbefore (hclosing.was hafter)
  refine ⟨ch', hch', hclosing.output, ?_⟩
  by_cases hyes : ch.evConn.input = [] ∧ Writable k es₂ ∧ written k es₂ = ch.evConn.output.length
  · obtain ⟨hstate, hreported⟩ := hclosing.closed hyes
    exact ⟨iff_of_true hstate (hclosed.mp hyes), fun _ => hreported, fun hne => absurd hstate hne,
      honce⟩
  · obtain ⟨hstate, hreported⟩ := hclosing.waiting hyes
    have hne : ch'.channel.connState ≠ .disconnected := by
      rw [hstate]
      decide
    exact ⟨iff_of_false hne (mt hclosed.mpr hyes), fun heq => absurd heq hne,
      fun _ => ⟨hstate, hreported⟩, honce⟩

end Runs

theorem step_channel {build : Build} {heap : ℕ → UInt8} {fromClient : Bool} {ce : ChannelEvent}
    {ch' : EventChannel} (hk : s.getChannel k = some ch)
    (h : ch.step build heap fromClient ce = .ok ch') :
    step build heap fromClient s (.channel k ce) = .ok (s.setChannel k ch') := by
  simp only [step, hk, h]
  rfl

/-- An accepted connection. -/
def freshChannel (k : UInt16) : EventChannel where
  channel := NetChannel.setChannelIndex { connState := .connected } k
  evConn := { reading := true, writing := true }
  reported := [.connected]

/-- Such a connection, to which a byte has been sent that is not written yet. -/
def pendingChannel (k : UInt16) : EventChannel :=
  { freshChannel k with evConn := { reading := true, writing := true, output := [7] } }

/-- Two connections: nothing has happened on the first, and the second has sent the first byte of a
    frame. When both are closed, only the first is reported. -/
theorem closeAll_reported_two : ∃ s ch₁ ch₂,
    (system .release (fun _ => 0) false 3).Runs ([.connect, .connect,
        .channel 2 (.sendMsg [7]), .channel 2 (.read [0])] ++
        .closeAll :: [.channel 1 (.written 0), .channel 2 (.written 1)]) (.ok s) ∧
      s.getChannel 1 = some ch₁ ∧ ch₁.channel.connState = .disconnected ∧
      ch₁.reported = [.connected, .disconnected] ∧
      s.getChannel 2 = some ch₂ ∧ ch₂.channel.connState = .disconnecting := by
  have hnone : packetSplitter.next [0] = none := by decide
  have hconnect := (Run.System.Runs.nil (S := system .release (fun _ => 0) false 3)).next .connect
    trivial rfl
  have hsent := (hconnect.next .connect trivial rfl).next (.channel 2 (.sendMsg [7]))
    ⟨_, rfl, trivial⟩ rfl
  obtain ⟨s₁, h₁, hfirst, hsecond⟩ : ∃ s, (system .release (fun _ => 0) false 3).Runs
      [.connect, .connect, .channel 2 (.sendMsg [7])] (.ok s) ∧
        s.getChannel 1 = some (freshChannel 1) ∧ s.getChannel 2 = some (pendingChannel 2) :=
    ⟨_, hsent, rfl, rfl⟩
  obtain ⟨ch, hread, hch⟩ : ∃ ch, (pendingChannel 2).step .release (fun _ => 0) false (.read [0]) =
      .ok ch ∧ ch.forceClose.evConn = { writing := true, input := [0], output := [7] } := by
    refine ⟨{ pendingChannel 2 with evConn := ⟨true, true, [0], [7]⟩ }, ?_, rfl⟩
    simp only [EventChannel.step, EventChannel.onRead]
    have hinput : (pendingChannel 2).evConn.input ++ [0] = [0] := rfl
    rw [hinput, readMessage_of_none _ _ _ hnone]
    rfl
  have h₂ := h₁.next (.channel 2 (.read [0])) ⟨_, hsecond, rfl⟩ (step_channel hsecond hread)
  have hfirst₂ : (s₁.setChannel 2 ch).getChannel 1 = some (freshChannel 1) := by
    rwa [getChannel_setChannel, if_neg (by decide)]
  have hsecond₂ : (s₁.setChannel 2 ch).getChannel 2 = some ch := by
    rw [getChannel_setChannel, if_pos rfl]
  have h₃ := h₂.next .closeAll trivial rfl
  have hfirst₃ : (s₁.setChannel 2 ch).closeAll.getChannel 1 =
      some (freshChannel 1).forceClose := by
    rw [getChannel_closeAll, hfirst₂]
    rfl
  have hsecond₃ : (s₁.setChannel 2 ch).closeAll.getChannel 2 = some ch.forceClose := by
    rw [getChannel_closeAll, hsecond₂]
    rfl
  have h₄ := h₃.next (.channel 1 (.written 0)) ⟨_, hfirst₃, rfl, le_rfl, fun hne => absurd rfl hne⟩
    (step_channel hfirst₃ rfl)
  have hsecond₄ : ∀ ch', ((s₁.setChannel 2 ch).closeAll.setChannel 1 ch').getChannel 2 =
      some ch.forceClose := by
    intro ch'
    rw [getChannel_setChannel, if_neg (by decide), hsecond₃]
  have h₅ := h₄.next (.channel 2 (.written 1))
    ⟨_, hsecond₄ _, by rw [hch], by rw [hch]; decide, fun _ => by decide⟩
    (step_channel (hsecond₄ _) rfl)
  obtain ⟨ch₁, hch₁, -, hstate₁, hreported₁, -⟩ :=
    closeAll_reported h₂ h₅ hfirst₂ (by simp [Undisturbed])
  obtain ⟨ch₂, hch₂, -, hstate₂, -, hwaiting, -⟩ :=
    closeAll_reported h₂ h₅ hsecond₂ (by simp [Undisturbed])
  have hclosed := hstate₁.mpr ⟨⟨[], by simp, rfl⟩, ⟨0, by simp⟩, rfl⟩
  refine ⟨_, ch₁, ch₂, h₅, hch₁, hclosed, hreported₁ hclosed, hch₂, ?_⟩
  refine (hwaiting fun hstate => ?_).1
  have hwhole : WholeFrames [0] := (hstate₂.mp hstate).1
  rw [← rest_eq_nil_iff, packetSplitter.rest_of_none hnone] at hwhole
  cases hwhole

end EventServer

end TerraX
