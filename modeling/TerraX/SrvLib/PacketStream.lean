import TerraX.Lib.Run
import TerraX.SrvLib.PacketProcessor
import Mathlib.Logic.Function.Basic

/-!
# Channels that share a packet processor

One processor serves any number of channels. They share its queue, and their
bytes arrive in chunks of any sizes and in any interleaving. `Channels` is the
buffers of all channels with that queue, and a log of what `fn` was handed.

## Main definitions

- `Channels`, `onMessage`, `arrive` — an arrival, and what it makes the processor do
- `streamOf`, `handedTo` — the bytes of one channel, and the packets handed on with it

## Main results

- `exists_handedOver_of_server` — servers without clients fail no assertion
- `run_hands_over` — what is handed on, what stays unread, and what stays queued
-/

namespace TerraX

open Bytes Memory Framing

/-- The side on which a processor holds a channel. -/
inductive Side
  | frontEnd
  | backEnd
deriving DecidableEq, Repr

/-- The unread bytes of every channel, the shared queue, and what `fn` was handed. -/
structure Channels (κ : Type) where
  evbuf : κ → List UInt8
  queueRead : List Packet
  log : List (κ × Packet)

/-- Nothing has arrived yet. -/
def Channels.empty (κ : Type) : Channels κ := ⟨fun _ => [], [], []⟩

section Arrivals

variable {κ : Type} [DecidableEq κ] (build : Build) (adler32 : List UInt8 → UInt32)
  (heap : ℕ → UInt8) (overread : Packet → Packet × Bool) (peerType : PeerType) (side : κ → Side)

/-- The callback of a channel. The function `fn` logs what it is handed. -/
def onMessage (st : Channels κ) (c : κ) : Except Fault (Channels κ) := do
  let fn := fun log pkt => .ok (log ++ [(c, pkt)])
  let (evbuf, queueRead, log) ← match side c with
    | .frontEnd =>
      onMessageFrontEnd build adler32 heap overread peerType fn (st.evbuf c) st.queueRead st.log
    | .backEnd => onMessageBackEnd build adler32 heap overread fn (st.evbuf c) st.queueRead st.log
  return ⟨Function.update st.evbuf c evbuf, queueRead, log⟩

/-- A chunk arrives on a channel. -/
def arrive (st : Channels κ) (arrival : κ × List UInt8) : Except Fault (Channels κ) :=
  let evbuf := Function.update st.evbuf arrival.1 (st.evbuf arrival.1 ++ arrival.2)
  onMessage build adler32 heap overread peerType side { st with evbuf } arrival.1

/-- Whether the frames of a channel come from a client. -/
def fromClient (c : κ) : Bool :=
  match side c with
  | .frontEnd => peerType == .gateserver
  | .backEnd => false

/-- The packets of a stream that pass `is_valid`, in order. -/
def acceptedPackets (client : Bool) (s : List UInt8) : List Packet :=
  ((packetSplitter.frames s).map (Packet.ofFrame heap client)).filterMap
    (Packet.accepted adler32 overread)

theorem acceptedPackets_append (client : Bool) (s t : List UInt8) :
    acceptedPackets adler32 heap overread client (s ++ t) =
      acceptedPackets adler32 heap overread client s ++
        acceptedPackets adler32 heap overread client (packetSplitter.rest s ++ t) := by
  simp only [acceptedPackets, packetSplitter.frames_append s t, List.map_append,
    List.filterMap_append]

end Arrivals

/-- All bytes that arrived on a channel. -/
def streamOf {κ : Type} [DecidableEq κ] (c : κ) (arrivals : List (κ × List UInt8)) : List UInt8 :=
  (arrivals.filter fun arrival => arrival.1 = c).flatMap Prod.snd

/-- All packets that were handed on with a channel. -/
def handedTo {κ : Type} [DecidableEq κ] (c : κ) (log : List (κ × Packet)) : List Packet :=
  (log.filter fun handed => handed.1 = c).map Prod.snd

@[simp] theorem streamOf_concat {κ : Type} [DecidableEq κ] (c : κ)
    (arrivals : List (κ × List UInt8)) (arrival : κ × List UInt8) :
    streamOf c (arrivals ++ [arrival]) =
      streamOf c arrivals ++ (if arrival.1 = c then arrival.2 else []) := by
  by_cases h : arrival.1 = c <;> simp [streamOf, List.filter_append, h]

@[simp] theorem handedTo_append {κ : Type} [DecidableEq κ] (c : κ) (log log' : List (κ × Packet)) :
    handedTo c (log ++ log') = handedTo c log ++ handedTo c log' := by
  simp [handedTo]

/-- What is logged for one channel was handed on with that channel. -/
theorem handedTo_map {κ : Type} [DecidableEq κ] (c d : κ) (pkts : List Packet) :
    handedTo c (pkts.map fun pkt => (d, pkt)) = if d = c then pkts else [] := by
  by_cases h : d = c <;> simp [handedTo, List.filter_map, Function.comp_def, h]

/-- The loop over the queue with the logging `fn`. -/
theorem foldlM_log {κ : Type} (c : κ) (pkts : List Packet) (log : List (κ × Packet)) :
    pkts.foldlM (fun log pkt => (.ok (log ++ [(c, pkt)]) : Except Fault (List (κ × Packet)))) log =
      .ok (log ++ pkts.map fun pkt => (c, pkt)) := by
  induction pkts generalizing log with
  | nil => simp
  | cons pkt pkts ih => rw [List.foldlM_cons, ok_bind, ih, List.append_assoc]; rfl

section Runs

variable {κ : Type} [DecidableEq κ] (build : Build) (adler32 : List UInt8 → UInt32)
  (heap : ℕ → UInt8) (overread : Packet → Packet × Bool) (peerType : PeerType) (side : κ → Side)

/-- One arrival on an empty queue: the channel keeps the rest of its stream, and the
    packets that pass are handed on in order. -/
theorem arrive_eq {st : Channels κ} {c : κ} {chunk : List UInt8} (hqueue : st.queueRead = [])
    (hfits : Fits build (fromClient peerType side c) (st.evbuf c ++ chunk)) :
    arrive build adler32 heap overread peerType side st (c, chunk) =
      .ok ⟨Function.update st.evbuf c (packetSplitter.rest (st.evbuf c ++ chunk)), [],
        st.log ++ (acceptedPackets adler32 heap overread (fromClient peerType side c)
          (st.evbuf c ++ chunk)).map fun pkt => (c, pkt)⟩ := by
  have hprocess : processMessage build adler32 heap overread (fromClient peerType side c)
      (fun log pkt => .ok (log ++ [(c, pkt)])) (st.evbuf c ++ chunk) [] st.log =
        .ok (packetSplitter.rest (st.evbuf c ++ chunk), [],
          st.log ++ (acceptedPackets adler32 heap overread (fromClient peerType side c)
            (st.evbuf c ++ chunk)).map fun pkt => (c, pkt)) := by
    rw [processMessage, readMessage_eq build heap _ hfits, ok_bind]
    simp only [List.nil_append, drainQueue_eq, foldlM_log, ok_bind, pure_eq_ok, acceptedPackets]
  rw [arrive, onMessage]
  cases hside : side c with
  | frontEnd =>
    simp only [fromClient, hside] at hprocess
    simp only [onMessageFrontEnd, hqueue, Function.update_self, Function.update_idem, fromClient,
      hside, hprocess, ok_bind, pure_eq_ok]
  | backEnd =>
    simp only [fromClient, hside] at hprocess
    simp only [onMessageBackEnd, hqueue, Function.update_self, Function.update_idem, fromClient,
      hside, hprocess, ok_bind, pure_eq_ok]

/-- A debug build stops where a frame is too long for its packet. -/
theorem arrive_assertFailed {st : Channels κ} {c : κ} {chunk : List UInt8}
    (hfits : ¬ Fits build (fromClient peerType side c) (st.evbuf c ++ chunk)) :
    arrive build adler32 heap overread peerType side st (c, chunk) = .error .assertFailed := by
  have hread := readMessage_assertFailed build heap _ hfits st.queueRead
  rw [arrive, onMessage]
  cases hside : side c with
  | frontEnd =>
    simp only [fromClient, hside] at hread
    simp only [onMessageFrontEnd, processMessage, Function.update_self, hread, error_bind]
  | backEnd =>
    simp only [fromClient, hside] at hread
    simp only [onMessageBackEnd, processMessage, Function.update_self, hread, error_bind]

/-- What holds after the arrivals so far: nothing stays queued, and every channel has had
    the packets of its own stream handed on and keeps the rest of it. -/
structure HandedOver (arrivals : List (κ × List UInt8)) (st : Channels κ) : Prop where
  queueRead : st.queueRead = []
  handed : ∀ c, handedTo c st.log =
    acceptedPackets adler32 heap overread (fromClient peerType side c) (streamOf c arrivals)
  evbuf : ∀ c, st.evbuf c = packetSplitter.rest (streamOf c arrivals)

theorem handedOver_nil :
    HandedOver adler32 heap overread peerType side [] (Channels.empty κ) := by
  have hnone : packetSplitter.next [] = none := rfl
  refine ⟨rfl, fun c => ?_, fun c => ?_⟩
  · rw [streamOf, acceptedPackets, List.filter_nil, List.flatMap_nil,
      packetSplitter.frames_of_none hnone]
    rfl
  · exact (packetSplitter.rest_of_none hnone).symm

/-- One more arrival keeps it: cutting is resumable, and the other channels are untouched. -/
theorem HandedOver.arrive {arrivals : List (κ × List UInt8)} {st : Channels κ} (c : κ)
    (chunk : List UInt8) (h : HandedOver adler32 heap overread peerType side arrivals st)
    (hfits : Fits build (fromClient peerType side c) (st.evbuf c ++ chunk)) :
    ∃ st', TerraX.arrive build adler32 heap overread peerType side st (c, chunk) = .ok st' ∧
      HandedOver adler32 heap overread peerType side (arrivals ++ [(c, chunk)]) st' := by
  refine ⟨_, arrive_eq build adler32 heap overread peerType side h.queueRead hfits, rfl,
    fun d => ?_, fun d => ?_⟩
  · -- What is unread and the chunk give the frames that the longer stream adds.
    rw [handedTo_append, handedTo_map, streamOf_concat, h.handed, h.evbuf]
    by_cases hd : c = d
    · subst hd
      rw [if_pos rfl, if_pos rfl, ← acceptedPackets_append]
    · rw [if_neg hd, if_neg hd, List.append_nil, List.append_nil]
  · rw [streamOf_concat]
    dsimp only
    by_cases hd : c = d
    · subst hd
      rw [if_pos rfl, Function.update_self, h.evbuf, ← packetSplitter.rest_append]
    · rw [if_neg hd, Function.update_of_ne (Ne.symm hd), List.append_nil, h.evbuf]

/-- If no channel can bring a frame that is too long for its packet, every run ends, and it
    holds there. -/
theorem exists_handedOver_of_fits (hfits : ∀ c s, Fits build (fromClient peerType side c) s)
    (arrivals : List (κ × List UInt8)) :
    ∃ st, arrivals.foldlM (TerraX.arrive build adler32 heap overread peerType side)
        (Channels.empty κ) = .ok st ∧ HandedOver adler32 heap overread peerType side arrivals st :=
  Run.foldlM_invariant (handedOver_nil adler32 heap overread peerType side)
    (fun _ _ arrival h => h.arrive build adler32 heap overread peerType side arrival.1 arrival.2
      (hfits _ _)) arrivals

/-- No assertion fails in the processor of a server that no client connects to. -/
theorem exists_handedOver_of_server (hserver : ∀ c, fromClient peerType side c = false)
    (arrivals : List (κ × List UInt8)) :
    ∃ st, arrivals.foldlM (TerraX.arrive build adler32 heap overread peerType side)
        (Channels.empty κ) = .ok st ∧ HandedOver adler32 heap overread peerType side arrivals st :=
  exists_handedOver_of_fits build adler32 heap overread peerType side
    (fun c s => by rw [hserver c]; exact fits_server build s) arrivals

/-- It holds wherever a run ends that no assertion stopped. -/
theorem handedOver_of_run {arrivals : List (κ × List UInt8)} {st : Channels κ}
    (hrun : arrivals.foldlM (TerraX.arrive build adler32 heap overread peerType side)
      (Channels.empty κ) = .ok st) :
    HandedOver adler32 heap overread peerType side arrivals st := by
  refine Run.foldlM_preserves (handedOver_nil adler32 heap overread peerType side) ?_ hrun
  rintro past st ⟨c, chunk⟩ st' hpast hstep
  by_cases hfits : Fits build (fromClient peerType side c) (st.evbuf c ++ chunk)
  · obtain ⟨st'', hstep', hnext⟩ := hpast.arrive build adler32 heap overread peerType side c chunk
      hfits
    rw [hstep] at hstep'
    cases hstep'
    exact hnext
  · rw [arrive_assertFailed build adler32 heap overread peerType side hfits] at hstep
    cases hstep

/-- Channels that share a processor do not disturb each other. However the streams of the
    channels are cut into chunks and interleaved, every arrival leaves the queue empty,
    what was handed on with a channel is what passes `is_valid` among the frames of its
    own stream, in order, and what is unread is the rest of that stream. A release build
    takes every arrival; a debug build may stop at an assertion. -/
theorem run_hands_over :
    (∀ arrivals : List (κ × List UInt8), ∃ st,
      arrivals.foldlM (arrive .release adler32 heap overread peerType side) (Channels.empty κ) =
        .ok st) ∧
    ∀ (build : Build) (arrivals : List (κ × List UInt8)) (st : Channels κ),
      arrivals.foldlM (arrive build adler32 heap overread peerType side) (Channels.empty κ) =
        .ok st →
      st.queueRead = [] ∧ ∀ c,
        handedTo c st.log =
          ((packetSplitter.frames (streamOf c arrivals)).map
            (Packet.ofFrame heap (fromClient peerType side c))).filterMap
            (Packet.accepted adler32 overread) ∧
        st.evbuf c = packetSplitter.rest (streamOf c arrivals) := by
  constructor
  · intro arrivals
    obtain ⟨st, hst, -⟩ := exists_handedOver_of_fits .release adler32 heap overread peerType side
      (fun _ _ => fits_release _ _) arrivals
    exact ⟨st, hst⟩
  · intro build arrivals st hrun
    have h := handedOver_of_run build adler32 heap overread peerType side hrun
    exact ⟨h.queueRead, fun c => ⟨h.handed c, h.evbuf c⟩⟩

end Runs

end TerraX
