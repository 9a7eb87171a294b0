import TerraX.Client.NetManagerClient
import TerraX.SrvLib.PacketStream

/-!
# What stays unread

`ProcessMessage` leaves the bytes in the buffer of a channel that `ReadMessage` has not cut off.
These should be the beginning of a frame that is still arriving. But `ReadMessage` also stops in
front of a length that no frame has, and nobody drains the buffer or closes the channel then: the
bytes stay, and all that arrives later piles up behind them.

## Main definitions

- `FrameBegun` — the bytes can be the beginning of a frame that is still arriving
- `LegalLengths` — every length that stands in front of a frame of a stream is legal
- `NetManagerClient.arrive` — an arrival at the client

## Main results

- `frameBegun_rest_iff` — what is left of a stream, by the lengths in the stream
- `blocked_rest_of_not_legal` — behind a length that is not legal nothing is cut off any more
- `unread_begun_iff` — the runs after which the unread bytes are the beginning of a frame
-/

namespace TerraX

open Bytes Memory Framing

/-- Nothing, or a single byte, or a length that a frame can have with fewer bytes than it
    announces. -/
def FrameBegun (t : List UInt8) : Prop :=
  t.length < 2 ∨ (2 ≤ decodeBE (t.take 2) ∧ decodeBE (t.take 2) ≤ maxPacketSize ∧
    t.length < decodeBE (t.take 2))

instance (t : List UInt8) : Decidable (FrameBegun t) := by
  unfold FrameBegun
  infer_instance

/-- In front of each frame of the stream there is a length that a frame can have: after any number
    of frames, the next two bytes announce between 2 and `MAX_PACKET_SIZE` bytes. -/
def LegalLengths (s : List UInt8) : Prop :=
  ∀ (fs : List (List UInt8)) (t : List UInt8), (∀ f ∈ fs, IsFrame f) → s = fs.flatten ++ t →
    2 ≤ t.length → 2 ≤ decodeBE (t.take 2) ∧ decodeBE (t.take 2) ≤ maxPacketSize

theorem FrameBegun.length_lt {t : List UInt8} (h : FrameBegun t) : t.length < maxPacketSize := by
  have hmax : 2 < maxPacketSize := by decide
  rcases h with hshort | ⟨-, hle, hfew⟩
  · omega
  · omega

/-- A frame that has begun with its length can be completed. -/
theorem FrameBegun.exists_frame {t : List UInt8} (h : FrameBegun t) (hlen : 2 ≤ t.length) :
    ∃ f, IsFrame f ∧ t <+: f ∧ t ≠ f := by
  obtain ⟨h2, hmax, hfew⟩ := h.resolve_left (Nat.not_lt.mpr hlen)
  have hsize : (t ++ List.replicate (decodeBE (t.take 2) - t.length) 0).length =
      decodeBE (t.take 2) := by
    rw [List.length_append, List.length_replicate]
    omega
  refine ⟨t ++ List.replicate (decodeBE (t.take 2) - t.length) 0, ⟨?_, ?_, ?_⟩,
    List.prefix_append _ _, fun heq => ?_⟩
  · rwa [hsize]
  · rwa [hsize]
  · rw [hsize, slice_append_left (by omega)]
    rfl
  · have hlt := congrArg List.length heq
    rw [hsize] at hlt
    omega

/-- What does not begin with a frame is the beginning of one, or has a length in front that no
    frame has. -/
theorem frameBegun_iff_of_none {t : List UInt8} (h : packetSplitter.next t = none) :
    FrameBegun t ↔
      (2 ≤ t.length → 2 ≤ decodeBE (t.take 2) ∧ decodeBE (t.take 2) ≤ maxPacketSize) := by
  constructor
  · rintro (hshort | ⟨h2, hmax, -⟩) hlen
    · omega
    · exact ⟨h2, hmax⟩
  · intro hlegal
    by_cases hlen : 2 ≤ t.length
    · obtain ⟨h2, hmax⟩ := hlegal hlen
      refine Or.inr ⟨h2, hmax, ?_⟩
      by_contra hfull
      have hsome : packetSplitter.next t = some (decodeBE (t.take 2)) :=
        nextFrame_eq_some.mpr ⟨h2, hmax, by omega, rfl⟩
      rw [h] at hsome
      cases hsome
    · exact Or.inl (by omega)

/-- A length that no frame has stops the cut, whatever follows it. -/
theorem blocked_of_not_legal {t : List UInt8} (hlen : 2 ≤ t.length)
    (h : ¬ (2 ≤ decodeBE (t.take 2) ∧ decodeBE (t.take 2) ≤ maxPacketSize)) :
    packetSplitter.Blocked t := by
  intro u
  rcases Option.eq_none_or_eq_some (packetSplitter.next (t ++ u)) with hnone | ⟨n, hn⟩
  · exact hnone
  · obtain ⟨h2, hmax, -, hsize⟩ := nextFrame_eq_some.mp hn
    rw [List.take_append_of_le_length hlen] at hsize
    exact absurd ⟨by omega, by omega⟩ h

/-- What is left of a stream is the beginning of a frame exactly if all lengths in it are legal. -/
theorem frameBegun_rest_iff (s : List UInt8) :
    FrameBegun (packetSplitter.rest s) ↔ LegalLengths s := by
  rw [frameBegun_iff_of_none (packetSplitter.next_rest s)]
  constructor
  · rintro h fs t hfs rfl hlen
    obtain ⟨-, hrest⟩ := packetSplitter.frames_flatten_append
      (fun f hf => packetSplitter_isFrame.mpr (hfs f hf)) t
    rw [hrest] at h
    by_contra hbad
    -- the cut of the whole stream stops where the cut of `t` does: at once
    have hnone : packetSplitter.next t = none := by
      rw [← List.append_nil t]
      exact blocked_of_not_legal hlen hbad []
    rw [packetSplitter.rest_of_none hnone] at h
    exact hbad (h hlen)
  · intro h hlen
    exact h _ _ (fun f hf => packetSplitter_isFrame.mp (packetSplitter.isFrame_of_mem hf))
      (packetSplitter.flatten_frames_append_rest s).symm hlen

/-- Once a length in a stream is not legal, no frame is found in what follows, and nothing of it is
    drained. -/
theorem blocked_rest_of_not_legal {s : List UInt8} (h : ¬ LegalLengths s) (u : List UInt8) :
    packetSplitter.frames (s ++ u) = packetSplitter.frames s ∧
      packetSplitter.rest (s ++ u) = packetSplitter.rest s ++ u := by
  rw [← frameBegun_rest_iff, frameBegun_iff_of_none (packetSplitter.next_rest s),
    Classical.not_imp] at h
  have hnone := blocked_of_not_legal h.1 h.2 u
  rw [packetSplitter.frames_append, packetSplitter.rest_append, packetSplitter.frames_of_none hnone,
    packetSplitter.rest_of_none hnone, List.append_nil]
  exact ⟨rfl, rfl⟩

/-! ### The client -/

namespace NetManagerClient

/-- What the client cuts off is what the servers cut off. -/
theorem readMessage_eq (build : Build) (heap : ℕ → UInt8) (s : List UInt8)
    (pktQueue : List PacketC) :
    readMessage build heap s pktQueue =
      .ok (packetSplitter.rest s, pktQueue ++ (packetSplitter.frames s).map PacketC.ofFrame,
        stopError (packetSplitter.rest s)) := by
  induction s using packetSplitter.cut_induction generalizing pktQueue with
  | stop s h =>
    rw [packetSplitter.rest_of_none h, packetSplitter.frames_of_none h, List.map_nil,
      List.append_nil, readMessage, stopError]
    -- the loop is left: too few bytes for a length, a length no frame has, or a part of a frame
    dsimp only
    split
    · next hshort => rw [if_neg (by omega)]
    · next hshort =>
      split
      · next hbad => rw [if_pos ⟨by omega, hbad⟩]
      · next hbad =>
        rw [dif_neg (Nat.not_le.mpr (length_lt_of_stop h hbad)),
          if_neg fun hstop => hbad hstop.2]
  | cut s n h ih =>
    -- the loop takes the first frame and goes on behind it
    have hframe : packetSplitter.IsFrame (s.take n) := by
      apply packetSplitter.isFrame_of_mem (s := s)
      rw [packetSplitter.frames_of_some h]
      exact List.mem_cons_self
    have hread := readMessage_frame build heap (packetSplitter_isFrame.mp hframe) (s.drop n) pktQueue
    rw [List.take_append_drop] at hread
    rw [hread, ih, packetSplitter.rest_of_some h, packetSplitter.frames_of_some h, List.map_cons,
      List.append_assoc]
    rfl

variable {σ : Type}

/-- Some bytes arrive at the client. What the loop over the queue does with a packet is a
    parameter: `processPacket`, and anything where that leaves a buffer. -/
def arrive (build : Build) (heap : ℕ → UInt8) (process : σ → PacketC → Except Fault σ)
    (st : List UInt8 × σ) (chunk : List UInt8) : Except Fault (List UInt8 × σ) := do
  let (evbuf, pktQueue, _) ← readMessage build heap (st.1 ++ chunk) []
  let s ← pktQueue.foldlM process st.2
  return (evbuf, s)

/-- With `processPacket` it is what `ProcessMessage` does. -/
theorem arrive_processPacket (build : Build) (adler32 : List UInt8 → UInt32) (heap : ℕ → UInt8)
    (channel : NetChannel) (deliver : Dispatch → σ → Except Fault σ) (st : List UInt8 × σ)
    (chunk : List UInt8) :
    arrive build heap (processPacket adler32 channel deliver) st chunk =
      processMessage build adler32 heap channel deliver (st.1 ++ chunk) [] st.2 := rfl

theorem arrive_eq (build : Build) (heap : ℕ → UInt8) (process : σ → PacketC → Except Fault σ)
    (st : List UInt8 × σ) (chunk : List UInt8) :
    arrive build heap process st chunk =
      (((packetSplitter.frames (st.1 ++ chunk)).map PacketC.ofFrame).foldlM process st.2 >>=
        fun s => .ok (packetSplitter.rest (st.1 ++ chunk), s)) := by
  rw [arrive, readMessage_eq, ok_bind, List.nil_append]
  rfl

/-- An arrival without a complete frame. -/
theorem arrive_of_none (build : Build) (heap : ℕ → UInt8) (process : σ → PacketC → Except Fault σ)
    {st : List UInt8 × σ} {chunk : List UInt8} (h : packetSplitter.next (st.1 ++ chunk) = none) :
    arrive build heap process st chunk = .ok (st.1 ++ chunk, st.2) := by
  rw [arrive_eq, packetSplitter.frames_of_none h, packetSplitter.rest_of_none h]
  rfl

/-- What is unread after an arrival does not depend on what is done with the packets. -/
theorem arrive_evbuf {build : Build} {heap : ℕ → UInt8} {process : σ → PacketC → Except Fault σ}
    {st st' : List UInt8 × σ} {chunk : List UInt8}
    (h : arrive build heap process st chunk = .ok st') :
    st'.1 = packetSplitter.rest (st.1 ++ chunk) := by
  rw [arrive_eq] at h
  obtain ⟨s, -, h⟩ := bind_eq_ok.mp h
  cases h
  rfl

/-- After a run, the rest of the stream is unread. -/
theorem run_evbuf {build : Build} {heap : ℕ → UInt8} {process : σ → PacketC → Except Fault σ}
    {s₀ : σ} {chunks : List (List UInt8)} {st : List UInt8 × σ}
    (h : chunks.foldlM (arrive build heap process) ([], s₀) = .ok st) :
    st.1 = packetSplitter.rest chunks.flatten := by
  have hstep : ∀ (past : List (List UInt8)) (st : List UInt8 × σ) (chunk : List UInt8)
      (st' : List UInt8 × σ), st.1 = packetSplitter.rest past.flatten →
      arrive build heap process st chunk = .ok st' →
      st'.1 = packetSplitter.rest (past ++ [chunk]).flatten := by
    intro past st chunk st' hpast harrive
    rw [arrive_evbuf harrive, hpast, List.flatten_append, List.flatten_singleton,
      ← packetSplitter.rest_append]
  have hnil : packetSplitter.rest [] = [] := packetSplitter.rest_of_none packetSplitter.next_nil
  exact @Run.foldlM_preserves _ _ _ (arrive build heap process)
    (fun past st => st.1 = packetSplitter.rest past.flatten) ([], s₀) hnil.symm hstep chunks st h

end NetManagerClient

/-! ### Runs -/

/-- Every run of a server, with any number of channels and any interleaving of their chunks, and
    every run of the client: the unread bytes of a channel are the beginning of a frame, and then
    fewer than `MAX_PACKET_SIZE`, exactly if all lengths in the stream of the channel are legal. -/
theorem unread_begun_iff {κ : Type} [DecidableEq κ] (build : Build) (adler32 : List UInt8 → UInt32)
    (heap : ℕ → UInt8) (overread : Packet → Packet × Bool) (peerType : PeerType)
    (side : κ → Side) :
    (∀ (arrivals : List (κ × List UInt8)) (st : Channels κ),
      arrivals.foldlM (arrive build adler32 heap overread peerType side) (Channels.empty κ) =
        .ok st →
      ∀ c, ((FrameBegun (st.evbuf c) ∧ (st.evbuf c).length < maxPacketSize) ↔
        LegalLengths (streamOf c arrivals))) ∧
    ∀ (σ : Type) (process : σ → PacketC → Except Fault σ) (s₀ : σ) (chunks : List (List UInt8))
      (st : List UInt8 × σ),
      chunks.foldlM (NetManagerClient.arrive build heap process) ([], s₀) = .ok st →
      ((FrameBegun st.1 ∧ st.1.length < maxPacketSize) ↔ LegalLengths chunks.flatten) := by
  have hiff : ∀ s, (FrameBegun (packetSplitter.rest s) ∧
      (packetSplitter.rest s).length < maxPacketSize) ↔ LegalLengths s := by
    intro s
    rw [← frameBegun_rest_iff]
    exact and_iff_left_of_imp FrameBegun.length_lt
  constructor
  · intro arrivals st hrun c
    have h := handedOver_of_run build adler32 heap overread peerType side hrun
    rw [h.evbuf c]
    exact hiff _
  · intro σ process s₀ chunks st hrun
    rw [NetManagerClient.run_evbuf hrun]
    exact hiff _

/-- A length, and then one of the three bytes that it announces behind it. -/
theorem unread_begun_iff_threeBytes :
    (∃ st, [((), [0]), ((), [5, 7])].foldlM
        (arrive .debug Adler32.adler32 (fun _ => 0) (fun pkt => (pkt, false)) .worldserver
          fun _ => .backEnd) (Channels.empty Unit) = .ok st ∧ FrameBegun (st.evbuf ())) ∧
    ∃ st, [[0], [5, 7]].foldlM (NetManagerClient.arrive .debug (fun _ => 0)
        fun (s : Unit) _ => .ok s) ([], ()) = .ok st ∧ FrameBegun st.1 := by
  obtain ⟨hserver, hclient⟩ := unread_begun_iff .debug Adler32.adler32 (fun _ => 0)
    (fun pkt => (pkt, false)) .worldserver fun _ : Unit => .backEnd
  have hnone : packetSplitter.next [0, 5, 7] = none := by decide
  have hlegal : LegalLengths [0, 5, 7] := by
    rw [← frameBegun_rest_iff, packetSplitter.rest_of_none hnone]
    decide
  obtain ⟨st, hst, -⟩ := exists_handedOver_of_server .debug Adler32.adler32 (fun _ => 0)
    (fun pkt => (pkt, false)) .worldserver (fun _ : Unit => .backEnd) (fun _ => rfl)
    [((), [0]), ((), [5, 7])]
  have hrun : [[0], [5, 7]].foldlM (NetManagerClient.arrive .debug (fun _ => 0)
      fun (s : Unit) _ => .ok s) ([], ()) = .ok ([0, 5, 7], ()) := by
    have hfirst := @NetManagerClient.arrive_of_none Unit .debug (fun _ => 0) (fun s _ => .ok s)
      ([], ()) [0] (by decide)
    have hsecond := @NetManagerClient.arrive_of_none Unit .debug (fun _ => 0) (fun s _ => .ok s)
      ([0], ()) [5, 7] hnone
    rw [List.foldlM_cons, hfirst, ok_bind]
    change [[5, 7]].foldlM _ ([0], ()) = _
    rw [List.foldlM_cons, hsecond]
    rfl
  exact ⟨⟨st, hst, ((hserver _ st hst ()).mpr hlegal).1⟩,
    ⟨_, hrun, ((hclient Unit _ () _ _ hrun).mpr hlegal).1⟩⟩

/-- Two zeros announce less than themselves. They stay unread, at a server and at the client. -/
theorem not_begun_zeroLength :
    (∃ st, [((), [0, 0])].foldlM
        (arrive .debug Adler32.adler32 (fun _ => 0) (fun pkt => (pkt, false)) .worldserver
          fun _ => .backEnd) (Channels.empty Unit) = .ok st ∧ st.evbuf () = [0, 0]) ∧
    [[0, 0]].foldlM (NetManagerClient.arrive .debug (fun _ => 0)
        fun (s : Unit) _ => .ok s) ([], ()) = .ok ([0, 0], ()) ∧
    ¬ FrameBegun [0, 0] := by
  have hnone : packetSplitter.next [0, 0] = none := by decide
  obtain ⟨st, hst, hover⟩ := exists_handedOver_of_server .debug Adler32.adler32 (fun _ => 0)
    (fun pkt => (pkt, false)) .worldserver (fun _ : Unit => .backEnd) (fun _ => rfl)
    [((), [0, 0])]
  refine ⟨⟨st, hst, (hover.evbuf ()).trans (packetSplitter.rest_of_none hnone)⟩, ?_, by decide⟩
  have harrive := @NetManagerClient.arrive_of_none Unit .debug (fun _ => 0) (fun s _ => .ok s)
    ([], ()) [0, 0] hnone
  rw [List.foldlM_cons, harrive]
  rfl

end TerraX
