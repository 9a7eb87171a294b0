import TerraX.Base.RingBuffer
import TerraX.Lib.Run

/-!
# The ring buffer as a queue

Runs of `write`, `read` and `peek` on a new buffer. With counters modulo `2 ^ 32` the buffer is a
bounded queue, however often its counters wrap. With signed overflow undefined it is one for as
long as the bytes written so far can be counted.

## Main definitions

- `RingOp`, `RingLog` — a call, and what the calls of a run accepted and delivered
- `RingLog.Sees` — the buffer holds what was accepted and not yet delivered
- `RingOp.Within` — calls that ask for no more than there is
- `pump` — a long run

## Main results

- `fifo_of_run` — a run with counters modulo `2 ^ 32`
- `overflow_free_iff` — the runs in which no signed operation overflows
-/

namespace TerraX

open Memory SignedInt

/-- A call, with the caller's array and the length. -/
inductive RingOp
  | write (data : List UInt8) (len : ℕ)
  | read (data : List UInt8) (len : ℕ)
  | peek (data : List UInt8) (len : ℕ)
deriving DecidableEq, Repr

/-- A buffer, with the bytes that its writes took and those that its reads gave so far. -/
structure RingLog where
  rb : RingBuffer
  accepted : List UInt8 := []
  delivered : List UInt8 := []
deriving DecidableEq, Repr

namespace RingOp

/-- The array has as many bytes as the call says, and that is an integer. -/
def Sound : RingOp → Prop
  | write data len => len ≤ data.length ∧ (len : ℤ) ≤ intMax
  | read data len => len ≤ data.length ∧ (len : ℤ) ≤ intMax
  | peek data len => len ≤ data.length ∧ (len : ℤ) ≤ intMax

/-- A call. What is written or read is cut to the writable or readable size. -/
def apply (overflow : Overflow) (build : Build) (s : RingLog) : RingOp → Except IntFault RingLog
  | write data len => do
    let writable ← s.rb.writableSize overflow
    let rb ← s.rb.write overflow build data len
    return { s with rb, accepted := s.accepted ++ data.take (min len writable.toNat) }
  | read data len => do
    let readable ← s.rb.readableSize overflow
    let (rb, data) ← s.rb.read overflow build data len
    return { s with rb, delivered := s.delivered ++ data.take (min len readable.toNat) }
  | peek data len => do
    let (rb, _) ← s.rb.peek overflow build data len
    return { s with rb }

end RingOp

/-- A run on a new buffer. -/
def runRing (overflow : Overflow) (build : Build) (heap : ℕ → UInt8) (size : ℤ) (ops : List RingOp) :
    Except IntFault RingLog := do
  let rb ← RingBuffer.new build heap size
  ops.foldlM (RingOp.apply overflow build) { rb }

/-- The buffer holds what was accepted and not yet delivered. -/
structure RingLog.Sees (s : RingLog) (k : ℕ) (queue : List UInt8) : Prop where
  accepted : s.accepted = s.delivered ++ queue
  holds : s.rb.Holds k queue

/-! ### A step -/

namespace RingBuffer

variable {rb : RingBuffer} {k : ℕ} {queue : List UInt8} (h : rb.Holds k queue)
include h

/-- After a write the new counter is right modulo `2 ^ 32`. -/
theorem Holds.written {buffer added : List UInt8} (hlen : buffer.length = 2 ^ k)
    (hqueue : queue ++ added <+: buffer.rotate (index k rb.out_)) {c : ℤ} (hfits : Fits c)
    (hc : c % 2 ^ 32 = (rb.in_ + added.length) % 2 ^ 32)
    (hroom : queue.length + added.length ≤ 2 ^ k) :
    Holds { rb with buffer, in_ := c } k (queue ++ added) where
  size := h.size
  length := hlen
  fits_in := hfits
  fits_out := h.fits_out
  count := by
    have hcount := h.count
    rw [hc, List.length_append]
    push_cast
    omega
  room := by rwa [List.length_append]
  queue := hqueue

theorem Holds.taken (hk : k ≤ 30) {n : ℕ} {c : ℤ} (hfits : Fits c)
    (hc : c % 2 ^ 32 = (rb.out_ + n) % 2 ^ 32) (hn : n ≤ queue.length) :
    Holds { rb with out_ := c } k (queue.drop n) where
  size := h.size
  length := h.length
  fits_in := h.fits_in
  fits_out := hfits
  count := by
    have hcount := h.count
    show rb.in_ % 2 ^ 32 = (c + _) % 2 ^ 32
    rw [List.length_drop]
    omega
  room := by
    have hroom := h.room
    rw [List.length_drop]
    omega
  queue := by
    show _ <+: rb.buffer.rotate (index k c)
    rw [rotate_index hk h.length hc]
    exact Ring.pop h.queue n hn

/-! ### Counters modulo `2 ^ 32` -/

variable (hk : k ≤ 30)
include hk

theorem readableSize_wraps : rb.readableSize .wraps = .ok queue.length := by
  obtain ⟨hle, -, -⟩ := two_pow_fits hk
  have hcount := h.count
  have hroom := h.room
  rw [readableSize, int]
  congr 1
  unfold int32
  omega

theorem writableSize_wraps : rb.writableSize .wraps = .ok (2 ^ k - queue.length : ℕ) := by
  obtain ⟨hle, -, hcast⟩ := two_pow_fits hk
  have hcount := h.count
  have hroom := h.room
  have hsize := h.size
  rw [writableSize, int, bind_ok, int]
  congr 1
  unfold int32
  omega

theorem write_wraps {data : List UInt8} {len : ℕ} (hdata : len ≤ data.length) :
    ∃ rb', rb.write .wraps .release data len = .ok rb' ∧
      rb'.Holds k (queue ++ data.take (min len (2 ^ k - queue.length))) := by
  have hroom := h.room
  have hassert : Build.release = .debug → len ≤ 2 ^ k - queue.length := fun hdebug => nomatch hdebug
  obtain ⟨buffer, hlen, hqueue, hwrite⟩ :=
    write_eq .wraps hk h (writableSize_wraps h hk) hdata hassert
  have htake : (data.take (min len (2 ^ k - queue.length))).length =
      min len (2 ^ k - queue.length) := by
    rw [List.length_take]
    omega
  refine ⟨_, hwrite, h.written hlen hqueue (fits_int32 _) ?_ (by omega)⟩
  rw [htake]
  unfold int32
  omega

/-- What `read` and `peek` return is the front of the queue, and the rest of the caller's array. -/
theorem read_wraps {data : List UInt8} {len : ℕ} (hdata : len ≤ data.length) :
    (∃ rb', rb.read .wraps .release data len =
        .ok (rb', queue.take len ++ data.drop (min len queue.length)) ∧
      rb'.Holds k (queue.drop (min len queue.length))) ∧
    rb.peek .wraps .release data len =
      .ok (rb, queue.take len ++ data.drop (min len queue.length)) := by
  have hassert : Build.release = .debug → len ≤ queue.length := fun hdebug => nomatch hdebug
  have hcopy := copyOut_eq .wraps hk h (readableSize_wraps h hk) hdata hassert
  constructor
  · refine ⟨{ rb with out_ := int32 (rb.out_ + (min len queue.length : ℕ)) }, ?_,
      h.taken hk (fits_int32 _) ?_ (Nat.min_le_right _ _)⟩
    · rw [read, hcopy]
      rfl
    · unfold int32
      omega
  · rw [peek, hcopy]
    rfl

end RingBuffer

/-- The bytes of a read that were in the queue. -/
theorem take_read (queue data : List UInt8) (len : ℕ) :
    (queue.take len ++ data.drop (min len queue.length)).take (min len queue.length) =
      queue.take (min len queue.length) := by
  have hlen : (queue.take len).length = min len queue.length := List.length_take
  rw [List.take_append_of_le_length hlen.ge, ← hlen, List.take_length, hlen, List.take_eq_take_min]

/-- One call keeps what the buffer holds and the log in step. -/
theorem RingLog.Sees.apply {s : RingLog} {k : ℕ} {queue : List UInt8} (hk : k ≤ 30)
    (h : s.Sees k queue) {op : RingOp} (hop : op.Sound) :
    ∃ s' queue', op.apply .wraps .release s = .ok s' ∧ s'.Sees k queue' := by
  obtain ⟨haccepted, hholds⟩ := h
  cases op with
  | write data len =>
    obtain ⟨rb', hwrite, hholds'⟩ := RingBuffer.write_wraps hholds hk hop.1
    refine ⟨⟨rb', s.accepted ++ data.take (min len (2 ^ k - queue.length)), s.delivered⟩,
      queue ++ data.take (min len (2 ^ k - queue.length)), ?_, ?_, hholds'⟩
    · rw [RingOp.apply, RingBuffer.writableSize_wraps hholds hk, bind_ok, hwrite]
      rfl
    · show s.accepted ++ _ = s.delivered ++ _
      rw [haccepted, List.append_assoc]
  | read data len =>
    obtain ⟨⟨rb', hread, hholds'⟩, -⟩ := RingBuffer.read_wraps hholds hk hop.1
    refine ⟨⟨rb', s.accepted, s.delivered ++ queue.take (min len queue.length)⟩,
      queue.drop (min len queue.length), ?_, ?_, hholds'⟩
    · rw [RingOp.apply, RingBuffer.readableSize_wraps hholds hk, bind_ok, hread, ← take_read]
      rfl
    · show s.accepted = (s.delivered ++ _) ++ _
      rw [haccepted, List.append_assoc, List.take_append_drop]
  | peek data len =>
    obtain ⟨-, hpeek⟩ := RingBuffer.read_wraps hholds hk hop.1
    refine ⟨s, queue, ?_, haccepted, hholds⟩
    rw [RingOp.apply, hpeek]
    rfl

/-- Every run on a buffer whose size is a power of two, with counters modulo `2 ^ 32` and calls that
    are cut to what there is. It returns, so no copy leaves the buffer or the caller's arrays. What
    was delivered is the beginning of what was accepted; what is readable is the rest, and what is
    writable is missing to the size. A further `peek` changes nothing and returns what a `read`
    would, and that is the front of the rest. -/
theorem fifo_of_run (build : Build) (heap : ℕ → UInt8) (k : ℕ) (hk : k ≤ 30) (ops : List RingOp)
    (hops : ∀ op ∈ ops, op.Sound) :
    (∃ rb, RingBuffer.new build heap (2 ^ k) = .ok rb) ∧
    ∃ s, runRing .wraps .release heap (2 ^ k) ops = .ok s ∧
      ∃ rest writable, s.accepted = s.delivered ++ rest ∧
        s.rb.readableSize .wraps = .ok (rest.length : ℕ) ∧
        s.rb.writableSize .wraps = .ok writable ∧
        rest.length + writable = s.rb.bufferSize ∧ s.rb.bufferSize = 2 ^ k ∧
        ∀ data len, (RingOp.peek data len).Sound → ∃ rb' bytes,
          s.rb.peek .wraps .release data len = .ok (s.rb, bytes) ∧
          s.rb.read .wraps .release data len = .ok (rb', bytes) ∧
          bytes = rest.take len ++ data.drop (min len rest.length) := by
  obtain ⟨rb, hnew, -⟩ := RingBuffer.new_eq hk build heap
  obtain ⟨rb₀, hnew₀, -, -, hholds⟩ := RingBuffer.new_eq hk .release heap
  refine ⟨⟨rb, hnew⟩, ?_⟩
  obtain ⟨s, hs, queue, hsees⟩ := @Run.foldlM_invariant_of _ _ _ (RingOp.apply .wraps .release)
    (fun _ s => ∃ queue, s.Sees k queue) RingOp.Sound { rb := rb₀ } ⟨[], rfl, hholds⟩
    (fun _ s op hop ⟨queue, hsees⟩ => by
      obtain ⟨s', queue', happly, hsees'⟩ := hsees.apply hk hop
      exact ⟨s', happly, queue', hsees'⟩) ops hops
  have hroom := hsees.holds.room
  obtain ⟨-, -, hcast⟩ := RingBuffer.two_pow_fits hk
  refine ⟨s, by rw [runRing, hnew₀, bind_ok, hs], queue, (2 ^ k - queue.length : ℕ), hsees.accepted,
    RingBuffer.readableSize_wraps hsees.holds hk, RingBuffer.writableSize_wraps hsees.holds hk, ?_,
    hsees.holds.size, fun data len hsound => ?_⟩
  · rw [RingBuffer.bufferSize, hsees.holds.size]
    omega
  · obtain ⟨⟨rb', hread, -⟩, hpeek⟩ := RingBuffer.read_wraps hsees.holds hk hsound.1
    exact ⟨rb', _, hpeek, hread, rfl⟩

/-- Four bytes go around a buffer of four, and a request for more is cut. -/
theorem fifo_of_run_four :
    ∃ s, runRing .wraps .release (fun _ => 0) 4 [.write [1, 2, 3] 3, .read [0, 0] 2, .write [4, 5, 6, 7] 4,
        .peek [0] 1, .read [0, 0, 0] 3] = .ok s ∧
      s.accepted = [1, 2, 3, 4, 5, 6] ∧ s.delivered = [1, 2, 3, 4, 5] := by
  obtain ⟨-, s, hs, -⟩ := fifo_of_run .release (fun _ => 0) 2 (by decide)
    [.write [1, 2, 3] 3, .read [0, 0] 2, .write [4, 5, 6, 7] 4, .peek [0] 1, .read [0, 0, 0] 3]
    (by simp [RingOp.Sound, intMax])
  obtain ⟨t, ht, haccepted, hdelivered⟩ : ∃ t, runRing .wraps .release (fun _ => 0) (2 ^ 2)
      [.write [1, 2, 3] 3, .read [0, 0] 2, .write [4, 5, 6, 7] 4, .peek [0] 1, .read [0, 0, 0] 3] =
        .ok t ∧ t.accepted = [1, 2, 3, 4, 5, 6] ∧ t.delivered = [1, 2, 3, 4, 5] := ⟨_, rfl, rfl, rfl⟩
  cases hs.symm.trans ht
  exact ⟨s, hs, haccepted, hdelivered⟩

/-! ### Counters that must not overflow -/

namespace RingOp

/-- A call that asks for no more than there is, when `n` bytes are in a buffer of `2 ^ k`. -/
def Within (k n : ℕ) : RingOp → Prop
  | write data len => len ≤ data.length ∧ n + len ≤ 2 ^ k
  | read data len => len ≤ data.length ∧ len ≤ n
  | peek data len => len ≤ data.length ∧ len ≤ n

instance (k n : ℕ) (op : RingOp) : Decidable (op.Within k n) := by
  cases op <;> unfold Within <;> infer_instance

/-- The number of bytes in the buffer after such a call. -/
def after (n : ℕ) : RingOp → ℕ
  | write _ len => n + len
  | read _ len => n - len
  | peek _ _ => n

/-- The bytes that such a call writes. -/
def written : RingOp → ℕ
  | write _ len => len
  | read _ _ => 0
  | peek _ _ => 0

end RingOp

/-- The calls of a run ask for no more than there is. -/
def RunWithin (k : ℕ) : ℕ → List RingOp → Prop
  | _, [] => True
  | n, op :: ops => op.Within k n ∧ RunWithin k (op.after n) ops

/-- The bytes that a run writes. -/
def writtenBy (ops : List RingOp) : ℕ := (ops.map RingOp.written).sum

/-- The counters are the numbers of bytes that were written and read, `w` of them written. -/
structure RingLog.Counts (s : RingLog) (k : ℕ) (queue : List UInt8) (w : ℕ) : Prop where
  sees : s.Sees k queue
  in_ : s.rb.in_ = w
  out_ : s.rb.out_ = w - queue.length
  le : queue.length ≤ w

namespace RingLog.Counts

variable {s : RingLog} {k : ℕ} {queue : List UInt8} {w : ℕ} (h : s.Counts k queue w) (hk : k ≤ 30)
include h hk

/-- Neither `readable_size` nor `writable_size` overflows. -/
theorem sizes : s.rb.readableSize .undefined = .ok queue.length ∧
    s.rb.writableSize .undefined = .ok (2 ^ k - queue.length : ℕ) := by
  obtain ⟨⟨-, hholds⟩, hin, hout, hw⟩ := h
  obtain ⟨hle, -, hcast⟩ := RingBuffer.two_pow_fits hk
  have hroom := hholds.room
  have hsize := hholds.size
  have hcounter := hholds.fits_in
  unfold Fits intMax at hcounter
  have hreadable : Fits (s.rb.in_ - s.rb.out_) := by
    unfold Fits intMax
    omega
  -- the difference in between fits, too, since no counter is negative
  have hsub : Fits (s.rb.size - s.rb.in_) := by
    unfold Fits intMax
    omega
  have hwritable : Fits (s.rb.size - s.rb.in_ + s.rb.out_) := by
    unfold Fits intMax
    omega
  constructor
  · rw [RingBuffer.readableSize, int_of_fits _ hreadable]
    congr 1
    omega
  · rw [RingBuffer.writableSize, int_of_fits _ hsub, bind_ok, int_of_fits _ hwritable]
    congr 1
    omega

variable (build : Build) {data : List UInt8} {len : ℕ} (hdata : len ≤ data.length)
include hdata

/-- A write overflows exactly if the bytes written so far cannot be counted any more. -/
theorem write (hroom : queue.length + len ≤ 2 ^ k) :
    ((w + len : ℕ) ≤ intMax → ∃ s', (RingOp.write data len).apply .undefined build s = .ok s' ∧
      s'.Counts k (queue ++ data.take len) (w + len)) ∧
    (intMax < (w + len : ℕ) →
      (RingOp.write data len).apply .undefined build s = .error (.overflow (w + len : ℕ))) := by
  obtain ⟨-, hwritable⟩ := h.sizes hk
  obtain ⟨⟨haccepted, hholds⟩, hin, hout, hw⟩ := h
  have hassert : build = .debug → len ≤ 2 ^ k - queue.length := fun _ => by omega
  obtain ⟨buffer, hlen, hqueue, hwrite⟩ :=
    RingBuffer.write_eq .undefined hk hholds hwritable hdata hassert
  -- the call is not cut
  have hmin : min len (2 ^ k - queue.length) = len := by omega
  have htake : (data.take len).length = len := by
    rw [List.length_take]
    omega
  have hsum : s.rb.in_ + len = (w + len : ℕ) := by
    push_cast
    rw [hin]
  rw [hmin, hsum] at hwrite
  rw [hmin] at hqueue
  rw [RingOp.apply, hwritable, bind_ok, hwrite]
  constructor
  · intro hnext
    have hfits : Fits (w + len : ℕ) := by
      unfold Fits
      omega
    refine ⟨⟨{ s.rb with buffer, in_ := (w + len : ℕ) }, s.accepted ++ data.take len, s.delivered⟩,
      ?_, ⟨?_, ?_⟩, rfl, ?_, ?_⟩
    · rw [int_of_fits _ hfits, bind_ok, bind_ok, Int.toNat_natCast, hmin]
      rfl
    · show s.accepted ++ _ = s.delivered ++ _
      rw [haccepted, List.append_assoc]
    · refine hholds.written hlen hqueue hfits ?_ (by omega)
      rw [htake, hsum]
    · show s.rb.out_ = _
      rw [List.length_append, htake, hout]
      push_cast
      omega
    · rw [List.length_append, htake]
      omega
  · intro hnext
    have hnot : ¬ Fits (w + len : ℕ) := by
      unfold Fits
      omega
    rw [int_undefined_of_not_fits hnot]
    rfl

theorem read (hroom : len ≤ queue.length) :
    ∃ s', (RingOp.read data len).apply .undefined build s = .ok s' ∧
      s'.Counts k (queue.drop len) w := by
  obtain ⟨hreadable, -⟩ := h.sizes hk
  obtain ⟨⟨haccepted, hholds⟩, hin, hout, hw⟩ := h
  have hcopy := RingBuffer.copyOut_eq .undefined hk hholds hreadable hdata fun (_ : build = .debug) => hroom
  have hmin : min len queue.length = len := by omega
  have htake := take_read queue data len
  rw [hmin] at hcopy htake
  have hcounter := hholds.fits_in.2
  have hfits : Fits (s.rb.out_ + len) := by
    unfold Fits
    omega
  have hread : s.rb.read .undefined build data len =
      .ok ({ s.rb with out_ := s.rb.out_ + len }, queue.take len ++ data.drop len) := by
    rw [RingBuffer.read, hcopy, bind_ok]
    dsimp only
    rw [int_of_fits _ hfits]
    rfl
  refine ⟨⟨{ s.rb with out_ := s.rb.out_ + len }, s.accepted, s.delivered ++ queue.take len⟩,
    ?_, ⟨?_, hholds.taken hk hfits rfl hroom⟩, hin, ?_, ?_⟩
  · rw [RingOp.apply, hreadable, bind_ok, hread, bind_ok, Int.toNat_natCast, hmin]
    dsimp only
    rw [htake]
    rfl
  · show s.accepted = (s.delivered ++ _) ++ _
    rw [haccepted, List.append_assoc, List.take_append_drop]
  · show s.rb.out_ + len = _
    rw [List.length_drop, hout]
    omega
  · rw [List.length_drop]
    omega

theorem peek (hroom : len ≤ queue.length) :
    (RingOp.peek data len).apply .undefined build s = .ok s := by
  obtain ⟨hreadable, -⟩ := h.sizes hk
  have hcopy := RingBuffer.copyOut_eq .undefined hk h.sees.holds hreadable hdata
    fun (_ : build = .debug) => hroom
  rw [RingOp.apply, RingBuffer.peek, hcopy]
  rfl

omit hdata in
/-- One call within the bounds. -/
theorem apply {op : RingOp} (hop : op.Within k queue.length) :
    ((w + op.written : ℕ) ≤ intMax → ∃ s' queue', op.apply .undefined build s = .ok s' ∧
      s'.Counts k queue' (w + op.written) ∧ queue'.length = op.after queue.length) ∧
    (intMax < (w + op.written : ℕ) →
      ∃ z, op.apply .undefined build s = .error (.overflow z)) := by
  have hcounter : (w : ℤ) ≤ intMax := h.in_ ▸ h.sees.holds.fits_in.2
  cases op with
  | write data len =>
    obtain ⟨hok, herror⟩ := h.write hk build hop.1 hop.2
    refine ⟨fun hnext => ?_, fun hnext => ⟨_, herror hnext⟩⟩
    obtain ⟨s', happly, hcounts⟩ := hok hnext
    refine ⟨s', _, happly, hcounts, ?_⟩
    rw [List.length_append, List.length_take, Nat.min_eq_left hop.1]
    rfl
  | read data len =>
    obtain ⟨s', happly, hcounts⟩ := h.read hk build hop.1 hop.2
    exact ⟨fun _ => ⟨s', _, happly, hcounts, List.length_drop⟩,
      fun hnext => absurd hcounter (not_le.mpr hnext)⟩
  | peek data len =>
    exact ⟨fun _ => ⟨s, queue, h.peek hk build hop.1 hop.2, h, rfl⟩,
      fun hnext => absurd hcounter (not_le.mpr hnext)⟩

omit hdata in
/-- A run within the bounds returns if all bytes that it writes can be counted, and overflows if
    they cannot. -/
theorem run {ops : List RingOp} (hops : RunWithin k queue.length ops) :
    ((w + writtenBy ops : ℕ) ≤ intMax →
      ∃ s', ops.foldlM (RingOp.apply .undefined build) s = .ok s') ∧
    (intMax < (w + writtenBy ops : ℕ) →
      ∃ z, ops.foldlM (RingOp.apply .undefined build) s = .error (.overflow z)) := by
  induction ops generalizing s queue w with
  | nil =>
    have hcounter : (w : ℤ) ≤ intMax := h.in_ ▸ h.sees.holds.fits_in.2
    exact ⟨fun _ => ⟨s, rfl⟩, fun hlt => absurd hcounter (not_le.mpr hlt)⟩
  | cons op ops ih =>
    obtain ⟨hop, hrest⟩ := hops
    obtain ⟨hok, herror⟩ := h.apply hk build hop
    have hsum : w + writtenBy (op :: ops) = w + op.written + writtenBy ops := by
      rw [writtenBy, List.map_cons, List.sum_cons, Nat.add_assoc]
      rfl
    rw [List.foldlM_cons, hsum]
    by_cases hnext : ((w + op.written : ℕ) : ℤ) ≤ intMax
    · obtain ⟨s', queue', happly, hcounts, hlen⟩ := hok hnext
      rw [happly, bind_ok]
      exact ih hcounts (by rwa [hlen])
    · obtain ⟨z, hz⟩ := herror (not_le.mp hnext)
      rw [hz]
      refine ⟨fun hle => absurd ?_ hnext, fun _ => ⟨z, rfl⟩⟩
      push_cast at hle ⊢
      omega

end RingLog.Counts

/-- The exact runs within the bounds in which no signed operation overflows: those that write no more
    than `INT_MAX` bytes. The counter `in_` is the number of all bytes ever written. -/
theorem overflow_free_iff (build : Build) (heap : ℕ → UInt8) (k : ℕ) (hk : k ≤ 30) (ops : List RingOp)
    (hops : RunWithin k 0 ops) :
    ((∀ z, runRing .undefined build heap (2 ^ k) ops ≠ .error (.overflow z)) ↔
      (writtenBy ops : ℤ) ≤ intMax) ∧
    ((writtenBy ops : ℤ) ≤ intMax → ∃ s, runRing .undefined build heap (2 ^ k) ops = .ok s) := by
  obtain ⟨rb, hnew, hin, hout, hholds⟩ := RingBuffer.new_eq hk build heap
  have hcounts : RingLog.Counts { rb } k [] 0 := ⟨⟨rfl, hholds⟩, hin, hout, le_rfl⟩
  obtain ⟨hok, herror⟩ := hcounts.run hk build hops
  rw [Nat.zero_add] at hok herror
  have hrun : runRing .undefined build heap (2 ^ k) ops =
      ops.foldlM (RingOp.apply .undefined build) { rb } := by
    rw [runRing, hnew, bind_ok]
  rw [hrun]
  refine ⟨⟨fun hnone => ?_, fun hle z hz => ?_⟩, hok⟩
  · by_contra hlt
    obtain ⟨z, hz⟩ := herror (not_le.mp hlt)
    exact hnone z hz
  · obtain ⟨s, hs⟩ := hok hle
    rw [hs] at hz
    cases hz

/-- Two bytes in and out of a buffer of two, again and again. -/
def pump : ℕ → List RingOp
  | 0 => []
  | n + 1 => .write [1, 2] 2 :: .read [0, 0] 2 :: pump n

theorem runWithin_pump (n : ℕ) : RunWithin 1 0 (pump n) := by
  induction n with
  | zero => trivial
  | succ n ih => exact ⟨⟨le_rfl, le_rfl⟩, ⟨le_rfl, le_rfl⟩, ih⟩

theorem writtenBy_pump (n : ℕ) : writtenBy (pump n) = 2 * n := by
  induction n with
  | zero => rfl
  | succ n ih =>
    rw [writtenBy] at ih ⊢
    rw [pump, List.map_cons, List.map_cons, List.sum_cons, List.sum_cons, ih]
    show 2 + (0 + 2 * n) = _
    omega

/-- A run that writes five bytes. -/
theorem overflow_free_iff_four :
    ∃ s, runRing .undefined .debug (fun _ => 0) (2 ^ 2)
      [.write [1, 2, 3] 3, .read [0, 0] 2, .write [4, 5] 2] = .ok s :=
  (overflow_free_iff .debug (fun _ => 0) 2 (by decide)
    [.write [1, 2, 3] 3, .read [0, 0] 2, .write [4, 5] 2]
    ⟨by decide, by decide, by decide, trivial⟩).2 (by decide)

/-- After `2 ^ 30` rounds with two bytes each, `in_` has left the range of integers. -/
theorem overflow_of_pump :
    RunWithin 1 0 (pump (2 ^ 30)) ∧
      ∃ z, runRing .undefined .debug (fun _ => 0) 2 (pump (2 ^ 30)) = .error (.overflow z) := by
  have hiff := (overflow_free_iff .debug (fun _ => 0) 1 (by decide) (pump (2 ^ 30))
    (runWithin_pump _)).1
  have hlt : ¬ (2 * 2 ^ 30 : ℕ) ≤ intMax := by decide
  rw [writtenBy_pump] at hiff
  refine ⟨runWithin_pump _, ?_⟩
  by_contra hnone
  push Not at hnone
  exact hlt (hiff.mp hnone)

end TerraX
