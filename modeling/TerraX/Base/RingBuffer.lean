import TerraX.Lib.Ring
import TerraX.Lib.SignedInt
import Mathlib.Data.Int.ModEq
import Mathlib.Tactic.Positivity
import Mathlib.Tactic.Zify

/-!
# The ring buffer

`ring_buffer`. Two counters run freely; the low bits of each are a position in the buffer, and
their difference is the number of bytes in it. The counters are signed integers that only grow,
so the class is read with both meanings of an operation that overflows.

The member functions `write` and `read` write and read; in the model the caller's array is an
argument, and what `read` and `peek` make of it is returned.

## Main definitions

- `RingBuffer`, with the functions of the class
- `RingBuffer.Holds` — the bytes that were written and not yet read

## Main results

- `RingBuffer.new_eq`, `RingBuffer.copyOut_eq`, `RingBuffer.write_eq` — what each function does
-/

namespace TerraX

open Memory SignedInt

/-- `ring_buffer`. -/
structure RingBuffer where
  in_ : ℤ := 0
  out_ : ℤ := 0
  size : ℤ
  buffer : List UInt8
deriving DecidableEq, Repr

namespace RingBuffer

/-- `ring_buffer::ring_buffer`. -/
def new (build : Build) (heap : ℕ → UInt8) (size : ℤ) : Except IntFault RingBuffer := do
  memory (check build (0 < size ∧ land size (size - 1) = 0))
  if size < 0 then .error (.badLength size)
  else return { size, buffer := newBlock heap size.toNat }

/-- `ring_buffer::readable_size`. -/
def readableSize (overflow : Overflow) (rb : RingBuffer) : Except IntFault ℤ :=
  int overflow (rb.in_ - rb.out_)

/-- `ring_buffer::writable_size`. -/
def writableSize (overflow : Overflow) (rb : RingBuffer) : Except IntFault ℤ := do
  int overflow ((← int overflow (rb.size - rb.in_)) + rb.out_)

/-- `ring_buffer::buffer_size`. -/
def bufferSize (rb : RingBuffer) : ℤ := rb.size

section

variable (overflow : Overflow) (build : Build)

/-- `ring_buffer::write`. The assertion and the macro `min` compute the same expression. -/
def write (rb : RingBuffer) (data : List UInt8) (len : ℤ) : Except IntFault RingBuffer := do
  let writable ← rb.writableSize overflow
  memory (check build (len ≤ writable))
  let len := min len writable
  let start := land rb.in_ (← int overflow (rb.size - 1))
  let l := min len (← int overflow (rb.size - start))
  let buffer ← memory (memcpy rb.buffer start data 0 l)
  let buffer ← memory (memcpy buffer 0 data l (← int overflow (len - l)))
  return { rb with buffer, in_ := ← int overflow (rb.in_ + len) }

/-- What `read` and `peek` do alike: the caller's array afterwards, and the length after the cut. -/
def copyOut (rb : RingBuffer) (data : List UInt8) (len : ℤ) : Except IntFault (List UInt8 × ℤ) := do
  let readable ← rb.readableSize overflow
  memory (check build (len ≤ readable))
  let len := min len readable
  let start := land rb.out_ (← int overflow (rb.size - 1))
  let l := min len (← int overflow (rb.size - start))
  let data ← memory (memcpy data 0 rb.buffer start l)
  let data ← memory (memcpy data l rb.buffer 0 (← int overflow (len - l)))
  return (data, len)

/-- `ring_buffer::read`. -/
def read (rb : RingBuffer) (data : List UInt8) (len : ℤ) :
    Except IntFault (RingBuffer × List UInt8) := do
  let (data, len) ← rb.copyOut overflow build data len
  return ({ rb with out_ := ← int overflow (rb.out_ + len) }, data)

/-- `ring_buffer::peek`. -/
def peek (rb : RingBuffer) (data : List UInt8) (len : ℤ) :
    Except IntFault (RingBuffer × List UInt8) := do
  let (data, _) ← rb.copyOut overflow build data len
  return (rb, data)

end

/-! ### What is in the buffer -/

/-- A position in the buffer. -/
def index (k : ℕ) (counter : ℤ) : ℕ := (counter % 2 ^ k).toNat

/-- The buffer has a size of `2 ^ k`; behind the position of `out_`, around its end, there is
    the queue, and behind the queue the position of `in_`. -/
structure Holds (rb : RingBuffer) (k : ℕ) (queue : List UInt8) : Prop where
  size : rb.size = 2 ^ k
  length : rb.buffer.length = 2 ^ k
  fits_in : Fits rb.in_
  fits_out : Fits rb.out_
  count : rb.in_ % 2 ^ 32 = (rb.out_ + queue.length) % 2 ^ 32
  room : queue.length ≤ 2 ^ k
  queue : queue <+: rb.buffer.rotate (index k rb.out_)

section Index

variable {k : ℕ} (hk : k ≤ 30)

theorem index_cast (k : ℕ) (counter : ℤ) : (index k counter : ℤ) = counter % 2 ^ k :=
  Int.toNat_of_nonneg (Int.emod_nonneg _ (pow_ne_zero k two_ne_zero))

theorem index_lt (k : ℕ) (counter : ℤ) : index k counter < 2 ^ k := by
  have h := Int.emod_lt_of_pos counter (by positivity : (0 : ℤ) < 2 ^ k)
  rw [← index_cast] at h
  exact_mod_cast h

include hk

/-- Wrapping a counter around the range of integers keeps its position. -/
theorem index_add {a b : ℤ} {n : ℕ} (h : a % 2 ^ 32 = (b + n) % 2 ^ 32) :
    index k a = (index k b + n) % 2 ^ k := by
  have hdvd : (2 ^ k : ℤ) ∣ 2 ^ 32 := pow_dvd_pow 2 (by omega)
  have hmod : a % 2 ^ k = (b + n) % 2 ^ k := by
    rw [← Int.emod_emod_of_dvd a hdvd, h, Int.emod_emod_of_dvd _ hdvd]
  zify
  rw [index_cast, index_cast, hmod, Int.emod_add_emod]

theorem rotate_index {block : List UInt8} (hlen : block.length = 2 ^ k) {a b : ℤ} {n : ℕ}
    (h : a % 2 ^ 32 = (b + n) % 2 ^ 32) : block.rotate (index k a) = block.rotate (index k b + n) := by
  rw [index_add hk h, ← hlen, List.rotate_mod]

theorem land_size {rb : RingBuffer} (hsize : rb.size = 2 ^ k) (counter : ℤ) :
    land counter (rb.size - 1) = index k counter := by
  rw [hsize, land_two_pow_sub_one counter hk, index_cast]

end Index

/-! ### What each function does -/

section Functions

variable (overflow : Overflow) {build : Build} {k : ℕ} (hk : k ≤ 30)
include hk

theorem two_pow_fits : (2 : ℕ) ^ k ≤ 2 ^ 30 ∧ 0 < (2 : ℕ) ^ k ∧ ((2 ^ k : ℕ) : ℤ) = 2 ^ k :=
  ⟨Nat.pow_le_pow_right (by decide) hk, Nat.two_pow_pos k, by push_cast; rfl⟩

/-- The constructor of a size that is a power of two makes an empty buffer. -/
theorem new_eq (build : Build) (heap : ℕ → UInt8) :
    ∃ rb, new build heap (2 ^ k) = .ok rb ∧ rb.in_ = 0 ∧ rb.out_ = 0 ∧ rb.Holds k [] := by
  obtain ⟨hle, hpos, hcast⟩ := two_pow_fits hk
  have hmask : land (2 ^ k) (2 ^ k - 1) = 0 := by
    rw [land_two_pow_sub_one _ hk, Int.emod_self]
  have hnot : ¬ (2 ^ k : ℤ) < 0 := by omega
  have hlen : (2 ^ k : ℤ).toNat = 2 ^ k := by omega
  have hzero : Fits 0 := by decide
  refine ⟨{ size := 2 ^ k, buffer := newBlock heap (2 ^ k) }, ?_, rfl, rfl, rfl,
    newBlock_length heap _, hzero, hzero, rfl, Nat.zero_le _, List.nil_prefix⟩
  rw [new, check_of build ⟨by omega, hmask⟩, memory_ok, bind_ok, if_neg hnot, hlen]
  rfl

variable {rb : RingBuffer} {queue : List UInt8} (h : rb.Holds k queue)
include h

/-- The subtractions on the way to the two parts of a copy do not overflow. -/
theorem parts_fit (n : ℕ) (hn : n ≤ 2 ^ k) (counter : ℤ) :
    int overflow (rb.size - 1) = .ok (rb.size - 1) ∧
    int overflow (rb.size - index k counter) = .ok (rb.buffer.length - index k counter : ℕ) ∧
    min (n : ℤ) (rb.buffer.length - index k counter : ℕ) =
      (min n (rb.buffer.length - index k counter) : ℕ) ∧
    int overflow (n - (min n (rb.buffer.length - index k counter) : ℕ)) =
      .ok (n - min n (rb.buffer.length - index k counter) : ℕ) := by
  obtain ⟨hle, hpos, hcast⟩ := two_pow_fits hk
  have hindex := index_lt k counter
  have hsize := h.size
  have hlen := h.length
  have hfits : ∀ z : ℤ, -1 ≤ z → z ≤ 2 ^ 30 → Fits z := by
    intro z hlow hhigh
    unfold Fits intMax
    omega
  refine ⟨int_of_fits overflow (hfits _ (by omega) (by omega)), ?_, by omega, ?_⟩
  · rw [int_of_fits overflow (hfits _ (by omega) (by omega))]
    congr 1
    omega
  · rw [int_of_fits overflow (hfits _ (by omega) (by omega))]
    congr 1
    omega

/-- `read` and `peek` put the front of the queue into the caller's array. -/
theorem copyOut_eq (hreadable : rb.readableSize overflow = .ok queue.length) {data : List UInt8}
    {len : ℕ} (hdata : len ≤ data.length) (hassert : build = .debug → len ≤ queue.length) :
    rb.copyOut overflow build data len =
      .ok (queue.take len ++ data.drop (min len queue.length), ((min len queue.length : ℕ) : ℤ)) := by
  have hroom := h.room
  have hcut : min (len : ℤ) (queue.length : ℤ) = (min len queue.length : ℕ) := by omega
  have hcheck : check build ((len : ℤ) ≤ queue.length) = .ok () :=
    check_of_debug fun hdebug => Int.ofNat_le.mpr (hassert hdebug)
  obtain ⟨n, hn⟩ : ∃ n, min len queue.length = n := ⟨_, rfl⟩
  rw [hn] at hcut ⊢
  obtain ⟨hmask, hbehind, hmin, hrest⟩ := parts_fit overflow hk h n (by omega) rb.out_
  have hindex := index_lt k rb.out_
  obtain ⟨hfirst, hsecond, hboth⟩ := @Ring.read_around rb.buffer (index k rb.out_) n
    (by rw [h.length]; exact hindex) (by rw [h.length]; omega)
  rw [Ring.take_front h.queue (by omega)] at hboth
  have hlen := h.length
  obtain ⟨l, hl⟩ : ∃ l, min n (rb.buffer.length - index k rb.out_) = l := ⟨_, rfl⟩
  rw [hl] at hmin hrest hfirst hsecond hboth
  have hlenFirst : (slice rb.buffer (index k rb.out_) l).length = l := by
    apply slice_length
    rw [h.length]
    omega
  have hlenSecond : (slice rb.buffer 0 (n - l)).length = n - l := by
    apply slice_length
    rw [h.length]
    omega
  -- the two copies fill the first `l` and the next `n - l` bytes of the array
  have hone : memcpy data 0 rb.buffer (index k rb.out_) l =
      .ok (slice rb.buffer (index k rb.out_) l ++ data.drop l) := by
    have hwrite : Memory.write ([] ++ data) 0 (slice rb.buffer (index k rb.out_) l) =
        .ok ([] ++ slice rb.buffer (index k rb.out_) l ++ data.drop l) := by
      rw [write_append List.length_nil.symm (by omega), hlenFirst]
    exact (memcpy_natCast data rb.buffer 0 _ l).trans (by rw [hfirst]; exact hwrite)
  have htwo : memcpy (slice rb.buffer (index k rb.out_) l ++ data.drop l) l rb.buffer 0 (n - l : ℕ) =
      .ok (queue.take n ++ data.drop n) := by
    have hdrop : (data.drop l).drop (n - l) = data.drop n := by
      rw [List.drop_drop]
      congr 1
      omega
    refine (memcpy_natCast _ rb.buffer l 0 (n - l)).trans ?_
    rw [hsecond, Memory.ok_bind, write_append hlenFirst.symm (by rw [List.length_drop]; omega), hboth,
      hlenSecond, hdrop]
  have htake : queue.take len = queue.take n := by
    rw [← hn, ← List.take_eq_take_min]
  rw [copyOut, hreadable, bind_ok, hcheck, memory_ok, bind_ok, hcut]
  dsimp only
  rw [hmask, bind_ok, land_size hk h.size, hbehind, bind_ok, hmin, hone, memory_ok, bind_ok, hrest,
    bind_ok, htwo, memory_ok, bind_ok, htake]
  rfl

/-- `write` puts the front of the caller's array behind the queue, and only the new counter may
    overflow. -/
theorem write_eq (hwritable : rb.writableSize overflow = .ok (2 ^ k - queue.length : ℕ))
    {data : List UInt8} {len : ℕ} (hdata : len ≤ data.length)
    (hassert : build = .debug → len ≤ 2 ^ k - queue.length) :
    ∃ buffer, buffer.length = 2 ^ k ∧
      queue ++ data.take (min len (2 ^ k - queue.length)) <+: buffer.rotate (index k rb.out_) ∧
      rb.write overflow build data len =
        (int overflow (rb.in_ + (min len (2 ^ k - queue.length) : ℕ)) >>= fun in_ =>
          .ok { rb with buffer, in_ }) := by
  have hroom := h.room
  have hcut : min (len : ℤ) (2 ^ k - queue.length : ℕ) = (min len (2 ^ k - queue.length) : ℕ) := by
    omega
  have hcheck : check build ((len : ℤ) ≤ (2 ^ k - queue.length : ℕ)) = .ok () :=
    check_of_debug fun hdebug => Int.ofNat_le.mpr (hassert hdebug)
  obtain ⟨n, hn⟩ : ∃ n, min len (2 ^ k - queue.length) = n := ⟨_, rfl⟩
  rw [hn] at hcut ⊢
  obtain ⟨hmask, hbehind, hmin, hrest⟩ := parts_fit overflow hk h n (by omega) rb.in_
  have hindex := index_lt k rb.in_
  have hbytes : (data.take n).length = n := by
    rw [List.length_take]
    omega
  obtain ⟨mid, buffer, hfirst, hsecond, hlen, hrotate⟩ :=
    @Ring.write_around rb.buffer (data.take n) (index k rb.in_) (by rw [h.length]; exact hindex)
      (by rw [h.length]; omega)
  rw [hbytes] at hfirst hsecond
  rw [rotate_index hk (hlen.trans h.length) h.count, rotate_index hk h.length h.count] at hrotate
  have hqueue := Ring.push h.queue hlen hrotate (by rw [hbytes, h.length]; omega)
  obtain ⟨l, hl⟩ : ∃ l, min n (rb.buffer.length - index k rb.in_) = l := ⟨_, rfl⟩
  rw [hl] at hmin hrest hfirst hsecond
  refine ⟨buffer, hlen.trans h.length, hqueue, ?_⟩
  -- the first `l` bytes go behind the index, the others to the front of the buffer
  have hone : memcpy rb.buffer (index k rb.in_) data 0 l = .ok mid := by
    refine (memcpy_natCast rb.buffer data _ 0 l).trans ?_
    rw [read_ok (by omega), Memory.ok_bind, ← hfirst, List.take_take, Nat.min_eq_left (by omega)]
    rfl
  have htwo : memcpy mid 0 data l (n - l : ℕ) = .ok buffer := by
    refine (memcpy_natCast mid data 0 l (n - l)).trans ?_
    rw [read_ok (by omega), Memory.ok_bind, ← hsecond, List.drop_take]
    rfl
  rw [write, hwritable, bind_ok, hcheck, memory_ok, bind_ok, hcut]
  dsimp only
  rw [hmask, bind_ok, land_size hk h.size, hbehind, bind_ok, hmin, hone, memory_ok, bind_ok, hrest,
    bind_ok, htwo, memory_ok, bind_ok]
  rfl

end Functions

end RingBuffer

end TerraX
