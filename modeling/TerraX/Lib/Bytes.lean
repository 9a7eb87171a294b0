import Mathlib.Data.Nat.ModEq
import Mathlib.Data.List.Induction
import Mathlib.Tactic.Ring

/-!
# Fixed-width numbers as byte strings

Big-endian and host-order encodings of natural numbers in a given number of
bytes. Every encoder truncates, as a store into a fixed-width field does, and
`decodeBE_encodeBE` and `decodeHost_encodeHost` are the round trips up to that truncation.

## Main definitions

- `Bytes.encodeBE w n` — the low `w` bytes of `n`, most significant first
- `Bytes.decodeBE` — the number a big-endian byte string stands for
- `Bytes.Endian` — the byte order of a host
- `Bytes.encodeHost`, `Bytes.decodeHost` — the same pair in the order of a host
-/

namespace Bytes

/-- The low `w` bytes of `n`, most significant byte first. -/
def encodeBE : ℕ → ℕ → List UInt8
  | 0, _ => []
  | w + 1, n => encodeBE w (n / 256) ++ [UInt8.ofNat n]

/-- The number whose big-endian bytes are `bs`. -/
def decodeBE (bs : List UInt8) : ℕ :=
  bs.foldl (fun acc b => acc * 256 + b.toNat) 0

@[simp] theorem encodeBE_length (w n : ℕ) : (encodeBE w n).length = w := by
  induction w generalizing n with
  | zero => rfl
  | succ w ih => simp [encodeBE, ih]

@[simp] theorem decodeBE_nil : decodeBE [] = 0 := rfl

theorem decodeBE_concat (bs : List UInt8) (b : UInt8) : decodeBE (bs ++ [b]) = decodeBE bs * 256 + b.toNat := by
  simp [decodeBE]

/-- Encoding and decoding keeps the value modulo the width. -/
theorem decodeBE_encodeBE (w n : ℕ) : decodeBE (encodeBE w n) = n % 256 ^ w := by
  induction w generalizing n with
  | zero => simp [encodeBE, Nat.mod_one]
  | succ w ih =>
    calc decodeBE (encodeBE (w + 1) n)
        = n / 256 % 256 ^ w * 256 + n % 256 := by
          rw [encodeBE, decodeBE_concat, ih, UInt8.toNat_ofNat']
      _ = n % (256 * 256 ^ w) := by
          rw [Nat.mod_mul, Nat.mul_comm, Nat.add_comm]
      _ = n % 256 ^ (w + 1) := by
          rw [pow_succ, Nat.mul_comm]

/-- A value that fits in its width survives the round trip. -/
theorem decodeBE_encodeBE_of_lt {w n : ℕ} (h : n < 256 ^ w) : decodeBE (encodeBE w n) = n := by
  rw [decodeBE_encodeBE, Nat.mod_eq_of_lt h]

theorem decodeBE_lt (bs : List UInt8) : decodeBE bs < 256 ^ bs.length := by
  induction bs using List.reverseRecOn with
  | nil => simp
  | append_singleton bs b ih =>
    have hb : b.toNat < 256 := b.toNat_lt
    rw [decodeBE_concat, List.length_append, List.length_singleton, pow_succ]
    omega

/-- Bytes are the encoding of the number that they are decoded to. -/
theorem encodeBE_decodeBE (bs : List UInt8) : encodeBE bs.length (decodeBE bs) = bs := by
  induction bs using List.reverseRecOn with
  | nil => rfl
  | append_singleton bs b ih =>
    have hb : b.toNat < 256 := b.toNat_lt
    have hhigh : (decodeBE bs * 256 + b.toNat) / 256 = decodeBE bs := by omega
    have hlow : UInt8.ofNat (decodeBE bs * 256 + b.toNat) = b := by
      apply UInt8.toNat_inj.mp
      rw [UInt8.toNat_ofNat']
      omega
    rw [List.length_append, List.length_singleton, encodeBE, decodeBE_concat, hhigh, hlow, ih]

/-- The byte order in which a host stores its machine words. -/
inductive Endian
  | little
  | big
deriving DecidableEq, Repr

/-- The `w` bytes of a machine word as the host stores them. -/
def encodeHost (host : Endian) (w n : ℕ) : List UInt8 :=
  match host with
  | .little => (encodeBE w n).reverse
  | .big => encodeBE w n

/-- The machine word a host reads from `bs`. -/
def decodeHost (host : Endian) (bs : List UInt8) : ℕ :=
  match host with
  | .little => decodeBE bs.reverse
  | .big => decodeBE bs

@[simp] theorem encodeHost_length (host : Endian) (w n : ℕ) : (encodeHost host w n).length = w := by
  cases host <;> simp [encodeHost]

/-- A word read back by a host of the same byte order is the word stored. -/
theorem decodeHost_encodeHost (host : Endian) (w n : ℕ) :
    decodeHost host (encodeHost host w n) = n % 256 ^ w := by
  cases host <;> simp [decodeHost, encodeHost, decodeBE_encodeBE]

end Bytes
