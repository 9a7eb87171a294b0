import TerraX.Lib.Memory

/-!
# Signed arithmetic of 32 bits

C++ leaves a signed operation undefined whose exact result does not fit; machines take it modulo
`2 ^ 32`. A function over signed integers is given the `Overflow` that it is to be read with.

## Main definitions

- `SignedInt.Overflow`, `SignedInt.int` — the result of a signed operation
- `SignedInt.land` — `&` on the bit patterns
- `SignedInt.memcpy` — a copy with signed offsets and length
- `SignedInt.IntFault` — the ways such a function leaves its defined behaviour

## Main results

- `SignedInt.int_of_fits` — a result that fits is exact
- `SignedInt.land_two_pow_sub_one` — a mask of low bits is a remainder
-/

namespace SignedInt

open Memory

/-- A way in which a function leaves its defined behaviour. -/
inductive IntFault
  /-- A signed operation with the exact result `value`, which does not fit. -/
  | overflow (value : ℤ)
  /-- A new array cannot have `length` elements. -/
  | badLength (length : ℤ)
  /-- What memory accesses and assertions can do. -/
  | memory (fault : Memory.Fault)
deriving DecidableEq, Repr

/-- What a signed operation does whose result does not fit. -/
inductive Overflow
  | wraps
  | undefined
deriving DecidableEq, Repr

/-- The largest signed integer. -/
def intMax : ℤ := 2 ^ 31 - 1

/-- `z` is a signed integer. -/
def Fits (z : ℤ) : Prop := -(2 ^ 31) ≤ z ∧ z ≤ intMax

instance (z : ℤ) : Decidable (Fits z) := by
  unfold Fits
  infer_instance

/-- A signed operation with the exact result `z`. -/
def int (overflow : Overflow) (z : ℤ) : Except IntFault ℤ :=
  match overflow with
  | .wraps => .ok (int32 z)
  | .undefined => if Fits z then .ok z else .error (.overflow z)

/-- `a & b`. -/
def land (a b : ℤ) : ℤ := int32 (uInt a &&& uInt b : ℕ)

/-- `memcpy(dst + dstOff, src + srcOff, n)`. A negative length converts to one that no block has. -/
def memcpy (dst : List UInt8) (dstOff : ℤ) (src : List UInt8) (srcOff n : ℤ) :
    Except Memory.Fault (List UInt8) := do
  if dstOff < 0 ∨ n < 0 then .error (.outOfBounds dstOff n)
  else write dst dstOff.toNat (← readPtr src srcOff n.toNat)

theorem memcpy_natCast (dst src : List UInt8) (dstOff srcOff n : ℕ) :
    memcpy dst dstOff src srcOff n = (read src srcOff n >>= fun bytes => write dst dstOff bytes) := by
  have hnot : ¬ ((dstOff : ℤ) < 0 ∨ (n : ℤ) < 0) := by omega
  rw [memcpy, if_neg hnot, readPtr, if_pos (by omega)]
  rfl

theorem memcpy_length {dst src dst' : List UInt8} {dstOff srcOff n : ℤ}
    (h : memcpy dst dstOff src srcOff n = .ok dst') : dst'.length = dst.length := by
  unfold memcpy at h
  split at h
  · cases h
  · obtain ⟨bytes, -, h⟩ := bind_eq_ok.mp h
    exact write_length h

/-- A memory access, or an assertion. -/
def memory {α : Type} : Except Memory.Fault α → Except IntFault α
  | .ok a => .ok a
  | .error fault => .error (.memory fault)

@[simp] theorem memory_ok {α : Type} (a : α) : memory (.ok a) = .ok a := rfl

@[simp] theorem bind_ok {α β : Type} (a : α) (f : α → Except IntFault β) :
    (.ok a >>= f) = f a := rfl

@[simp] theorem bind_error {α β : Type} (e : IntFault) (f : α → Except IntFault β) :
    (.error e >>= f) = .error e := rfl

@[simp] theorem pure_ok {α : Type} (a : α) : (pure a : Except IntFault α) = .ok a := rfl

theorem int32_of_fits {z : ℤ} (h : Fits z) : int32 z = z := by
  unfold Fits intMax at h
  unfold int32
  omega

theorem fits_int32 (z : ℤ) : Fits (int32 z) := by
  unfold Fits intMax int32
  omega

theorem int_of_fits (overflow : Overflow) {z : ℤ} (h : Fits z) : int overflow z = .ok z := by
  cases overflow with
  | wraps => rw [int, int32_of_fits h]
  | undefined => rw [int, if_pos h]

theorem int_undefined_of_not_fits {z : ℤ} (h : ¬ Fits z) :
    int .undefined z = .error (.overflow z) := if_neg h

/-- Masking the low `k` bits leaves the remainder, for negative numbers, too. -/
theorem land_two_pow_sub_one (a : ℤ) {k : ℕ} (hk : k ≤ 30) :
    land a (2 ^ k - 1) = a % 2 ^ k := by
  have hpow : (2 : ℕ) ^ k ≤ 2 ^ 30 := Nat.pow_le_pow_right (by decide) hk
  have hpos : 0 < (2 : ℕ) ^ k := Nat.two_pow_pos k
  have hcast : ((2 ^ k : ℕ) : ℤ) = 2 ^ k := by push_cast; rfl
  have hmask : uInt (2 ^ k - 1) = 2 ^ k - 1 := by
    unfold uInt
    omega
  have hdvd : (2 ^ k : ℤ) ∣ 2 ^ 32 := pow_dvd_pow 2 (by omega)
  have hrem : ((uInt a % 2 ^ k : ℕ) : ℤ) = a % 2 ^ k := by
    have hlow : (uInt a : ℤ) = a % 2 ^ 32 := by
      unfold uInt
      omega
    rw [Int.natCast_mod, hlow, hcast, Int.emod_emod_of_dvd a hdvd]
  have hlt : uInt a % 2 ^ k < 2 ^ k := Nat.mod_lt _ hpos
  rw [land, hmask, Nat.and_two_pow_sub_one_eq_mod, int32_of_fits, hrem]
  unfold Fits intMax
  omega

end SignedInt
