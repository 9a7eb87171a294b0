import Mathlib.Data.Nat.ModEq
import Mathlib.Data.UInt

/-!
# Adler-32

The checksum of RFC 1950 with start value 1: two sums modulo 65521, the second
one over the values the first runs through.

## Main results

- `Adler32.sums_fst` — the first sum, in closed form
- `Adler32.adler32_set_ne` — a single byte that changes is noticed
-/

namespace Adler32

/-- The modulus, the largest prime below `2 ^ 16`. -/
def modulus : ℕ := 65521

/-- Both sums after one more byte. -/
def update (sums : ℕ × ℕ) (b : UInt8) : ℕ × ℕ :=
  let low := (sums.1 + b.toNat) % modulus
  (low, (sums.2 + low) % modulus)

/-- Both sums of a byte string. -/
def sums (bs : List UInt8) : ℕ × ℕ := bs.foldl update (1, 0)

/-- `adler32(1, buf, len)` of the bytes `bs`. -/
def adler32 (bs : List UInt8) : UInt32 := UInt32.ofNat ((sums bs).2 * 65536 + (sums bs).1)

example : adler32 [87, 105, 107, 105, 112, 101, 100, 105, 97] = 0x11E60398 := by decide

/-! ### The first sum -/

theorem foldl_update_fst (bs : List UInt8) (acc : ℕ × ℕ) (hacc : acc.1 < modulus) :
    (bs.foldl update acc).1 = (acc.1 + (bs.map UInt8.toNat).sum) % modulus := by
  induction bs generalizing acc with
  | nil => exact (Nat.mod_eq_of_lt hacc).symm
  | cons b bs ih =>
    have hlow : (update acc b).1 < modulus := Nat.mod_lt _ (by decide)
    rw [List.foldl_cons, ih _ hlow, List.map_cons, List.sum_cons, ← Nat.add_assoc]
    exact Nat.mod_add_mod ..

theorem sums_fst (bs : List UInt8) : (sums bs).1 = (1 + (bs.map UInt8.toNat).sum) % modulus :=
  foldl_update_fst bs (1, 0) (by decide)

theorem foldl_update_snd_lt (bs : List UInt8) (acc : ℕ × ℕ) (hacc : acc.2 < modulus) :
    (bs.foldl update acc).2 < modulus := by
  induction bs generalizing acc with
  | nil => exact hacc
  | cons b bs ih => exact ih _ (Nat.mod_lt _ (by decide))

/-- The checksum determines the first sum. -/
theorem sums_fst_eq_of_adler32_eq {bs cs : List UInt8} (h : adler32 bs = adler32 cs) :
    (sums bs).1 = (sums cs).1 := by
  have hlow : ∀ ds, (sums ds).1 < modulus := by
    intro ds
    rw [sums_fst]
    exact Nat.mod_lt _ (by decide)
  have hhigh : ∀ ds, (sums ds).2 < modulus := fun ds => foldl_update_snd_lt ds (1, 0) (by decide)
  have hval := congrArg UInt32.toNat h
  have hb := hlow bs
  have hb' := hhigh bs
  have hc := hlow cs
  have hc' := hhigh cs
  unfold modulus at hb hb' hc hc'
  rw [adler32, adler32, UInt32.toNat_ofNat', UInt32.toNat_ofNat'] at hval
  omega

/-! ### A changed byte -/

theorem sum_set (bs : List UInt8) {i : ℕ} (h : i < bs.length) (b : UInt8) :
    ((bs.set i b).map UInt8.toNat).sum + bs[i].toNat = (bs.map UInt8.toNat).sum + b.toNat := by
  induction bs generalizing i with
  | nil => simp at h
  | cons c bs ih =>
    cases i with
    | zero =>
      simp only [List.set_cons_zero, List.map_cons, List.sum_cons, List.getElem_cons_zero]
      omega
    | succ i =>
      have hrest := ih (Nat.lt_of_succ_lt_succ h)
      simp only [List.set_cons_succ, List.map_cons, List.sum_cons, List.getElem_cons_succ]
      omega

/-- A single byte that changes changes the checksum: two bytes differ by less than the modulus. -/
theorem adler32_set_ne {bs : List UInt8} {i : ℕ} (h : i < bs.length) {b : UInt8} (hne : b ≠ bs[i]) :
    adler32 (bs.set i b) ≠ adler32 bs := by
  intro heq
  have hmod := sums_fst_eq_of_adler32_eq heq
  rw [sums_fst, sums_fst] at hmod
  have hsum := sum_set bs h b
  have hb := b.toNat_lt
  have hold := bs[i].toNat_lt
  have hval : b.toNat ≠ bs[i].toNat := fun heq => hne (UInt8.toNat_inj.mp heq)
  unfold modulus at hmod
  omega

end Adler32
