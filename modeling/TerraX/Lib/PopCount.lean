import Mathlib.Data.Nat.Bitwise
import Mathlib.Tactic.Ring

/-!
# Counting the bits of a number

The number of set bits below a position, and numbers of 32 bits as four bytes in a row. Masking
works byte by byte, so that a claim about the bits of all 32-bit numbers becomes one about 256
bytes.

## Main definitions

- `PopCount.popCount k n` — how many of the low `k` bits of `n` are set
- `PopCount.wordBits k ns` — the bits of words of `k` bits in a row
- `PopCount.lanes` — the number with four given bytes

## Main results

- `PopCount.land_lanes`, `PopCount.land_shift_lanes` — masking is done in every byte on its own
- `PopCount.popCount_lanes` — so is counting
- `PopCount.count_wordBits` — the set bits of a row of words are those of each word
-/

namespace PopCount

/-- The number of set bits among the low `k` bits. -/
def popCount (k n : ℕ) : ℕ := (List.range k).countP n.testBit

theorem popCount_add (k l n : ℕ) : popCount (k + l) n = popCount k n + popCount l (n / 2 ^ k) := by
  rw [popCount, List.range_add, List.countP_append, List.countP_map]
  congr 2
  funext i
  rw [Function.comp_apply, Nat.testBit_div_two_pow, Nat.add_comm]

/-- Bits above the counted ones play no role. -/
theorem popCount_mod (k n : ℕ) : popCount k (n % 2 ^ k) = popCount k n := by
  apply List.countP_congr
  intro i hi
  rw [Nat.testBit_mod_two_pow, decide_eq_true (List.mem_range.mp hi), Bool.true_and]

/-- Counting the two parts of a number. -/
theorem popCount_parts {b k : ℕ} (a l : ℕ) (hb : b < 2 ^ k) :
    popCount (k + l) (a * 2 ^ k + b) = popCount l a + popCount k b := by
  have hlow : (a * 2 ^ k + b) % 2 ^ k = b := by
    rw [Nat.mul_comm, Nat.mul_add_mod, Nat.mod_eq_of_lt hb]
  have hhigh : (a * 2 ^ k + b) / 2 ^ k = a := by
    rw [Nat.mul_comm, Nat.mul_add_div (Nat.two_pow_pos k), Nat.div_eq_of_lt hb, Nat.add_zero]
  rw [popCount_add, ← popCount_mod k, hlow, hhigh, Nat.add_comm]

/-- Bits that are not set do not count. -/
theorem popCount_of_lt {j k n : ℕ} (hle : j ≤ k) (hlt : n < 2 ^ j) : popCount k n = popCount j n := by
  obtain ⟨l, rfl⟩ := Nat.exists_eq_add_of_le hle
  rw [popCount_add, Nat.div_eq_of_lt hlt]
  have hzero : popCount l 0 = 0 := by
    rw [popCount, List.countP_eq_zero]
    intro i _
    simp
  rw [hzero, Nat.add_zero]

theorem popCount_eq_zero {k n : ℕ} (hn : n < 2 ^ k) (h : popCount k n = 0) : n = 0 := by
  rw [popCount, List.countP_eq_zero] at h
  apply Nat.eq_of_testBit_eq
  intro i
  rw [Nat.zero_testBit]
  by_cases hi : i < k
  · exact Bool.not_eq_true _ ▸ h i (List.mem_range.mpr hi)
  · exact Nat.testBit_lt_two_pow (hn.trans_le (Nat.pow_le_pow_right (by decide) (Nat.le_of_not_lt hi)))

/-- Where the low bits are all that counts, there are no others. -/
theorem lt_of_popCount_eq {j k n : ℕ} (hle : j ≤ k) (hn : n < 2 ^ k)
    (h : popCount k n = popCount j n) : n < 2 ^ j := by
  obtain ⟨l, rfl⟩ := Nat.exists_eq_add_of_le hle
  have hhigh : n / 2 ^ j < 2 ^ l := by
    rw [pow_add] at hn
    exact Nat.div_lt_of_lt_mul hn
  rw [popCount_add] at h
  have hzero : n / 2 ^ j = 0 := popCount_eq_zero hhigh (by omega)
  exact (Nat.div_eq_zero_iff.mp hzero).resolve_left (Nat.two_pow_pos j).ne'

/-- The complement has the bits that are missing. -/
theorem popCount_complement {k n : ℕ} (hn : n < 2 ^ k) :
    popCount k (2 ^ k - 1 - n) + popCount k n = k := by
  have hnot : popCount k (2 ^ k - 1 - n) = (List.range k).countP fun i => !n.testBit i := by
    apply List.countP_congr
    intro i hi
    rw [Nat.sub_sub, Nat.add_comm, Nat.testBit_two_pow_sub_succ hn,
      decide_eq_true (List.mem_range.mp hi), Bool.true_and]
  calc popCount k (2 ^ k - 1 - n) + popCount k n
      = (List.range k).countP n.testBit + (List.range k).countP fun i => !n.testBit i := by
        rw [hnot, Nat.add_comm, popCount]
    _ = (List.range k).length := by
        rw [List.length_eq_countP_add_countP n.testBit]
        congr 2
        funext i
        simp
    _ = k := List.length_range

/-! ### Words in a row -/

/-- The bits of words of `k` bits in a row, those of each word from the lowest up. -/
def wordBits (k : ℕ) (ns : List ℕ) : List Bool := ns.flatMap fun n => (List.range k).map n.testBit

theorem wordBits_cons (k n : ℕ) (ns : List ℕ) :
    wordBits k (n :: ns) = (List.range k).map n.testBit ++ wordBits k ns := List.flatMap_cons

theorem length_wordBits (k : ℕ) (ns : List ℕ) : (wordBits k ns).length = ns.length * k := by
  induction ns with
  | nil => rw [wordBits, List.flatMap_nil, List.length_nil, List.length_nil, Nat.zero_mul]
  | cons n ns ih =>
    rw [wordBits_cons, List.length_append, ih, List.length_map, List.length_range, List.length_cons,
      Nat.add_comm, Nat.succ_mul]

/-- The set bits of a row are those of its words. -/
theorem count_wordBits (k : ℕ) (ns : List ℕ) :
    (wordBits k ns).count true = (ns.map (popCount k)).sum := by
  induction ns with
  | nil => rfl
  | cons n ns ih =>
    have hword : ((List.range k).map n.testBit).count true = popCount k n := by
      rw [List.count, List.countP_map, popCount]
      apply List.countP_congr
      intro i _
      rw [Function.comp_apply, beq_true]
    rw [wordBits_cons, List.count_append, ih, hword, List.map_cons, List.sum_cons]

/-! ### Four bytes -/

/-- The number with the bytes `b₃`, `b₂`, `b₁`, `b₀`. -/
def lanes (b₃ b₂ b₁ b₀ : ℕ) : ℕ := b₃ * 2 ^ 24 + b₂ * 2 ^ 16 + b₁ * 2 ^ 8 + b₀

/-- Every number of 32 bits has four bytes. -/
theorem exists_lanes {n : ℕ} (h : n < 2 ^ 32) :
    ∃ b₃ b₂ b₁ b₀, n = lanes b₃ b₂ b₁ b₀ ∧ b₃ < 256 ∧ b₂ < 256 ∧ b₁ < 256 ∧ b₀ < 256 := by
  refine ⟨n / 2 ^ 24, n / 2 ^ 16 % 256, n / 2 ^ 8 % 256, n % 256, ?_, ?_, ?_, ?_, ?_⟩
  · unfold lanes
    omega
  all_goals omega

/-- The bytes one after the other. -/
theorem lanes_eq (b₃ b₂ b₁ b₀ : ℕ) :
    lanes b₃ b₂ b₁ b₀ = ((b₃ * 2 ^ 8 + b₂) * 2 ^ 8 + b₁) * 2 ^ 8 + b₀ := by
  unfold lanes
  ring

/-- Masking the two parts of a number. -/
theorem land_parts (a b m n k : ℕ) (hb : b < 2 ^ k) (hn : n < 2 ^ k) :
    (a * 2 ^ k + b) &&& (m * 2 ^ k + n) = (a &&& m) * 2 ^ k + (b &&& n) := by
  apply Nat.eq_of_testBit_eq
  intro i
  have hbn : b &&& n < 2 ^ k := Nat.and_lt_two_pow b hn
  rw [Nat.testBit_and, Nat.mul_comm a, Nat.mul_comm m, Nat.mul_comm (a &&& m),
    Nat.testBit_two_pow_mul_add a hb, Nat.testBit_two_pow_mul_add m hn,
    Nat.testBit_two_pow_mul_add (a &&& m) hbn]
  split
  · rw [Nat.testBit_and]
  · rw [Nat.testBit_and]

theorem land_lanes {a₃ a₂ a₁ a₀ m₃ m₂ m₁ m₀ : ℕ} (ha₂ : a₂ < 256) (ha₁ : a₁ < 256) (ha₀ : a₀ < 256)
    (hm₂ : m₂ < 256) (hm₁ : m₁ < 256) (hm₀ : m₀ < 256) :
    lanes a₃ a₂ a₁ a₀ &&& lanes m₃ m₂ m₁ m₀ =
      lanes (a₃ &&& m₃) (a₂ &&& m₂) (a₁ &&& m₁) (a₀ &&& m₀) := by
  rw [lanes_eq, lanes_eq, lanes_eq, land_parts _ _ _ _ 8 ha₀ hm₀, land_parts _ _ _ _ 8 ha₁ hm₁,
    land_parts _ _ _ _ 8 ha₂ hm₂]

/-- Masking out what lies above the mask first. -/
theorem land_mod {m k : ℕ} (x : ℕ) (hm : m < 2 ^ k) : x % 2 ^ k &&& m = x &&& m := by
  rw [← Nat.and_two_pow_sub_one_eq_mod, Nat.and_assoc, Nat.and_comm (2 ^ k - 1),
    Nat.and_two_pow_sub_one_eq_mod, Nat.mod_eq_of_lt hm]

/-- A shift carries the low bits of a byte into the high bits of the next one, where a mask of the
    other bits drops them. -/
theorem land_shift_lanes {b₃ b₂ b₁ b₀ m k : ℕ} (hk : k = 1 ∨ k = 2 ∨ k = 4) (hm : m < 2 ^ (8 - k))
    (h₃ : b₃ < 256) (h₂ : b₂ < 256) (h₁ : b₁ < 256) (h₀ : b₀ < 256) :
    lanes b₃ b₂ b₁ b₀ / 2 ^ k &&& lanes m m m m =
      lanes (b₃ / 2 ^ k &&& m) (b₂ / 2 ^ k &&& m) (b₁ / 2 ^ k &&& m) (b₀ / 2 ^ k &&& m) := by
  have hshift : lanes b₃ b₂ b₁ b₀ / 2 ^ k = lanes (b₃ / 2 ^ k) (b₃ % 2 ^ k * 2 ^ (8 - k) + b₂ / 2 ^ k)
      (b₂ % 2 ^ k * 2 ^ (8 - k) + b₁ / 2 ^ k) (b₁ % 2 ^ k * 2 ^ (8 - k) + b₀ / 2 ^ k) := by
    unfold lanes
    obtain rfl | rfl | rfl := hk <;> omega
  have hbyte : ∀ b c, b < 256 → c < 256 →
      b % 2 ^ k * 2 ^ (8 - k) + c / 2 ^ k < 256 ∧
        (b % 2 ^ k * 2 ^ (8 - k) + c / 2 ^ k) % 2 ^ (8 - k) = c / 2 ^ k := by
    intro b c hb hc
    obtain rfl | rfl | rfl := hk <;> omega
  have hm' : m < 256 := hm.trans_le (Nat.pow_le_pow_right (by decide) (Nat.sub_le 8 k))
  rw [hshift, land_lanes (hbyte b₃ b₂ h₃ h₂).1 (hbyte b₂ b₁ h₂ h₁).1 (hbyte b₁ b₀ h₁ h₀).1 hm' hm' hm',
    ← land_mod (b₃ % 2 ^ k * 2 ^ (8 - k) + b₂ / 2 ^ k) hm, (hbyte b₃ b₂ h₃ h₂).2,
    ← land_mod (b₂ % 2 ^ k * 2 ^ (8 - k) + b₁ / 2 ^ k) hm, (hbyte b₂ b₁ h₂ h₁).2,
    ← land_mod (b₁ % 2 ^ k * 2 ^ (8 - k) + b₀ / 2 ^ k) hm, (hbyte b₁ b₀ h₁ h₀).2]

theorem popCount_lanes {b₃ b₂ b₁ b₀ : ℕ} (h₂ : b₂ < 256) (h₁ : b₁ < 256) (h₀ : b₀ < 256) :
    popCount 32 (lanes b₃ b₂ b₁ b₀) =
      popCount 8 b₃ + popCount 8 b₂ + popCount 8 b₁ + popCount 8 b₀ := by
  rw [lanes_eq, show 32 = 8 + (8 + (8 + 8)) from rfl, popCount_parts _ _ h₀, popCount_parts _ _ h₁,
    popCount_parts _ _ h₂]

end PopCount
