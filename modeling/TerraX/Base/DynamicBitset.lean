import TerraX.Lib.Memory
import TerraX.Lib.PopCount
import Mathlib.Data.UInt

/-!
# The bit set of a row

`dynamic_bitset`. The words have 32 bits, but word index and shift amount of a position are
computed with the 64 bits of a `size_t`; and the constructor computes the number of words in a
local variable that hides the member, so the member keeps what the memory had. That value, and
the result of a shift that C++ does not define, are parameters.

## Main definitions

- `DynamicBitset`, with the functions of the class
- `DynamicBitset.shiftLeft`, `DynamicBitset.undefined` — shifts, and their undefined results

## Main results

- `DynamicBitset.countBit_eq` — `count_bit` counts the bits of a word
- `DynamicBitset.test_oneWord`, `DynamicBitset.count_oneWord` and the others — a set with one word
-/

namespace TerraX

open Memory PopCount

/-- `dynamic_bitset`. -/
structure DynamicBitset where
  size : ℕ
  arrLength : ℕ
  arrNumbers : List UInt32
deriving DecidableEq, Repr

namespace DynamicBitset

/-- `BIT_LENGTH`, the number of bits of a `size_t`. -/
def bitLength : ℕ := 64

/-- `dynamic_bitset::dynamic_bitset`. -/
def new (arrLength₀ size : ℕ) : DynamicBitset :=
  -- This is a local variable. The member `arrLength_` is not initialised.
  let arrLength := size / bitLength + 1
  { size, arrLength := arrLength₀, arrNumbers := List.replicate arrLength 0 }

/-- `arrNumbers_[i]`. -/
def word (bs : DynamicBitset) (i : ℕ) : Except Fault UInt32 :=
  match bs.arrNumbers[i]? with
  | some w => .ok w
  | none => .error (.badIndex i bs.arrNumbers.length)

/-- An assignment to `arrNumbers_[i]`. -/
def setWord (bs : DynamicBitset) (i : ℕ) (w : UInt32) : Except Fault DynamicBitset :=
  if i < bs.arrNumbers.length then .ok { bs with arrNumbers := bs.arrNumbers.set i w }
  else .error (.badIndex i bs.arrNumbers.length)

/-- `w << n` for a word `w`. From 32 on, C++ does not define the result. -/
def shiftLeft (overlong : UInt32 → ℕ → Except Fault UInt32) (w : UInt32) (n : ℕ) :
    Except Fault UInt32 :=
  if n < 32 then .ok (w <<< UInt32.ofNat n) else overlong w n

/-- Nothing is known of the bits that follow from an undefined shift. -/
def undefined (_ : UInt32) (n : ℕ) : Except Fault UInt32 := .error (.badIndex n 32)

/-- `dynamic_bitset::count_bit`. -/
def countBit (i : UInt32) : ℕ :=
  let i : UInt32 := i - ((i >>> 1) &&& 0x55555555)
  let i : UInt32 := (i &&& (0x33333333 : UInt32)) + ((i >>> 2) &&& (0x33333333 : UInt32))
  UInt32.toNat ((((i + (i >>> 4)) &&& 0x0F0F0F0F) * 0x01010101) >>> 24)

/-- `dynamic_bitset::count`. -/
def count (bs : DynamicBitset) : Except Fault ℕ :=
  (List.range bs.arrLength).foldlM (fun n i => do return n + countBit (← bs.word i)) 0

/-- The loop of `any`, with the indices that are left. -/
def anyFrom (bs : DynamicBitset) : List ℕ → Except Fault Bool
  | [] => .ok false
  | i :: is => do
    if (← bs.word i) ≠ 0 then return true
    anyFrom bs is

/-- `dynamic_bitset::any`. -/
def any (bs : DynamicBitset) : Except Fault Bool := bs.anyFrom (List.range bs.arrLength)

/-- `dynamic_bitset::none`. -/
def none (bs : DynamicBitset) : Except Fault Bool := do return !(← bs.any)

/-- `dynamic_bitset::all`. -/
def all (bs : DynamicBitset) : Except Fault Bool := do return (← bs.count) == bs.size

/-- The loop of `set()`, `reset()` and `flip()`. -/
def mapWords (bs : DynamicBitset) (f : UInt32 → UInt32) : Except Fault DynamicBitset :=
  (List.range bs.arrLength).foldlM (fun bs i => do bs.setWord i (f (← bs.word i))) bs

/-- `dynamic_bitset::set()`. -/
def setAll (bs : DynamicBitset) : Except Fault DynamicBitset := bs.mapWords fun _ => ~~~0

/-- `dynamic_bitset::reset()`. -/
def resetAll (bs : DynamicBitset) : Except Fault DynamicBitset := bs.mapWords fun _ => 0

/-- `dynamic_bitset::flip()`. -/
def flipAll (bs : DynamicBitset) : Except Fault DynamicBitset := bs.mapWords fun w => ~~~w

section Positions

variable (build : Build) (overlong : UInt32 → ℕ → Except Fault UInt32)

/-- `dynamic_bitset::test`. -/
def test (bs : DynamicBitset) (pos : ℕ) : Except Fault Bool := do
  check build (pos ≤ bs.size)
  let w ← bs.word (pos / bitLength)
  return (w &&& (← shiftLeft overlong 1 (pos % bitLength))) != 0

/-- `dynamic_bitset::set(pos)`. -/
def set (bs : DynamicBitset) (pos : ℕ) : Except Fault DynamicBitset := do
  check build (pos ≤ bs.size)
  let w ← bs.word (pos / bitLength)
  bs.setWord (pos / bitLength) (w ||| (← shiftLeft overlong 1 (pos % bitLength)))

/-- `dynamic_bitset::reset(pos)`. What it shifts is a zero. -/
def reset (bs : DynamicBitset) (pos : ℕ) : Except Fault DynamicBitset := do
  check build (pos ≤ bs.size)
  let w ← bs.word (pos / bitLength)
  bs.setWord (pos / bitLength) (w &&& (← shiftLeft overlong 0 (pos % bitLength)))

/-- `dynamic_bitset::flip(pos)`. -/
def flip (bs : DynamicBitset) (pos : ℕ) : Except Fault DynamicBitset := do
  check build (pos ≤ bs.size)
  let w ← bs.word (pos / bitLength)
  bs.setWord (pos / bitLength) (w ^^^ (← shiftLeft overlong 1 (pos % bitLength)))

end Positions

/-! ### Counting the bits of a word -/

/-- The three steps of `count_bit` on a byte of its own. -/
def pairs (b : ℕ) : ℕ := b - (b / 2 &&& 0x55)

@[inherit_doc pairs]
def nibbles (b : ℕ) : ℕ := (b &&& 0x33) + (b / 4 &&& 0x33)

@[inherit_doc pairs]
def octet (b : ℕ) : ℕ := (b + b / 16) % 16

/-- No step borrows from the next byte or carries into it. -/
theorem bytes_separate : ∀ b < 256, (b / 2 &&& 0x55) ≤ b ∧ (pairs b &&& 0x33) ≤ 0x33 ∧
    (pairs b / 4 &&& 0x33) ≤ 0x33 ∧ nibbles (pairs b) % 16 ≤ 4 ∧ nibbles (pairs b) / 16 ≤ 4 ∧
    octet (nibbles (pairs b)) = popCount 8 b := by
  decide +kernel

theorem pairs_lanes {b₃ b₂ b₁ b₀ : ℕ} (h₃ : b₃ < 256) (h₂ : b₂ < 256) (h₁ : b₁ < 256) (h₀ : b₀ < 256)
    {w : UInt32} (hw : w.toNat = lanes b₃ b₂ b₁ b₀) :
    (w - ((w >>> 1) &&& 0x55555555)).toNat = lanes (pairs b₃) (pairs b₂) (pairs b₁) (pairs b₀) := by
  have hmask : ((w >>> 1) &&& 0x55555555).toNat =
      lanes (b₃ / 2 &&& 0x55) (b₂ / 2 &&& 0x55) (b₁ / 2 &&& 0x55) (b₀ / 2 &&& 0x55) := by
    rw [UInt32.toNat_and, UInt32.toNat_shiftRight, hw, Nat.shiftRight_eq_div_pow]
    exact land_shift_lanes (m := 0x55) (.inl rfl) (by decide) h₃ h₂ h₁ h₀
  obtain ⟨l₃, -⟩ := bytes_separate b₃ h₃
  obtain ⟨l₂, -⟩ := bytes_separate b₂ h₂
  obtain ⟨l₁, -⟩ := bytes_separate b₁ h₁
  obtain ⟨l₀, -⟩ := bytes_separate b₀ h₀
  have hle : ((w >>> 1) &&& 0x55555555).toNat ≤ w.toNat := by
    rw [hmask, hw]
    unfold lanes
    omega
  rw [UInt32.toNat_sub_of_le _ _ (UInt32.le_iff_toNat_le.mpr hle), hmask, hw]
  unfold lanes pairs
  omega

theorem nibbles_lanes {b₃ b₂ b₁ b₀ : ℕ} (h₃ : b₃ < 256) (h₂ : b₂ < 256) (h₁ : b₁ < 256) (h₀ : b₀ < 256)
    {w : UInt32} (hw : w.toNat = lanes (pairs b₃) (pairs b₂) (pairs b₁) (pairs b₀)) :
    ((w &&& (0x33333333 : UInt32)) + ((w >>> 2) &&& (0x33333333 : UInt32))).toNat =
      lanes (nibbles (pairs b₃)) (nibbles (pairs b₂)) (nibbles (pairs b₁)) (nibbles (pairs b₀)) := by
  have hpairs : ∀ b < 256, pairs b < 256 := fun b hb => (Nat.sub_le _ _).trans_lt hb
  have hlow : (w &&& 0x33333333).toNat = lanes (pairs b₃ &&& 0x33) (pairs b₂ &&& 0x33)
      (pairs b₁ &&& 0x33) (pairs b₀ &&& 0x33) := by
    rw [UInt32.toNat_and, hw]
    exact @land_lanes _ _ _ _ 0x33 0x33 0x33 0x33 (hpairs b₂ h₂) (hpairs b₁ h₁) (hpairs b₀ h₀)
      (by decide) (by decide) (by decide)
  have hhigh : ((w >>> 2) &&& 0x33333333).toNat = lanes (pairs b₃ / 4 &&& 0x33)
      (pairs b₂ / 4 &&& 0x33) (pairs b₁ / 4 &&& 0x33) (pairs b₀ / 4 &&& 0x33) := by
    rw [UInt32.toNat_and, UInt32.toNat_shiftRight, hw, Nat.shiftRight_eq_div_pow]
    exact land_shift_lanes (m := 0x33) (.inr (.inl rfl)) (by decide) (hpairs b₃ h₃) (hpairs b₂ h₂) (hpairs b₁ h₁)
      (hpairs b₀ h₀)
  obtain ⟨-, l₃, m₃, -⟩ := bytes_separate b₃ h₃
  obtain ⟨-, l₂, m₂, -⟩ := bytes_separate b₂ h₂
  obtain ⟨-, l₁, m₁, -⟩ := bytes_separate b₁ h₁
  obtain ⟨-, l₀, m₀, -⟩ := bytes_separate b₀ h₀
  rw [UInt32.toNat_add, hlow, hhigh]
  unfold lanes nibbles
  omega

theorem octet_le {c : ℕ} (hlow : c % 16 ≤ 4) (hhigh : c / 16 ≤ 4) : octet c ≤ 8 := by
  have hc : c + c / 16 = c % 16 + c / 16 + 16 * (c / 16) := by omega
  rw [octet, hc, Nat.add_mul_mod_self_left, Nat.mod_eq_of_lt (by omega)]
  omega

/-- The last step adds the four bytes: the product has their sum in its highest byte. -/
theorem octets_lanes {c₃ c₂ c₁ c₀ : ℕ} {w : UInt32} (hw : w.toNat = lanes c₃ c₂ c₁ c₀)
    (h : ∀ c ∈ [c₃, c₂, c₁, c₀], c % 16 ≤ 4 ∧ c / 16 ≤ 4) :
    UInt32.toNat ((((w + (w >>> 4)) &&& 0x0F0F0F0F) * 0x01010101) >>> 24) =
      octet c₃ + octet c₂ + octet c₁ + octet c₀ := by
  obtain ⟨⟨l₃, m₃⟩, ⟨l₂, m₂⟩, ⟨l₁, m₁⟩, l₀, m₀⟩ : (c₃ % 16 ≤ 4 ∧ c₃ / 16 ≤ 4) ∧
      (c₂ % 16 ≤ 4 ∧ c₂ / 16 ≤ 4) ∧ (c₁ % 16 ≤ 4 ∧ c₁ / 16 ≤ 4) ∧ c₀ % 16 ≤ 4 ∧ c₀ / 16 ≤ 4 :=
    ⟨h _ (by simp), h _ (by simp), h _ (by simp), h _ (by simp)⟩
  have hsum : (w + (w >>> 4)).toNat = lanes (c₃ + c₃ / 16) (c₂ + c₂ / 16 + c₃ % 16 * 16)
      (c₁ + c₁ / 16 + c₂ % 16 * 16) (c₀ + c₀ / 16 + c₁ % 16 * 16) := by
    rw [UInt32.toNat_add, UInt32.toNat_shiftRight, hw, Nat.shiftRight_eq_div_pow]
    simp only [UInt32.reduceToNat, Nat.reduceMod, Nat.reducePow]
    unfold lanes
    omega
  have hmask : ∀ c, c &&& 0x0F = c % 16 := fun c => Nat.and_two_pow_sub_one_eq_mod c 4
  have hand : ((w + (w >>> 4)) &&& 0x0F0F0F0F).toNat =
      lanes (octet c₃) (octet c₂) (octet c₁) (octet c₀) := by
    have hland := @land_lanes (c₃ + c₃ / 16) (c₂ + c₂ / 16 + c₃ % 16 * 16) (c₁ + c₁ / 16 + c₂ % 16 * 16)
      (c₀ + c₀ / 16 + c₁ % 16 * 16) 0x0F 0x0F 0x0F 0x0F (by omega) (by omega) (by omega) (by decide)
      (by decide) (by decide)
    rw [UInt32.toNat_and, hsum]
    rw [hmask, hmask, hmask, hmask] at hland
    unfold octet
    refine hland.trans ?_
    congr 1 <;> omega
  -- the bytes of the product: above the sum of all four, and below it
  have hprod : lanes (octet c₃) (octet c₂) (octet c₁) (octet c₀) * 0x01010101 =
      2 ^ 32 * (octet c₃ * 2 ^ 16 + (octet c₃ + octet c₂) * 2 ^ 8 + (octet c₃ + octet c₂ + octet c₁)) +
        (2 ^ 24 * (octet c₃ + octet c₂ + octet c₁ + octet c₀) +
          ((octet c₂ + octet c₁ + octet c₀) * 2 ^ 16 + (octet c₁ + octet c₀) * 2 ^ 8 + octet c₀)) := by
    unfold lanes
    ring
  have o₃ := octet_le l₃ m₃
  have o₂ := octet_le l₂ m₂
  have o₁ := octet_le l₁ m₁
  have o₀ := octet_le l₀ m₀
  have hlow : (octet c₂ + octet c₁ + octet c₀) * 2 ^ 16 + (octet c₁ + octet c₀) * 2 ^ 8 + octet c₀ <
      2 ^ 24 := by omega
  have hword : 2 ^ 24 * (octet c₃ + octet c₂ + octet c₁ + octet c₀) +
      ((octet c₂ + octet c₁ + octet c₀) * 2 ^ 16 + (octet c₁ + octet c₀) * 2 ^ 8 + octet c₀) <
      2 ^ 32 := by omega
  rw [UInt32.toNat_shiftRight, UInt32.toNat_mul, hand, Nat.shiftRight_eq_div_pow]
  simp only [UInt32.reduceToNat, Nat.reduceMod]
  rw [hprod, Nat.mul_add_mod, Nat.mod_eq_of_lt hword, Nat.mul_add_div (Nat.two_pow_pos 24),
    Nat.div_eq_of_lt hlow, Nat.add_zero]

/-- `count_bit` counts the bits of a word. -/
theorem countBit_eq (w : UInt32) : countBit w = popCount 32 w.toNat := by
  obtain ⟨b₃, b₂, b₁, b₀, hw, h₃, h₂, h₁, h₀⟩ := exists_lanes w.toNat_lt
  have hpairs := pairs_lanes h₃ h₂ h₁ h₀ hw
  have hnibbles := nibbles_lanes h₃ h₂ h₁ h₀ hpairs
  have hsmall : ∀ c ∈ [nibbles (pairs b₃), nibbles (pairs b₂), nibbles (pairs b₁), nibbles (pairs b₀)],
      c % 16 ≤ 4 ∧ c / 16 ≤ 4 := by
    have hb : ∀ b < 256, nibbles (pairs b) % 16 ≤ 4 ∧ nibbles (pairs b) / 16 ≤ 4 := by
      intro b hb
      obtain ⟨-, -, -, hlow, hhigh, -⟩ := bytes_separate b hb
      exact ⟨hlow, hhigh⟩
    simp only [List.forall_mem_cons]
    exact ⟨hb b₃ h₃, hb b₂ h₂, hb b₁ h₁, hb b₀ h₀, fun _ h => nomatch h⟩
  have hbyte : ∀ b < 256, octet (nibbles (pairs b)) = popCount 8 b := by
    intro b hb
    obtain ⟨-, -, -, -, -, heq⟩ := bytes_separate b hb
    exact heq
  calc countBit w
      = octet (nibbles (pairs b₃)) + octet (nibbles (pairs b₂)) + octet (nibbles (pairs b₁)) +
          octet (nibbles (pairs b₀)) := octets_lanes hnibbles hsmall
    _ = popCount 8 b₃ + popCount 8 b₂ + popCount 8 b₁ + popCount 8 b₀ := by
        rw [hbyte b₃ h₃, hbyte b₂ h₂, hbyte b₁ h₁, hbyte b₀ h₀]
    _ = popCount 32 w.toNat := by rw [hw, popCount_lanes h₂ h₁ h₀]

/-! ### The bits of a word -/

theorem toNat_one_shiftLeft {n : ℕ} (h : n < 32) : (1 <<< UInt32.ofNat n : UInt32).toNat = 2 ^ n := by
  have hmod : (UInt32.ofNat n).toNat % 32 = n := by
    rw [UInt32.toNat_ofNat']
    omega
  have hlt : 2 ^ n < 2 ^ 32 := Nat.pow_lt_pow_right (by decide) h
  rw [UInt32.toNat_shiftLeft, hmod, UInt32.toNat_one, Nat.one_shiftLeft, Nat.mod_eq_of_lt hlt]

theorem and_shiftLeft_bne_zero (w : UInt32) {n : ℕ} (h : n < 32) :
    ((w &&& 1 <<< UInt32.ofNat n) != 0) = w.toNat.testBit n := by
  have hval : (w &&& 1 <<< UInt32.ofNat n).toNat = (w.toNat.testBit n).toNat * 2 ^ n := by
    rw [UInt32.toNat_and, toNat_one_shiftLeft h, Nat.and_two_pow]
  cases hbit : w.toNat.testBit n with
  | false =>
    rw [hbit, Bool.toNat_false, Nat.zero_mul] at hval
    rw [UInt32.toNat_inj.mp (hval.trans UInt32.toNat_zero.symm)]
    rfl
  | true =>
    have hpos := Nat.two_pow_pos n
    rw [hbit, Bool.toNat_true, Nat.one_mul] at hval
    apply bne_iff_ne.mpr
    intro hzero
    rw [hzero, UInt32.toNat_zero] at hval
    omega

theorem testBit_or_shiftLeft (w : UInt32) {n : ℕ} (h : n < 32) (i : ℕ) :
    (w ||| 1 <<< UInt32.ofNat n).toNat.testBit i = (w.toNat.testBit i || decide (n = i)) := by
  rw [UInt32.toNat_or, toNat_one_shiftLeft h, Nat.testBit_or, Nat.testBit_two_pow]

theorem testBit_xor_shiftLeft (w : UInt32) {n : ℕ} (h : n < 32) (i : ℕ) :
    (w ^^^ 1 <<< UInt32.ofNat n).toNat.testBit i = (w.toNat.testBit i ^^ decide (n = i)) := by
  rw [UInt32.toNat_xor, toNat_one_shiftLeft h, Nat.testBit_xor, Nat.testBit_two_pow]

/-! ### A set with one word

Up to 63 positions there is one word, and the shift amount of a position is the position. -/

section OneWord

variable {build : Build} (overlong : UInt32 → ℕ → Except Fault UInt32) {size : ℕ} (g : ℕ) (w : UInt32)

theorem new_oneWord (h : size ≤ 32) : new g size = ⟨size, g, [0]⟩ := by
  have hlen : size / bitLength + 1 = 1 := by
    unfold bitLength
    omega
  rw [new, hlen]
  rfl

/-- What the functions of one position find: the word, and a shift by the position. -/
theorem position_oneWord (build : Build) {size pos : ℕ} (hpos : pos < size) (hsize : size ≤ 32) :
    check build (pos ≤ size) = .ok () ∧ pos / bitLength = 0 ∧ pos % bitLength = pos ∧ pos < 32 := by
  refine ⟨check_of build hpos.le, ?_, ?_, by omega⟩
  all_goals
    unfold bitLength
    omega

variable {pos : ℕ} (hpos : pos < size) (hsize : size ≤ 32)
include hpos hsize

theorem test_oneWord :
    test build overlong ⟨size, g, [w]⟩ pos = .ok (w.toNat.testBit pos) := by
  obtain ⟨hcheck, hdiv, hmod, hlt⟩ := position_oneWord build hpos hsize
  rw [test, hcheck, ok_bind, hdiv, hmod, shiftLeft, if_pos hlt, ← and_shiftLeft_bne_zero w hlt]
  rfl

theorem set_oneWord : set build overlong ⟨size, g, [w]⟩ pos =
    .ok ⟨size, g, [w ||| 1 <<< UInt32.ofNat pos]⟩ := by
  obtain ⟨hcheck, hdiv, hmod, hlt⟩ := position_oneWord build hpos hsize
  rw [set, hcheck, ok_bind, hdiv, hmod, shiftLeft, if_pos hlt]
  rfl

/-- The word is masked with zero, whatever the position is. -/
theorem reset_oneWord : reset build overlong ⟨size, g, [w]⟩ pos = .ok ⟨size, g, [0]⟩ := by
  obtain ⟨hcheck, hdiv, hmod, hlt⟩ := position_oneWord build hpos hsize
  have hzero : w &&& 0 <<< UInt32.ofNat pos = 0 := by
    rw [UInt32.zero_shiftLeft, UInt32.and_zero]
  rw [reset, hcheck, ok_bind, hdiv, hmod, shiftLeft, if_pos hlt]
  show Except.ok _ = _
  rw [hzero]
  rfl

theorem flip_oneWord : flip build overlong ⟨size, g, [w]⟩ pos =
    .ok ⟨size, g, [w ^^^ 1 <<< UInt32.ofNat pos]⟩ := by
  obtain ⟨hcheck, hdiv, hmod, hlt⟩ := position_oneWord build hpos hsize
  rw [flip, hcheck, ok_bind, hdiv, hmod, shiftLeft, if_pos hlt]
  rfl

end OneWord

/-- From position 32 on, the shift amount exceeds the word. -/
theorem test_32_undefined (build : Build) {g size : ℕ} (h : 32 < size) :
    test build undefined (new g size) 32 = .error (.badIndex 32 32) := by
  have hword : word (new g size) 0 = .ok 0 := by
    rw [word, new]
    simp only [List.getElem?_replicate, Nat.succ_pos, if_true]
  rw [test, check_of build (by rw [new]; exact h.le), ok_bind]
  show (word (new g size) 0 >>= _) = _
  rw [hword]
  rfl

end DynamicBitset

end TerraX
