import TerraX.Base.DynamicBitset

/-!
# The loops over the words of a bit set

`count`, `any`, `set()`, `reset()` and `flip()` go through the words in front of an index. Where
the array has that many, whatever lies behind them, the first two tell of the bits of these words,
and the others change these words only.

## Main definitions

- `DynamicBitset.ones` — how many bits of the words are set
- `DynamicBitset.countSizeT` — `count` with its sum in a `size_t`

## Main results

- `DynamicBitset.counts_ones` — `count` counts the set bits of any number of words
- `DynamicBitset.countSizeT_eq_count` — the `size_t` never wraps around in a set
- `DynamicBitset.any_words`, `DynamicBitset.mapWords_words` — the other loops
- `DynamicBitset.ones_not` — the set bits after `flip()`
-/

namespace TerraX

open Memory PopCount

namespace DynamicBitset

/-- The number of set bits of some words. -/
def ones (words : List UInt32) : ℕ := (wordBits 32 (words.map UInt32.toNat)).count true

/-- `count` with its sum in a `size_t`. -/
def countSizeT (bs : DynamicBitset) : Except Fault ℕ :=
  (List.range bs.arrLength).foldlM (fun n i => do return sizeT (n + countBit (← bs.word i))) 0

/-! ### Counting -/

theorem ones_eq (words : List UInt32) : ones words = (words.map countBit).sum := by
  have hword : (popCount 32 ∘ UInt32.toNat) = countBit := by
    funext w
    exact (countBit_eq w).symm
  rw [ones, count_wordBits, List.map_map, hword]

theorem ones_le (words : List UInt32) : ones words ≤ words.length * 32 := by
  calc ones words
      ≤ (wordBits 32 (words.map UInt32.toNat)).length := List.count_le_length
    _ = words.length * 32 := by rw [length_wordBits, List.length_map]

section Words

variable (g size : ℕ) (words behind : List UInt32)

theorem word_words (i : ℕ) (hi : i < words.length) :
    word ⟨size, g, words ++ behind⟩ i = .ok words[i] := by
  rw [word, List.getElem?_append_left hi, List.getElem?_eq_getElem hi]

theorem count_words : count ⟨size, words.length, words ++ behind⟩ = .ok (ones words) := by
  have hsum : words.foldl (fun n w => n + countBit w) 0 = ones words := by
    rw [ones_eq, List.sum_eq_foldl, List.foldl_map]
  rw [← hsum]
  exact foldlM_range_ok (word_words words.length size words behind) (fun n w => n + countBit w) 0

theorem countSizeT_words :
    countSizeT ⟨size, words.length, words ++ behind⟩ = .ok (ones words % 2 ^ 64) := by
  rw [ones_eq, ← foldl_sizeT_add]
  exact foldlM_range_ok (word_words words.length size words behind)
    (fun n w => sizeT (n + countBit w)) 0

end Words

/-- `count_bit` counts the set bits of every word, and the loop of `count` those of any number of
    words in an array. A sum that is kept in a `size_t` wraps around at `2 ^ 64`; no word adds
    more than 32 to it. -/
theorem counts_ones (size : ℕ) (words behind : List UInt32) :
    (∀ w, countBit w = popCount 32 w.toNat) ∧
      count ⟨size, words.length, words ++ behind⟩ = .ok (ones words) ∧
      countSizeT ⟨size, words.length, words ++ behind⟩ = .ok (ones words % 2 ^ 64) ∧
      ones words ≤ words.length * 32 :=
  ⟨countBit_eq, count_words size words behind, countSizeT_words size words behind, ones_le words⟩

example : count ⟨64, 2, [0xFFFFFFFF, 5, 7]⟩ = .ok 34 := rfl

/-- The array of a set has at most `2 ^ 58` words, since its size is a `size_t`. -/
theorem countSizeT_eq_count {size : ℕ} (hsize : size < 2 ^ 64) {words : List UInt32}
    (hlen : words.length = size / bitLength + 1) :
    countSizeT ⟨size, words.length, words⟩ = count ⟨size, words.length, words⟩ := by
  have hle := ones_le words
  rw [bitLength] at hlen
  have hcount := count_words size words []
  have hcountSizeT := countSizeT_words size words []
  rw [List.append_nil] at hcount hcountSizeT
  rw [hcount, hcountSizeT, Nat.mod_eq_of_lt (by omega)]

/-! ### The other loops -/

section Words

variable (g size : ℕ) (words behind : List UInt32)

/-- The words that have been written are those in front of the index. -/
theorem mapWords_loop (f : UInt32 → UInt32) :
    (List.range words.length).foldlM
        (fun (bs : DynamicBitset) i => do bs.setWord i (f (← bs.word i)))
        ⟨size, g, words ++ behind⟩ = .ok ⟨size, g, words.map f ++ behind⟩ := by
  induction words using List.reverseRecOn generalizing behind with
  | nil => rfl
  | append_singleton words w ih =>
    have hword : word ⟨size, g, words.map f ++ w :: behind⟩ words.length = .ok w := by
      rw [word, List.getElem?_append_right (by simp), List.length_map, Nat.sub_self]
      rfl
    have hset : setWord ⟨size, g, words.map f ++ w :: behind⟩ words.length (f w) =
        .ok ⟨size, g, words.map f ++ f w :: behind⟩ := by
      rw [setWord, if_pos (by simp)]
      congr 2
      rw [List.set_append_right _ _ (by simp), List.length_map, Nat.sub_self, List.set_cons_zero]
    rw [List.length_append, List.length_singleton, List.range_succ, List.foldlM_append,
      List.append_assoc, List.singleton_append, ih (w :: behind), ok_bind, List.foldlM_cons, hword,
      ok_bind, hset, List.map_append, List.append_assoc]
    rfl

/-- `set()`, `reset()` and `flip()` write the words that the loop goes through. -/
theorem mapWords_words (f : UInt32 → UInt32) :
    mapWords ⟨size, words.length, words ++ behind⟩ f =
      .ok ⟨size, words.length, words.map f ++ behind⟩ :=
  mapWords_loop words.length size words behind f

/-- The loop of `any` behind the words `done`. -/
theorem anyFrom_words (done : List UInt32) :
    anyFrom ⟨size, g, done ++ words ++ behind⟩ (List.range' done.length words.length) =
      .ok (words.any (· ≠ 0)) := by
  induction words generalizing done with
  | nil => rfl
  | cons w words ih =>
    have hword : word ⟨size, g, done ++ w :: words ++ behind⟩ done.length = .ok w := by
      rw [word_words g size (done ++ w :: words) behind done.length (by simp)]
      simp
    rw [List.length_cons, List.range'_succ, anyFrom, hword, ok_bind, List.any_cons]
    by_cases hw : w = 0
    · have hrest := ih (done ++ [w])
      rw [List.length_append, List.length_singleton, List.append_assoc done,
        List.singleton_append] at hrest
      rw [if_neg (not_not.mpr hw), decide_eq_false (not_not.mpr hw), Bool.false_or]
      exact hrest
    · rw [if_pos hw, decide_eq_true hw, Bool.true_or]
      rfl

theorem any_words :
    any ⟨size, words.length, words ++ behind⟩ = .ok (words.any (· ≠ 0)) := by
  rw [any, List.range_eq_range']
  exact anyFrom_words words.length size words behind []

/-- After `flip()` the other bits of the words are set. -/
theorem ones_not : ones (words.map (~~~ ·)) + ones words = words.length * 32 := by
  induction words with
  | nil => rfl
  | cons w words ih =>
    have hword : countBit (~~~w) + countBit w = 32 := by
      rw [countBit_eq, countBit_eq, UInt32.toNat_not]
      exact popCount_complement w.toNat_lt
    rw [ones_eq, ones_eq] at ih ⊢
    rw [List.map_cons, List.map_cons, List.map_cons, List.sum_cons, List.sum_cons, List.length_cons]
    omega

theorem count_flipAll :
    ∃ bs, flipAll ⟨size, words.length, words ++ behind⟩ = .ok bs ∧
      bs.count = .ok (words.length * 32 - ones words) := by
  refine ⟨_, mapWords_words size words behind (~~~ ·), ?_⟩
  have hcount := count_words size (words.map (~~~ ·)) behind
  have hnot := ones_not words
  rw [List.length_map] at hcount
  rw [hcount]
  congr 1
  omega

end Words

end DynamicBitset

end TerraX
