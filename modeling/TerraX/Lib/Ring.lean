import TerraX.Lib.Memory
import Mathlib.Data.List.Rotate

/-!
# A queue in a circular block

A block read from a start position on, around its end, is the block rotated by the start. A queue
lies in the block if it is in front there. Copies around the end are made in two parts.

## Main results

- `Ring.push`, `Ring.pop` — adding behind the queue, and taking from its front
- `Ring.write_around`, `Ring.read_around` — copies in two parts
-/

namespace Ring

open Memory

section Queue

variable {α : Type} {block block' queue added : List α} {start : ℕ}

theorem rotate_add_length (l : List α) (n : ℕ) : l.rotate (n + l.length) = l.rotate n := by
  rw [← List.rotate_mod, Nat.add_mod_right, List.rotate_mod]

/-- What is written behind the queue extends it, if there was room. -/
theorem push (hqueue : queue <+: block.rotate start) (hlen : block'.length = block.length)
    (hadded : block'.rotate (start + queue.length) =
      added ++ (block.rotate (start + queue.length)).drop added.length)
    (hroom : queue.length + added.length ≤ block.length) : queue ++ added <+: block'.rotate start := by
  obtain ⟨free, hfree⟩ := hqueue
  have hcap : queue.length + free.length = block.length := by
    rw [← List.length_append, hfree, List.length_rotate]
  have hbehind : block.rotate (start + queue.length) = free ++ queue := by
    rw [← List.rotate_rotate, ← hfree, List.rotate_append_length_eq]
  rw [hbehind, List.drop_append_of_le_length (by omega), ← List.append_assoc] at hadded
  -- going around from behind the queue, one comes back to its front
  have haround : start + queue.length + (added ++ free.drop added.length).length =
      start + block'.length := by
    rw [hlen, List.length_append, List.length_drop]
    omega
  have hfront : block'.rotate start = queue ++ (added ++ free.drop added.length) := by
    rw [← rotate_add_length, ← haround, ← List.rotate_rotate, hadded, List.rotate_append_length_eq]
  exact ⟨free.drop added.length, by rw [hfront, List.append_assoc]⟩

/-- Behind its first `n` entries there is the rest of the queue. -/
theorem pop (hqueue : queue <+: block.rotate start) (n : ℕ) (hn : n ≤ queue.length) :
    queue.drop n <+: block.rotate (start + n) := by
  obtain ⟨free, hfree⟩ := hqueue
  have hn' : n ≤ (block.rotate start).length := by
    rw [← hfree, List.length_append]
    omega
  rw [← List.rotate_rotate, List.rotate_eq_drop_append_take hn', ← hfree,
    List.drop_append_of_le_length hn, List.append_assoc]
  exact List.prefix_append _ _

/-- What stands in front is the front of the queue. -/
theorem take_front (hqueue : queue <+: block.rotate start) {n : ℕ} (hn : n ≤ queue.length) :
    (block.rotate start).take n = queue.take n := by
  obtain ⟨free, hfree⟩ := hqueue
  rw [← hfree, List.take_append_of_le_length hn]

end Queue

/-! ### Copies in two parts -/

variable {block bytes : List UInt8} {start : ℕ}

/-- The first part goes up to the end of the block, and the second one to its beginning. -/
theorem write_around (hstart : start < block.length) (hlen : bytes.length ≤ block.length) :
    ∃ mid block', write block start (bytes.take (min bytes.length (block.length - start))) = .ok mid ∧
      write mid 0 (bytes.drop (min bytes.length (block.length - start))) = .ok block' ∧
      block'.length = block.length ∧
      block'.rotate start = bytes ++ (block.rotate start).drop bytes.length := by
  obtain ⟨front, back, rfl, hfront⟩ := exists_cut block hstart.le
  have hback : (front ++ back).length - start = back.length := by
    rw [List.length_append, hfront, Nat.add_sub_cancel_left]
  rw [List.length_append] at hlen
  rw [hback, ← hfront, List.rotate_append_length_eq]
  -- all bytes fit behind the start, or the second part of them goes to the front
  by_cases hfits : bytes.length ≤ back.length
  · have hmin : min bytes.length back.length = bytes.length := Nat.min_eq_left hfits
    refine ⟨front ++ bytes ++ back.drop bytes.length, front ++ bytes ++ back.drop bytes.length,
      ?_, ?_, ?_, ?_⟩
    · rw [hmin, List.take_length, write_append rfl hfits]
    · rw [hmin, List.drop_length, write_ok (by simp)]
      simp
    · simp only [List.length_append, List.length_drop]
      omega
    · rw [List.append_assoc, List.rotate_append_length_eq, List.drop_append_of_le_length hfits,
        List.append_assoc]
  · obtain ⟨first, second, rfl, hfirst⟩ := exists_cut bytes (Nat.le_of_not_le hfits)
    have hmin : min (first ++ second).length back.length = first.length := by omega
    rw [List.length_append] at hlen hfits
    have hsecond : (second ++ front.drop second.length).length = front.length := by
      rw [List.length_append, List.length_drop]
      omega
    refine ⟨front ++ first, second ++ front.drop second.length ++ first, ?_, ?_, ?_, ?_⟩
    · rw [hmin, List.take_left, write_append rfl hfirst.le, hfirst, List.drop_length, List.append_nil]
    · rw [hmin, List.drop_left, write_ok (by simp; omega)]
      simp only [List.take_zero, List.nil_append, Nat.zero_add]
      rw [List.drop_append_of_le_length (by omega), List.append_assoc]
    · rw [List.length_append, hsecond, List.length_append, hfirst]
    · have hdrop : (back ++ front).drop (first ++ second).length = front.drop second.length := by
        rw [List.length_append, hfirst, List.drop_length_add_append]
      rw [← hsecond, List.rotate_append_length_eq, hdrop, List.append_assoc]

/-- The first part comes from the end of the block, and the second one from its beginning. -/
theorem read_around {n : ℕ} (hstart : start < block.length) (hn : n ≤ block.length) :
    read block start (min n (block.length - start)) =
        .ok (slice block start (min n (block.length - start))) ∧
      read block 0 (n - min n (block.length - start)) =
        .ok (slice block 0 (n - min n (block.length - start))) ∧
      slice block start (min n (block.length - start)) ++
        slice block 0 (n - min n (block.length - start)) = (block.rotate start).take n := by
  refine ⟨read_ok (by omega), read_ok (by omega), ?_⟩
  obtain ⟨front, back, rfl, hfront⟩ := exists_cut block hstart.le
  have hback : (front ++ back).length - start = back.length := by
    rw [List.length_append, hfront, Nat.add_sub_cancel_left]
  rw [List.length_append] at hn
  rw [hback, ← hfront, List.rotate_append_length_eq]
  by_cases hfits : n ≤ back.length
  · rw [Nat.min_eq_left hfits, Nat.sub_self, List.take_append_of_le_length hfits, slice, slice,
      List.drop_left, List.take_zero, List.append_nil]
  · have hle : n - back.length ≤ front.length := by omega
    rw [Nat.min_eq_right (Nat.le_of_not_le hfits), slice, slice, List.drop_left, List.take_length,
      List.drop_zero, List.take_append_of_le_length hle, List.take_append,
      List.take_of_length_le (Nat.le_of_not_le hfits)]

end Ring
