import Mathlib.Algebra.BigOperators.Group.List.Basic
import Mathlib.Algebra.GroupWithZero.Nat
import Mathlib.Data.Set.Lattice
import Mathlib.Order.CompletePartialOrder
import Mathlib.Order.Interval.Set.Basic

/-!
# Segments laid end to end

A list of sizes lays out segments without gaps: each starts where the sizes before it end.
Segments may be empty.

## Main definitions

- `Segments.start` — where a segment starts
- `Segments.extent` — the positions of a segment

## Main results

- `Segments.start_append` — a layout that grows keeps its segments
- `Segments.disjoint` — segments do not overlap
- `Segments.iUnion_extent` — together they are the whole range
-/

namespace Segments

/-- The start of the segment `i`. -/
def start (sizes : List ℕ) (i : ℕ) : ℕ := (sizes.take i).sum

/-- The positions of the segment `i`; there are none behind the last segment. -/
def extent (sizes : List ℕ) (i : ℕ) : Set ℕ :=
  Set.Ico (start sizes i) (start sizes i + (sizes[i]?).getD 0)

@[simp] theorem start_zero (sizes : List ℕ) : start sizes 0 = 0 := by
  rw [start, List.take_zero, List.sum_nil]

theorem start_length (sizes : List ℕ) : start sizes sizes.length = sizes.sum := by
  rw [start, List.take_length]

/-- A segment ends where the next one starts. -/
theorem start_succ (sizes : List ℕ) (i : ℕ) :
    start sizes (i + 1) = start sizes i + (sizes[i]?).getD 0 := by
  rw [start, List.take_add_one, List.sum_append]
  cases sizes[i]? with
  | none => rfl
  | some n => simp [start]

theorem start_mono (sizes : List ℕ) : Monotone (start sizes) := by
  apply monotone_nat_of_le_succ
  intro i
  rw [start_succ]
  exact Nat.le_add_right _ _

theorem start_append (sizes more : List ℕ) {i : ℕ} (h : i ≤ sizes.length) :
    start (sizes ++ more) i = start sizes i := by
  rw [start, List.take_append_of_le_length h, start]

/-- An earlier segment ends before a later one starts. -/
theorem end_le_start (sizes : List ℕ) {i j : ℕ} (h : i < j) :
    start sizes i + (sizes[i]?).getD 0 ≤ start sizes j := by
  rw [← start_succ]
  exact start_mono sizes h

theorem end_le_sum (sizes : List ℕ) (i : ℕ) :
    start sizes i + (sizes[i]?).getD 0 ≤ sizes.sum := by
  calc start sizes i + (sizes[i]?).getD 0
      = (sizes.take (i + 1)).sum := (start_succ sizes i).symm
    _ ≤ (sizes.take (i + 1)).sum + (sizes.drop (i + 1)).sum := Nat.le_add_right _ _
    _ = sizes.sum := by rw [← List.sum_append, List.take_append_drop]

/-- Segments do not overlap. -/
theorem disjoint (sizes : List ℕ) {i j : ℕ} (h : i ≠ j) :
    Disjoint (extent sizes i) (extent sizes j) := by
  wlog hlt : i < j with hwlog
  · exact (hwlog sizes h.symm (by omega)).symm
  · have hend := end_le_start sizes hlt
    rw [Set.disjoint_left]
    intro p hi hj
    exact absurd (hi.2.trans_le (hend.trans hj.1)) (lt_irrefl p)

/-- A position lies in one of the segments before `i` or behind all of them. -/
theorem mem_extent_of_lt_start (sizes : List ℕ) (p : ℕ) :
    ∀ i, p < start sizes i → ∃ j < i, p ∈ extent sizes j := by
  intro i
  induction i with
  | zero => simp
  | succ i ih =>
    intro hp
    by_cases hbefore : p < start sizes i
    · obtain ⟨j, hj, hmem⟩ := ih hbefore
      exact ⟨j, hj.trans (Nat.lt_succ_self i), hmem⟩
    · rw [start_succ] at hp
      exact ⟨i, Nat.lt_succ_self i, Nat.le_of_not_lt hbefore, hp⟩

/-- The segments are the whole range. -/
theorem iUnion_extent (sizes : List ℕ) :
    ⋃ i < sizes.length, extent sizes i = Set.Iio sizes.sum := by
  ext p
  simp only [Set.mem_iUnion, Set.mem_Iio, exists_prop]
  constructor
  · rintro ⟨i, -, hmem⟩
    exact hmem.2.trans_le (end_le_sum sizes i)
  · rw [← start_length]
    exact mem_extent_of_lt_start sizes p sizes.length

end Segments
