import TerraX.Base.DynamicBitset
import TerraX.Lib.Run
import Mathlib.Data.Finset.Insert

/-!
# A bit set against a plain set of positions

Runs of `set(pos)`, `reset(pos)` and `flip(pos)`. The positions of a row are those of its
columns; what a run should leave behind is a plain set of them.

## Main definitions

- `PosOp`, with `PosOp.apply` on a bit set and `PosOp.plain` on a set of positions
- `DynamicBitset.Agrees` — after every part of a run, `test` tells what the plain set holds

## Main results

- `DynamicBitset.agrees_iff` — the runs on which it does
- `DynamicBitset.not_agrees_reset` — one on which it does not
-/

namespace TerraX

open Memory

/-- An operation on one position. -/
inductive PosOp
  | set (pos : ℕ)
  | reset (pos : ℕ)
  | flip (pos : ℕ)
deriving DecidableEq, Repr

namespace PosOp

def pos : PosOp → ℕ
  | set pos => pos
  | reset pos => pos
  | flip pos => pos

/-- What the bit set does. -/
def apply (build : Build) (overlong : UInt32 → ℕ → Except Fault UInt32) (bs : DynamicBitset) :
    PosOp → Except Fault DynamicBitset
  | set pos => bs.set build overlong pos
  | reset pos => bs.reset build overlong pos
  | flip pos => bs.flip build overlong pos

/-- What the operation names. -/
def plain (s : Finset ℕ) : PosOp → Finset ℕ
  | set pos => insert pos s
  | reset pos => s.erase pos
  | flip pos => if pos ∈ s then s.erase pos else insert pos s

/-- What the operation makes of the only word of a set. -/
def onWord (w : UInt32) : PosOp → UInt32
  | set pos => w ||| 1 <<< UInt32.ofNat pos
  | reset _ => 0
  | flip pos => w ^^^ 1 <<< UInt32.ofNat pos

theorem apply_oneWord (build : Build) (overlong : UInt32 → ℕ → Except Fault UInt32) {size : ℕ}
    (g : ℕ) (w : UInt32) {op : PosOp} (hpos : op.pos < size) (hsize : size ≤ 32) :
    op.apply build overlong ⟨size, g, [w]⟩ = .ok ⟨size, g, [op.onWord w]⟩ := by
  cases op with
  | set pos => exact DynamicBitset.set_oneWord overlong g w hpos hsize
  | reset pos => exact DynamicBitset.reset_oneWord overlong g w hpos hsize
  | flip pos => exact DynamicBitset.flip_oneWord overlong g w hpos hsize

theorem mem_plain {s : Finset ℕ} {op : PosOp} {p : ℕ} (h : p ∈ op.plain s) : p = op.pos ∨ p ∈ s := by
  cases op with
  | set pos => exact Finset.mem_insert.mp h
  | reset pos => exact Or.inr (Finset.mem_of_mem_erase h)
  | flip pos =>
    rw [plain] at h
    split at h
    · exact Or.inr (Finset.mem_of_mem_erase h)
    · exact Finset.mem_insert.mp h

end PosOp

/-- The plain set after a run. -/
def plainRun (ops : List PosOp) : Finset ℕ := ops.foldl PosOp.plain ∅

theorem plainRun_concat (ops : List PosOp) (op : PosOp) :
    plainRun (ops ++ [op]) = op.plain (plainRun ops) := by
  rw [plainRun, List.foldl_append]
  rfl

/-- It holds positions of the run only. -/
theorem lt_of_mem_plainRun {size : ℕ} {ops : List PosOp} (hops : ∀ op ∈ ops, op.pos < size) {p : ℕ}
    (h : p ∈ plainRun ops) : p < size := by
  induction ops using List.reverseRecOn with
  | nil => exact absurd h (Finset.notMem_empty p)
  | append_singleton ops op ih =>
    rw [plainRun_concat] at h
    obtain rfl | hmem := PosOp.mem_plain h
    · exact hops op (by simp)
    · exact ih (fun op hop => hops op (List.mem_append_left _ hop)) hmem

namespace DynamicBitset

/-- A run of operations on a new set. -/
def runPos (build : Build) (overlong : UInt32 → ℕ → Except Fault UInt32) (g size : ℕ)
    (ops : List PosOp) : Except Fault DynamicBitset :=
  ops.foldlM (PosOp.apply build overlong) (new g size)

/-- Every part of the run returns, so that no shift amount reaches the width of a word, and then
    `test` tells of every position whether it is in the plain set. -/
def Agrees (build : Build) (g size : ℕ) (ops : List PosOp) : Prop :=
  ∀ done rest, ops = done ++ rest → ∃ bs, runPos build undefined g size done = .ok bs ∧
    ∀ p < size, test build undefined bs p = .ok (decide (p ∈ plainRun done))

/-- The only word of a set after a run. -/
def wordAfter (ops : List PosOp) : UInt32 := ops.foldl PosOp.onWord 0

theorem wordAfter_concat (ops : List PosOp) (op : PosOp) :
    wordAfter (ops ++ [op]) = op.onWord (wordAfter ops) := by
  rw [wordAfter, List.foldl_append]
  rfl

theorem runPos_oneWord (build : Build) (overlong : UInt32 → ℕ → Except Fault UInt32) (g : ℕ)
    {size : ℕ} (hsize : size ≤ 32) {ops : List PosOp} (hops : ∀ op ∈ ops, op.pos < size) :
    runPos build overlong g size ops = .ok ⟨size, g, [wordAfter ops]⟩ := by
  rw [runPos, new_oneWord g hsize]
  let rep (w : UInt32) : DynamicBitset := ⟨size, g, [w]⟩
  have hstep : ∀ op ∈ ops, ∀ w, PosOp.apply build overlong (rep w) op = .ok (rep (op.onWord w)) :=
    fun op hop w => PosOp.apply_oneWord build overlong g w (hops op hop) hsize
  exact Run.foldlM_represents hstep 0

/-- On a set with one word the run agrees with the plain set exactly if the bits of the word do. -/
theorem agrees_oneWord_iff (build : Build) (g : ℕ) {size : ℕ} (hsize : size ≤ 32) {ops : List PosOp}
    (hops : ∀ op ∈ ops, op.pos < size) :
    Agrees build g size ops ↔ ∀ done rest, ops = done ++ rest →
      ∀ p < size, (wordAfter done).toNat.testBit p = decide (p ∈ plainRun done) := by
  apply forall_congr'
  intro done
  apply forall_congr'
  intro rest
  apply imp_congr_right
  intro hsplit
  have hdone : ∀ op ∈ done, op.pos < size := by
    intro op hop
    apply hops
    rw [hsplit]
    exact List.mem_append_left _ hop
  rw [runPos_oneWord build undefined g hsize hdone]
  constructor
  · rintro ⟨bs, hbs, htest⟩ p hp
    cases hbs
    have h := htest p hp
    rw [test_oneWord undefined g _ hp hsize] at h
    exact Except.ok.inj h
  · intro hbits
    refine ⟨_, rfl, fun p hp => ?_⟩
    rw [test_oneWord undefined g _ hp hsize, hbits p hp]

/-- One operation: `set` and `flip` change their bit as named and no other one, `reset` does if no
    other position is in the set. -/
theorem testBit_onWord {size : ℕ} (hsize : size ≤ 32) {w : UInt32} {s : Finset ℕ}
    (hbits : ∀ p < size, w.toNat.testBit p = decide (p ∈ s)) {op : PosOp} (hpos : op.pos < size)
    (hreset : ∀ pos, op = .reset pos → ∀ p ∈ s, p = pos) :
    ∀ p < size, (op.onWord w).toNat.testBit p = decide (p ∈ op.plain s) := by
  intro p hp
  cases op with
  | set pos =>
    have hlt : pos < 32 := Nat.lt_of_lt_of_le hpos hsize
    rw [PosOp.onWord, testBit_or_shiftLeft w hlt, hbits p hp, PosOp.plain]
    by_cases heq : pos = p
    · simp [heq]
    · simp [heq, Ne.symm heq, Finset.mem_insert]
  | reset pos =>
    -- the whole word is cleared, which is right only if nothing else was set
    have hnot : p ∉ s.erase pos := by
      intro hmem
      obtain ⟨hne, hs⟩ := Finset.mem_erase.mp hmem
      exact hne (hreset pos rfl p hs)
    rw [PosOp.onWord, PosOp.plain, decide_eq_false hnot, UInt32.toNat_zero, Nat.zero_testBit]
  | flip pos =>
    have hlt : pos < 32 := Nat.lt_of_lt_of_le hpos hsize
    rw [PosOp.onWord, testBit_xor_shiftLeft w hlt, hbits p hp, PosOp.plain]
    by_cases hmem : pos ∈ s <;> by_cases heq : pos = p
    · subst heq
      simp [hmem]
    · simp [hmem, heq, Ne.symm heq, Finset.mem_erase]
    · subst heq
      simp [hmem]
    · simp [hmem, heq, Ne.symm heq, Finset.mem_insert]

/-- A position from 32 on cannot even be tested. -/
theorem le_32_of_agrees {build : Build} {g size : ℕ} {ops : List PosOp}
    (h : Agrees build g size ops) : size ≤ 32 := by
  by_contra hsize
  obtain ⟨bs, hbs, htest⟩ := h [] ops rfl
  cases hbs
  have hundef := test_32_undefined build (g := g) (Nat.lt_of_not_le hsize)
  have htest := htest 32 (Nat.lt_of_not_le hsize)
  rw [hundef] at htest
  cases htest

/-- Where the bits are those of the plain set, it has nothing but the position that is reset. -/
theorem eq_of_reset {size : ℕ} {ops : List PosOp} (hops : ∀ op ∈ ops, op.pos < size)
    (hbits : ∀ done rest, ops = done ++ rest →
      ∀ p < size, (wordAfter done).toNat.testBit p = decide (p ∈ plainRun done))
    {done rest : List PosOp} {pos : ℕ} (hsplit : ops = done ++ .reset pos :: rest) {p : ℕ}
    (hp : p ∈ plainRun done) : p = pos := by
  have hdone : ∀ op ∈ done, op.pos < size := by
    intro op hop
    apply hops
    rw [hsplit]
    exact List.mem_append_left _ hop
  -- behind the `reset` the word is zero, so the plain set has to be empty
  have hafter := hbits (done ++ [.reset pos]) rest (by rw [hsplit]; simp) p
    (lt_of_mem_plainRun hdone hp)
  rw [wordAfter_concat, plainRun_concat, PosOp.onWord, PosOp.plain, UInt32.toNat_zero,
    Nat.zero_testBit] at hafter
  by_contra hne
  exact of_decide_eq_false hafter.symm (Finset.mem_erase.mpr ⟨hne, hp⟩)

/-- If a position is reset only while no other one is set, the bits are those of the plain set. -/
theorem testBit_wordAfter {size : ℕ} (hsize : size ≤ 32) {ops : List PosOp}
    (hops : ∀ op ∈ ops, op.pos < size)
    (hreset : ∀ done pos rest, ops = done ++ .reset pos :: rest → ∀ p ∈ plainRun done, p = pos)
    {done rest : List PosOp} (hsplit : ops = done ++ rest) :
    ∀ p < size, (wordAfter done).toNat.testBit p = decide (p ∈ plainRun done) := by
  induction done using List.reverseRecOn generalizing rest with
  | nil =>
    intro p _
    rw [wordAfter, plainRun, List.foldl_nil, List.foldl_nil, UInt32.toNat_zero, Nat.zero_testBit,
      decide_eq_false (Finset.notMem_empty p)]
  | append_singleton done op ih =>
    rw [List.append_assoc, List.singleton_append] at hsplit
    rw [wordAfter_concat, plainRun_concat]
    apply testBit_onWord hsize (ih hsplit)
    · apply hops
      rw [hsplit]
      simp
    · rintro pos rfl
      exact hreset done pos rest hsplit

/-- The exact runs on which a bit set is a plain set of positions: it has no more positions than a
    word has bits, since the shift amount of position 32 is 32; and no position is reset while
    another one is set, since `reset(pos)` clears the whole word. -/
theorem agrees_iff (build : Build) (g size : ℕ) (ops : List PosOp)
    (hops : ∀ op ∈ ops, op.pos < size) :
    Agrees build g size ops ↔
      size ≤ 32 ∧ ∀ done pos rest, ops = done ++ .reset pos :: rest → ∀ p ∈ plainRun done, p = pos := by
  constructor
  · intro hagrees
    have hsize := le_32_of_agrees hagrees
    have hbits := (agrees_oneWord_iff build g hsize hops).mp hagrees
    exact ⟨hsize, fun done pos rest hsplit p hp => eq_of_reset hops hbits hsplit hp⟩
  · rintro ⟨hsize, hreset⟩
    rw [agrees_oneWord_iff build g hsize hops]
    exact fun done rest hsplit => testBit_wordAfter hsize hops hreset hsplit

/-- A position is reset while it is the only one that is set. -/
theorem agrees_twoColumns :
    Agrees .debug 0 2 [.set 0, .reset 0, .set 1, .flip 0, .flip 1] := by
  refine (agrees_iff .debug 0 2 [.set 0, .reset 0, .set 1, .flip 0, .flip 1] (by decide)).mpr
    ⟨by decide, fun done pos rest hsplit p hp => ?_⟩
  obtain ⟨rfl, rfl⟩ : done = [.set 0] ∧ pos = 0 := by
    rcases done with - | ⟨a, - | ⟨b, - | ⟨c, - | ⟨d, - | ⟨e, done⟩⟩⟩⟩⟩ <;>
      simp only [List.nil_append, List.cons_append, List.cons.injEq, List.nil_eq, reduceCtorEq,
        false_and, and_false, PosOp.reset.injEq, List.append_eq_nil_iff] at hsplit
    exact ⟨congrArg (fun op => [op]) hsplit.1.symm, hsplit.2.1.symm⟩
  exact Finset.mem_singleton.mp hp

/-- Two positions are set and the first one is reset: the second one is gone, too. And position 32
    of a larger set cannot be tested at all. -/
theorem not_agrees_reset :
    (∃ bs, runPos .release undefined 0 2 [.set 0, .set 1, .reset 0] = .ok bs ∧
      test .release undefined bs 1 = .ok false ∧ 1 ∈ plainRun [.set 0, .set 1, .reset 0]) ∧
    ¬ Agrees .release 0 2 [.set 0, .set 1, .reset 0] ∧ ¬ Agrees .release 0 33 [] := by
  have hbs : ∃ bs, runPos .release undefined 0 2 [.set 0, .set 1, .reset 0] = .ok bs ∧
      test .release undefined bs 1 = .ok false := ⟨_, rfl, rfl⟩
  have hmem : 1 ∈ plainRun [.set 0, .set 1, .reset 0] := by decide
  obtain ⟨bs, hrun, htest⟩ := hbs
  refine ⟨⟨bs, hrun, htest, hmem⟩, fun hagrees => ?_, fun hagrees => ?_⟩
  · obtain ⟨bs', hrun', htest'⟩ := hagrees [.set 0, .set 1, .reset 0] [] rfl
    cases hrun.symm.trans hrun'
    have h := htest' 1 (by decide)
    rw [htest, decide_eq_true hmem] at h
    cases h
  · obtain ⟨bs', hrun', htest'⟩ := hagrees [] [] rfl
    cases hrun'
    have h := htest' 32 (by decide)
    rw [test_32_undefined .release (by decide)] at h
    cases h

end DynamicBitset

end TerraX
