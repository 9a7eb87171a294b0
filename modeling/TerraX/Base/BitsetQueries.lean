import TerraX.Base.PlainSet
import TerraX.Base.BitsetCount

/-!
# What a bit set says of all its positions

`count`, `any`, `none` and `all` go through as many words as `arrLength_` says, and count all
bits of each; `test` tells of the positions below `size_`. The two belong together only if
`arrLength_`, which the constructor leaves as the memory had it, is the number of words by
chance, and if no bit behind the last position is ever set.

## Main definitions

- `BitOp` — an operation on one position, or on all
- `DynamicBitset.Consistent` — the queries say what `test` says of the positions
- `DynamicBitset.StaysConsistent` — they do so throughout a run

## Main results

- `DynamicBitset.staysConsistent_iff` — the runs throughout which they do
- `DynamicBitset.not_staysConsistent_count` — some throughout which they do not
-/

namespace TerraX

open Memory PopCount

/-- An operation of a bit set. -/
inductive BitOp
  | at (op : PosOp)
  | set
  | reset
  | flip
deriving DecidableEq, Repr

namespace BitOp

/-- An operation on one position is given a position of the set. -/
def Fits (size : ℕ) : BitOp → Prop
  | .at op => op.pos < size
  | _ => True

instance (size : ℕ) (op : BitOp) : Decidable (op.Fits size) := by
  cases op <;> unfold Fits <;> infer_instance

/-- `reset()` and `reset(pos)`. -/
def IsReset : BitOp → Prop
  | .at (.reset _) => True
  | reset => True
  | _ => False

instance (op : BitOp) : Decidable op.IsReset := by
  unfold IsReset
  split <;> infer_instance

def apply (build : Build) (overlong : UInt32 → ℕ → Except Fault UInt32) (bs : DynamicBitset) :
    BitOp → Except Fault DynamicBitset
  | .at op => op.apply build overlong bs
  | set => bs.setAll
  | reset => bs.resetAll
  | flip => bs.flipAll

/-- What the operation makes of the only word of a set, if `arrLength_` is `g`. -/
def onWord (g : ℕ) (w : UInt32) : BitOp → UInt32
  | .at op => op.onWord w
  | set => if g = 0 then w else ~~~0
  | reset => if g = 0 then w else 0
  | flip => if g = 0 then w else ~~~w

end BitOp

namespace DynamicBitset

/-- A run of operations on a new set. -/
def run (build : Build) (overlong : UInt32 → ℕ → Except Fault UInt32) (g size : ℕ)
    (ops : List BitOp) : Except Fault DynamicBitset :=
  ops.foldlM (BitOp.apply build overlong) (new g size)

/-- The queries about the whole set return, and say what `test` says of the positions. -/
def Consistent (build : Build) (bs : DynamicBitset) : Prop :=
  ∃ bits : ℕ → Bool, (∀ p < bs.size, test build undefined bs p = .ok (bits p)) ∧
    bs.count = .ok ((List.range bs.size).countP bits) ∧
    bs.any = .ok ((List.range bs.size).any bits) ∧
    bs.none = .ok (!(List.range bs.size).any bits) ∧
    bs.all = .ok ((List.range bs.size).all bits)

/-- After every part of the run they do; after `set()` all positions are set, and `flip()` makes
    of their number what is missing to the size. -/
def StaysConsistent (build : Build) (g size : ℕ) (ops : List BitOp) : Prop :=
  ∀ done rest, ops = done ++ rest → ∃ bs, run build undefined g size done = .ok bs ∧
    bs.Consistent build ∧
    (rest.head? = some .set → ∃ bs', bs.setAll = .ok bs' ∧ bs'.all = .ok true) ∧
    (rest.head? = some .flip → ∃ bs' n, bs.flipAll = .ok bs' ∧ bs.count = .ok n ∧
      bs'.count = .ok (size - n))

/-! ### Sets with one word -/

section OneWord

variable (size : ℕ) (w : UInt32)

theorem count_oneWord : count ⟨size, 1, [w]⟩ = .ok (popCount 32 w.toNat) := by
  have hones : ones [w] = popCount 32 w.toNat := by
    rw [ones_eq, List.map_singleton, List.sum_singleton, countBit_eq]
  rw [← hones]
  exact count_words size [w] []

theorem any_oneWord : any ⟨size, 1, [w]⟩ = .ok (decide (w ≠ 0)) := by
  have hany : [w].any (· ≠ 0) = decide (w ≠ 0) := by rw [List.any_cons, List.any_nil, Bool.or_false]
  rw [← hany]
  exact any_words size [w] []

end OneWord

/-- With `arrLength_` one, the queries agree with `test` exactly if no bit behind the last position
    is set. -/
theorem consistent_oneWord_iff (build : Build) {size : ℕ} (hsize : size ≤ 32) (w : UInt32) :
    Consistent build ⟨size, 1, [w]⟩ ↔ w.toNat < 2 ^ size := by
  constructor
  · rintro ⟨bits, htest, hcount, -⟩
    -- `count` goes over all bits of the word, `test` over the positions of the set
    have hbits : (List.range size).countP bits = popCount size w.toNat := by
      apply List.countP_congr
      intro p hp
      have h := htest p (List.mem_range.mp hp)
      rw [test_oneWord undefined 1 w (List.mem_range.mp hp) hsize] at h
      rw [Except.ok.inj h]
    rw [count_oneWord] at hcount
    exact lt_of_popCount_eq hsize w.toNat_lt ((Except.ok.inj hcount).trans hbits)
  · intro hw
    have hcount : count ⟨size, 1, [w]⟩ = .ok ((List.range size).countP w.toNat.testBit) := by
      rw [count_oneWord, popCount_of_lt hsize hw, popCount]
    have hany : any ⟨size, 1, [w]⟩ = .ok ((List.range size).any w.toNat.testBit) := by
      have hzero : popCount size w.toNat = 0 ↔ w = 0 := by
        constructor
        · intro h
          exact UInt32.toNat_inj.mp (popCount_eq_zero hw h)
        · rintro rfl
          rw [popCount, List.countP_eq_zero]
          intro p _
          simp
      rw [any_oneWord, Except.ok.injEq, Bool.eq_iff_iff, decide_eq_true_eq, List.any_eq_true,
        ← List.countP_pos_iff, Nat.pos_iff_ne_zero]
      exact not_congr hzero.symm
    refine ⟨w.toNat.testBit, fun p hp => test_oneWord undefined 1 w hp hsize, hcount, hany, ?_, ?_⟩
    · rw [none, hany]
      rfl
    · rw [all, hcount]
      show Except.ok _ = Except.ok _
      rw [Except.ok.injEq, Bool.eq_iff_iff, beq_iff_eq, List.all_eq_true, ← List.countP_eq_length,
        List.length_range]

/-- With `arrLength_` zero, they do exactly if no position is set. -/
theorem consistent_noWord_iff (build : Build) {size : ℕ} (hsize : size ≤ 32) (w : UInt32) :
    Consistent build ⟨size, 0, [w]⟩ ↔ ∀ p < size, w.toNat.testBit p = false := by
  constructor
  · rintro ⟨bits, htest, hcount, -⟩ p hp
    have hzero : (List.range size).countP bits = 0 := (Except.ok.inj hcount).symm
    have h := htest p hp
    rw [test_oneWord undefined 0 w hp hsize] at h
    rw [Except.ok.inj h]
    exact Bool.not_eq_true _ ▸ List.countP_eq_zero.mp hzero p (List.mem_range.mpr hp)
  · intro hw
    have hcount : (List.range size).countP w.toNat.testBit = 0 := by
      rw [List.countP_eq_zero]
      intro p hp
      rw [hw p (List.mem_range.mp hp)]
      exact Bool.false_ne_true
    have hany : (List.range size).any w.toNat.testBit = false := by
      rw [Bool.eq_false_iff, ne_eq, List.any_eq_true, ← List.countP_pos_iff, hcount]
      exact lt_irrefl 0
    have hall : ((0 : ℕ) == size) = (List.range size).all w.toNat.testBit := by
      rw [Bool.eq_iff_iff, beq_iff_eq, List.all_eq_true, ← List.countP_eq_length, List.length_range,
        hcount]
    refine ⟨w.toNat.testBit, fun p hp => test_oneWord undefined 0 w hp hsize, ?_, ?_, ?_, ?_⟩
    · rw [hcount]
      rfl
    · rw [hany]
      rfl
    · rw [hany]
      rfl
    · rw [← hall]
      rfl

/-! ### Runs on one word -/

/-- The only word of a set after a run. -/
def bitWordAfter (g : ℕ) (ops : List BitOp) : UInt32 := ops.foldl (BitOp.onWord g) 0

theorem bitWordAfter_concat (g : ℕ) (ops : List BitOp) (op : BitOp) :
    bitWordAfter g (ops ++ [op]) = op.onWord g (bitWordAfter g ops) := by
  rw [bitWordAfter, List.foldl_append]
  rfl

section Runs

variable (build : Build) {g size : ℕ} (hg : g = 0 ∨ g = 1) (hsize : size ≤ 32)
include hg hsize

theorem apply_oneWord (overlong : UInt32 → ℕ → Except Fault UInt32) (w : UInt32) {op : BitOp}
    (hfits : op.Fits size) :
    op.apply build overlong ⟨size, g, [w]⟩ = .ok ⟨size, g, [op.onWord g w]⟩ := by
  cases op with
  | «at» op => exact PosOp.apply_oneWord build overlong g w hfits hsize
  | set => obtain rfl | rfl := hg <;> rfl
  | reset => obtain rfl | rfl := hg <;> rfl
  | flip => obtain rfl | rfl := hg <;> rfl

theorem run_oneWord (overlong : UInt32 → ℕ → Except Fault UInt32) {ops : List BitOp}
    (hops : ∀ op ∈ ops, op.Fits size) :
    run build overlong g size ops = .ok ⟨size, g, [bitWordAfter g ops]⟩ := by
  rw [run, new_oneWord g hsize]
  let rep (w : UInt32) : DynamicBitset := ⟨size, g, [w]⟩
  have hstep : ∀ op ∈ ops, ∀ w,
      BitOp.apply build overlong (rep w) op = .ok (rep (BitOp.onWord g w op)) :=
    fun op hop w => apply_oneWord build hg hsize overlong w (hops op hop)
  exact Run.foldlM_represents hstep 0

/-- A run stays consistent exactly if its words do. -/
theorem staysConsistent_oneWord_iff {ops : List BitOp} (hops : ∀ op ∈ ops, op.Fits size) :
    StaysConsistent build g size ops ↔ ∀ done rest, ops = done ++ rest →
      Consistent build ⟨size, g, [bitWordAfter g done]⟩ ∧
      (rest.head? = some .set → all ⟨size, g, [BitOp.onWord g (bitWordAfter g done) .set]⟩ = .ok true) ∧
      (rest.head? = some .flip → ∃ n, count ⟨size, g, [bitWordAfter g done]⟩ = .ok n ∧
        count ⟨size, g, [BitOp.onWord g (bitWordAfter g done) .flip]⟩ = .ok (size - n)) := by
  apply forall_congr'
  intro done
  apply forall_congr'
  intro rest
  apply imp_congr_right
  intro hsplit
  have hdone : ∀ op ∈ done, op.Fits size := by
    intro op hop
    apply hops
    rw [hsplit]
    exact List.mem_append_left _ hop
  have hset : setAll ⟨size, g, [bitWordAfter g done]⟩ = .ok ⟨size, g, [BitOp.onWord g _ .set]⟩ :=
    @apply_oneWord build g size hg hsize undefined _ .set trivial
  have hflip : flipAll ⟨size, g, [bitWordAfter g done]⟩ = .ok ⟨size, g, [BitOp.onWord g _ .flip]⟩ :=
    @apply_oneWord build g size hg hsize undefined _ .flip trivial
  rw [run_oneWord build hg hsize undefined hdone]
  constructor
  · rintro ⟨bs, hbs, hconsistent, hall, hcount⟩
    cases hbs
    refine ⟨hconsistent, fun h => ?_, fun h => ?_⟩
    · obtain ⟨bs', hbs', hall⟩ := hall h
      cases hset.symm.trans hbs'
      exact hall
    · obtain ⟨bs', n, hbs', hn, hcount⟩ := hcount h
      cases hflip.symm.trans hbs'
      exact ⟨n, hn, hcount⟩
  · rintro ⟨hconsistent, hall, hcount⟩
    refine ⟨_, rfl, hconsistent, fun h => ⟨_, hset, hall h⟩, fun h => ?_⟩
    obtain ⟨n, hn, hcount⟩ := hcount h
    exact ⟨_, n, hflip, hn, hcount⟩

end Runs

/-! ### A word that is counted -/

/-- Only `set()` and `flip()` set bits behind the last position. -/
theorem onWord_lt {size : ℕ} (hsize : size ≤ 32) {w : UInt32} (hw : w.toNat < 2 ^ size) {op : BitOp}
    (hfits : op.Fits size) (hset : op ≠ .set) (hflip : op ≠ .flip) :
    (op.onWord 1 w).toNat < 2 ^ size := by
  cases op with
  | «at» op =>
    have hlt : ∀ pos < size, pos < 32 ∧ 2 ^ pos < 2 ^ size := fun pos hpos =>
      ⟨Nat.lt_of_lt_of_le hpos hsize, Nat.pow_lt_pow_right (by decide) hpos⟩
    cases op with
    | set pos =>
      obtain ⟨hpos, hbit⟩ := hlt pos hfits
      show (w ||| 1 <<< UInt32.ofNat pos).toNat < _
      rw [UInt32.toNat_or, toNat_one_shiftLeft hpos]
      exact Nat.or_lt_two_pow hw hbit
    | reset pos => exact Nat.two_pow_pos size
    | flip pos =>
      obtain ⟨hpos, hbit⟩ := hlt pos hfits
      show (w ^^^ 1 <<< UInt32.ofNat pos).toNat < _
      rw [UInt32.toNat_xor, toNat_one_shiftLeft hpos]
      exact Nat.xor_lt_two_pow hw hbit
  | set => exact absurd rfl hset
  | reset => exact Nat.two_pow_pos size
  | flip => exact absurd rfl hflip

/-- Both set some, unless the word has no bits there. -/
theorem two_pow_le_onWord {size : ℕ} (hsize : size < 32) {w : UInt32} (hw : w.toNat < 2 ^ size)
    {op : BitOp} (hop : op = .set ∨ op = .flip) : 2 ^ size ≤ (op.onWord 1 w).toNat := by
  have hle : 2 ^ size ≤ 2 ^ 31 := Nat.pow_le_pow_right (by decide) (by omega)
  obtain rfl | rfl := hop
  · have hall : 2 ^ 31 ≤ (~~~0 : UInt32).toNat := by decide
    exact hle.trans hall
  · show 2 ^ size ≤ (~~~w).toNat
    rw [UInt32.toNat_not]
    unfold UInt32.size
    omega

/-- No bit behind the last position is set as long as nothing sets one, or if there is none. -/
theorem bitWordAfter_lt {size : ℕ} (hsize : size ≤ 32) {ops : List BitOp}
    (hops : ∀ op ∈ ops, op.Fits size) (hcond : size = 32 ∨ ∀ op ∈ ops, op ≠ .set ∧ op ≠ .flip) :
    (bitWordAfter 1 ops).toNat < 2 ^ size := by
  obtain rfl | hwhole := hcond
  · exact UInt32.toNat_lt _
  · induction ops using List.reverseRecOn with
    | nil => exact Nat.two_pow_pos size
    | append_singleton ops op ih =>
      have hword := ih (fun op' h => hops op' (List.mem_append_left _ h)) fun op' h =>
        hwhole op' (List.mem_append_left _ h)
      obtain ⟨hset, hflip⟩ := hwhole op (by simp)
      rw [bitWordAfter_concat]
      exact onWord_lt hsize hword (hops op (by simp)) hset hflip

theorem count_flip_fullWord (w : UInt32) :
    count ⟨32, 1, [BitOp.onWord 1 w .flip]⟩ = .ok (32 - popCount 32 w.toNat) := by
  have hcompl := popCount_complement w.toNat_lt
  have hnot : (BitOp.onWord 1 w .flip).toNat = 2 ^ 32 - 1 - w.toNat := UInt32.toNat_not _
  rw [count_oneWord, hnot]
  congr 1
  omega

theorem staysConsistent_one_iff (build : Build) {size : ℕ} (hsize : size ≤ 32) {ops : List BitOp}
    (hops : ∀ op ∈ ops, op.Fits size) :
    StaysConsistent build 1 size ops ↔ size = 32 ∨ ∀ op ∈ ops, op ≠ .set ∧ op ≠ .flip := by
  rw [staysConsistent_oneWord_iff build (.inr rfl) hsize hops]
  constructor
  · intro h
    by_contra hnot
    push Not at hnot
    obtain ⟨hne, op, hop, hwhole⟩ := hnot
    -- right before `op` no bit behind the last position was set, and right after it one is
    obtain ⟨done, rest, rfl⟩ := List.append_of_mem hop
    have hbefore := (consistent_oneWord_iff build hsize _).mp (h done (op :: rest) rfl).1
    have hafter := (consistent_oneWord_iff build hsize _).mp
      (h (done ++ [op]) rest (by rw [List.append_assoc, List.singleton_append])).1
    rw [bitWordAfter_concat] at hafter
    have hwhole : op = .set ∨ op = .flip := by
      by_cases hset : op = .set
      · exact .inl hset
      · exact .inr (hwhole hset)
    have hle := two_pow_le_onWord (by omega) hbefore hwhole
    omega
  · intro hcond done rest hsplit
    have hdone : ∀ op ∈ done, op ∈ ops := by
      intro op hop
      rw [hsplit]
      exact List.mem_append_left _ hop
    have hword : (bitWordAfter 1 done).toNat < 2 ^ size :=
      bitWordAfter_lt hsize (fun op hop => hops op (hdone op hop))
        (hcond.imp_right fun hwhole op hop => hwhole op (hdone op hop))
    have hfull : ∀ op ∈ rest.head?, op = .set ∨ op = .flip → size = 32 := by
      intro op hhead hop
      refine hcond.resolve_right fun hwhole => ?_
      have hmem : op ∈ ops := by
        rw [hsplit]
        exact List.mem_append_right _ (List.mem_of_mem_head? hhead)
      obtain ⟨hset, hflip⟩ := hwhole op hmem
      exact hop.elim hset hflip
    refine ⟨(consistent_oneWord_iff build hsize _).mpr hword, fun hset => ?_, fun hflip => ?_⟩
    · have hones : BitOp.onWord 1 (bitWordAfter 1 done) .set = ~~~0 := rfl
      rw [hfull _ hset (.inl rfl), hones]
      rfl
    · obtain rfl := hfull _ hflip (.inr rfl)
      exact ⟨_, count_oneWord 32 _, count_flip_fullWord _⟩

/-! ### A word that is not counted -/

/-- Only a reset keeps a set consistent. -/
theorem isReset_of_consistent (build : Build) {size : ℕ} (hsize : size ≤ 32) (hne : size ≠ 0)
    {w : UInt32} {op : BitOp} (hfits : op.Fits size) (hbefore : Consistent build ⟨size, 0, [w]⟩)
    (hafter : Consistent build ⟨size, 0, [op.onWord 0 w]⟩)
    (hset : op = .set → all ⟨size, 0, [BitOp.onWord 0 w .set]⟩ = .ok true)
    (hflip : op = .flip → ∃ n, count ⟨size, 0, [w]⟩ = .ok n ∧
      count ⟨size, 0, [BitOp.onWord 0 w .flip]⟩ = .ok (size - n)) : op.IsReset := by
  rw [consistent_noWord_iff build hsize] at hbefore hafter
  cases op with
  | «at» op =>
    cases op with
    | set pos =>
      have hpos : pos < 32 := Nat.lt_of_lt_of_le hfits hsize
      have hbit := hafter pos hfits
      rw [BitOp.onWord, PosOp.onWord, testBit_or_shiftLeft _ hpos, decide_eq_true rfl,
        Bool.or_true] at hbit
      cases hbit
    | reset pos => exact trivial
    | flip pos =>
      have hpos : pos < 32 := Nat.lt_of_lt_of_le hfits hsize
      have hbit := hafter pos hfits
      rw [BitOp.onWord, PosOp.onWord, testBit_xor_shiftLeft _ hpos, hbefore pos hfits,
        decide_eq_true rfl, Bool.false_xor] at hbit
      cases hbit
  | set =>
    have hall : ((0 : ℕ) == size) = true := Except.ok.inj (hset rfl)
    exact absurd (beq_iff_eq.mp hall).symm hne
  | reset => exact trivial
  | flip =>
    obtain ⟨n, hn, hcount⟩ := hflip rfl
    have hn : 0 = n := Except.ok.inj hn
    have hcount : 0 = size - n := Except.ok.inj hcount
    omega

theorem onWord_of_isReset {op : BitOp} (h : op.IsReset) : op.onWord 0 0 = 0 := by
  cases op with
  | «at» op =>
    cases op with
    | reset pos => rfl
    | set pos => exact absurd h id
    | flip pos => exact absurd h id
  | set => exact absurd h id
  | reset => rfl
  | flip => exact absurd h id

theorem bitWordAfter_resets {ops : List BitOp} (h : ∀ op ∈ ops, op.IsReset) :
    bitWordAfter 0 ops = 0 := by
  induction ops using List.reverseRecOn with
  | nil => rfl
  | append_singleton ops op ih =>
    rw [bitWordAfter_concat, ih fun op' hop' => h op' (List.mem_append_left _ hop')]
    exact onWord_of_isReset (h op (by simp))

theorem staysConsistent_zero_iff (build : Build) {size : ℕ} (hsize : size ≤ 32) {ops : List BitOp}
    (hops : ∀ op ∈ ops, op.Fits size) :
    StaysConsistent build 0 size ops ↔ size = 0 ∨ ∀ op ∈ ops, op.IsReset := by
  rw [staysConsistent_oneWord_iff build (.inl rfl) hsize hops]
  constructor
  · intro h
    refine or_iff_not_imp_left.mpr fun hne op hop => ?_
    have hfits := hops op hop
    obtain ⟨done, rest, rfl⟩ := List.append_of_mem hop
    obtain ⟨hbefore, hset, hflip⟩ := h done (op :: rest) rfl
    have hafter := (h (done ++ [op]) rest (by rw [List.append_assoc, List.singleton_append])).1
    rw [bitWordAfter_concat] at hafter
    exact isReset_of_consistent build hsize hne hfits hbefore hafter
      (fun heq => hset (congrArg some heq)) fun heq => hflip (congrArg some heq)
  · intro hcond done rest hsplit
    obtain rfl | hreset := hcond
    · refine ⟨(consistent_noWord_iff build hsize _).mpr fun p hp => absurd hp (Nat.not_lt_zero p),
        fun _ => rfl, fun _ => ⟨0, rfl, rfl⟩⟩
    · have hword : bitWordAfter 0 done = 0 := by
        apply bitWordAfter_resets
        intro op hop
        apply hreset
        rw [hsplit]
        exact List.mem_append_left _ hop
      have hhead : ∀ op ∈ rest.head?, op.IsReset := by
        intro op hop
        apply hreset
        rw [hsplit]
        exact List.mem_append_right _ (List.mem_of_mem_head? hop)
      refine ⟨(consistent_noWord_iff build hsize _).mpr fun p _ => ?_, fun hset => ?_, fun hflip => ?_⟩
      · rw [hword, UInt32.toNat_zero, Nat.zero_testBit]
      · exact absurd (hhead _ hset) id
      · exact absurd (hhead _ hflip) id

/-! ### All sizes -/

/-- With more words than the set has, `count` leaves the array. -/
theorem count_new_error {g size : ℕ} (hsize : size ≤ 32) (hg : 2 ≤ g) :
    count (new g size) = .error (.badIndex 1 1) := by
  obtain ⟨k, rfl⟩ := Nat.exists_eq_add_of_le hg
  rw [new_oneWord _ hsize, count, List.range_add, List.foldlM_append]
  rfl

/-- The exact runs throughout which the queries about the whole set agree with `test`. The number
    `g` is what the memory had in `arrLength_`. -/
theorem staysConsistent_iff (build : Build) (g size : ℕ) (ops : List BitOp)
    (hops : ∀ op ∈ ops, op.Fits size) :
    StaysConsistent build g size ops ↔ size ≤ 32 ∧
      (g = 1 ∧ (size = 32 ∨ ∀ op ∈ ops, op ≠ .set ∧ op ≠ .flip) ∨
        g = 0 ∧ (size = 0 ∨ ∀ op ∈ ops, op.IsReset)) := by
  by_cases hsize : size ≤ 32
  swap
  · -- position 32 cannot be tested
    constructor
    · intro h
      obtain ⟨bs, hbs, ⟨bits, htest, -⟩, -⟩ := h [] ops rfl
      cases hbs
      have htest := htest 32 (Nat.lt_of_not_le hsize)
      rw [test_32_undefined build (Nat.lt_of_not_le hsize)] at htest
      cases htest
    · intro h
      exact absurd h.1 hsize
  match g with
  | 0 => simp [staysConsistent_zero_iff build hsize hops, hsize]
  | 1 => simp [staysConsistent_one_iff build hsize hops, hsize]
  | g + 2 =>
    constructor
    · intro h
      obtain ⟨bs, hbs, ⟨bits, -, hcount, -⟩, -⟩ := h [] ops rfl
      cases hbs
      rw [count_new_error hsize (Nat.le_add_left 2 g)] at hcount
      cases hcount
    · rintro ⟨-, ⟨h, -⟩ | ⟨h, -⟩⟩
      · cases h
      · cases h

/-- A full word, by chance with the right number of words. -/
theorem staysConsistent_fullWord :
    StaysConsistent .debug 1 32 [.set, .at (.reset 3), .flip, .at (.set 31), .reset] :=
  (staysConsistent_iff .debug 1 32 [.set, .at (.reset 3), .flip, .at (.set 31), .reset]
    (by decide)).mpr ⟨by decide, .inl ⟨rfl, .inl rfl⟩⟩

/-- The set with 13 positions that the login server makes: a position is set, and `count` is zero
    if the memory had zero words there. With the right number of words, `count` is 32 after
    `set()`, and `all` is false. -/
theorem not_staysConsistent_count :
    (∃ bs, run .release undefined 0 13 [.at (.set 2)] = .ok bs ∧
      test .release undefined bs 2 = .ok true ∧ bs.count = .ok 0 ∧ bs.any = .ok false) ∧
    (∃ bs, run .release undefined 1 13 [.set] = .ok bs ∧ bs.count = .ok 32 ∧ bs.all = .ok false) ∧
    ¬ StaysConsistent .release 0 13 [.at (.set 2)] ∧ ¬ StaysConsistent .release 1 13 [.set] := by
  have hzero : ∃ bs, run .release undefined 0 13 [.at (.set 2)] = .ok bs ∧
      test .release undefined bs 2 = .ok true ∧ bs.count = .ok 0 ∧ bs.any = .ok false :=
    ⟨_, rfl, rfl, rfl, rfl⟩
  have hone : ∃ bs, run .release undefined 1 13 [.set] = .ok bs ∧ bs.count = .ok 32 ∧
      bs.all = .ok false := ⟨_, rfl, rfl, rfl⟩
  refine ⟨hzero, hone, fun h => ?_, fun h => ?_⟩
  · obtain ⟨bs, hrun, htest, hcount, -⟩ := hzero
    obtain ⟨bs', hrun', ⟨bits, htest', hcount', -⟩, -⟩ := h [.at (.set 2)] [] rfl
    cases hrun.symm.trans hrun'
    have hsize : bs.size = 13 := by
      cases hrun
      rfl
    have hbit := htest' 2 (by rw [hsize]; decide)
    have hnone := Except.ok.inj (hcount.symm.trans hcount')
    rw [htest] at hbit
    exact List.countP_eq_zero.mp hnone.symm 2 (List.mem_range.mpr (by rw [hsize]; decide))
      (Except.ok.inj hbit).symm
  · obtain ⟨bs, hrun, -, hset, -⟩ := h [] [.set] rfl
    cases hrun
    obtain ⟨bs', hbs', hall⟩ := hset rfl
    cases hbs'
    have hcount : ((32 : ℕ) == 13) = true := Except.ok.inj hall
    cases hcount

end DynamicBitset

end TerraX
