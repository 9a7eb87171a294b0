import TerraX.Lib.Memory
import Mathlib.Data.List.TakeWhile

/-!
# Strings that end with a zero

## Main definitions

- `CString.Chars` — the characters of a string
- `CString.charsAt` — the characters behind a pointer into a block
- `CString.CharArray`, `CString.strcpy`, `CString.strncmpEq`, `CString.splitLast`

## Main results

- `CString.charsAt_ok_iff` — where a block holds a string
- `CString.strcpy_ok` — a string that fits is copied
- `CString.splitLast_eq_some_iff` — the parts in front of and behind the last of a character
-/

namespace CString

open Memory

/-- The characters in front of the end of a string. -/
abbrev Chars := { s : List UInt8 // 0 ∉ s }

/-- The characters from a pointer into a block up to a zero, which has to be in the block. -/
def charsAt (block : List UInt8) (ptr : ℤ) : Except Fault (List UInt8) :=
  if 0 ≤ ptr ∧ 0 ∈ block.drop ptr.toNat then .ok ((block.drop ptr.toNat).takeWhile (· ≠ 0))
  else .error (.outOfBounds ptr (block.length - ptr.toNat + 1))

theorem zero_not_mem_takeWhile (l : List UInt8) : 0 ∉ l.takeWhile (· ≠ 0) := by
  intro hmem
  simpa using List.mem_takeWhile_imp hmem

/-- A list with a zero has one behind the characters in front of the first zero. -/
theorem takeWhile_prefix {l : List UInt8} (h : 0 ∈ l) : l.takeWhile (· ≠ 0) ++ [0] <+: l := by
  induction l with
  | nil => cases h
  | cons b l ih =>
    by_cases hb : b = 0
    · subst hb
      simp
    · have hl : 0 ∈ l := (List.mem_cons.mp h).resolve_left (Ne.symm hb)
      rw [List.takeWhile_cons_of_pos (by simpa using hb), List.cons_append]
      exact List.prefix_cons_inj b |>.mpr (ih hl)

theorem takeWhile_of_prefix {l t : List UInt8} (ht : 0 ∉ t) (h : t ++ [0] <+: l) :
    0 ∈ l ∧ l.takeWhile (· ≠ 0) = t := by
  obtain ⟨rest, rfl⟩ := h
  refine ⟨by simp, ?_⟩
  rw [List.append_assoc, List.takeWhile_append_of_pos]
  · simp
  · intro b hb
    have hne : b ≠ 0 := fun hzero => ht (hzero ▸ hb)
    simpa using hne

/-- A pointer leads to a string exactly if its characters and then a zero stand there. -/
theorem charsAt_ok_iff {block t : List UInt8} {off : ℕ} : charsAt block off = .ok t ↔
    0 ∉ t ∧ block[off + t.length]? = some 0 ∧ ∀ k < t.length, block[off + k]? = t[k]? := by
  -- the characters and the zero behind them are what the block has there
  have hprefix : t ++ [0] <+: block.drop off ↔
      block[off + t.length]? = some 0 ∧ ∀ k < t.length, block[off + k]? = t[k]? := by
    rw [List.prefix_iff_getElem?]
    constructor
    · intro h
      constructor
      · have hlast := h t.length (by simp)
        rwa [List.getElem?_drop, List.getElem_concat_length rfl] at hlast
      · intro k hk
        have hin := h k (by rw [List.length_append]; omega)
        rwa [List.getElem?_drop, List.getElem_append_left hk, ← List.getElem?_eq_getElem hk] at hin
    · rintro ⟨hlast, hin⟩ k hk
      rw [List.getElem?_drop]
      rcases Nat.lt_or_ge k t.length with hlt | hge
      · rw [hin k hlt, List.getElem_append_left hlt, List.getElem?_eq_getElem hlt]
      · rw [List.length_append, List.length_singleton] at hk
        have hkeq : k = t.length := by omega
        subst hkeq
        rw [hlast, List.getElem_concat_length rfl]
  rw [← hprefix, charsAt, Int.toNat_natCast]
  constructor
  · intro h
    split at h
    · next hzero =>
      cases h
      exact ⟨zero_not_mem_takeWhile _, takeWhile_prefix hzero.2⟩
    · cases h
  · rintro ⟨ht, hpre⟩
    obtain ⟨hzero, htake⟩ := takeWhile_of_prefix ht hpre
    rw [if_pos ⟨by omega, hzero⟩, htake]

/-! ### Arrays of characters -/

/-- An array of `n` characters. -/
abbrev CharArray (n : ℕ) := { block : List UInt8 // block.length = n }

/-- `strcpy` of the characters `s` with the zero behind them. -/
def strcpy {n : ℕ} (dst : CharArray n) (s : List UInt8) : Except Fault (CharArray n) :=
  if h : s.length < n then
    .ok ⟨s ++ 0 :: dst.val.drop (s.length + 1), by
      rw [List.length_append, List.length_cons, List.length_drop, dst.property]
      omega⟩
  else .error (.outOfBounds 0 (s.length + 1))

/-- Whether `strncmp` finds two strings equal, which stand in front of a zero in their blocks. -/
def strncmpEq : ℕ → List UInt8 → List UInt8 → Bool
  | 0, _, _ => true
  | n + 1, a :: as, b :: bs => a == b && (a == 0 || strncmpEq n as bs)
  | _ + 1, _, _ => false

/-- What stands in front of and behind the last `c`, which `strrchr` finds. -/
def splitLast {α : Type} [DecidableEq α] (c : α) : List α → Option (List α × List α)
  | [] => none
  | b :: s =>
    match splitLast c s with
    | some (front, back) => some (b :: front, back)
    | none => if b = c then some ([], s) else none

theorem strcpy_ok {n : ℕ} (dst : CharArray n) {s : List UInt8} (h : s.length < n) :
    ∃ dst', strcpy dst s = .ok dst' ∧ s ++ [0] <+: dst'.val := by
  rw [strcpy, dif_pos h]
  exact ⟨_, rfl, dst.val.drop (s.length + 1), by simp⟩

theorem charsAt_of_prefix {block s : List UInt8} (hs : 0 ∉ s) (h : s ++ [0] <+: block) :
    charsAt block 0 = .ok s := by
  obtain ⟨hzero, htake⟩ := takeWhile_of_prefix hs h
  rw [charsAt, if_pos ⟨le_rfl, hzero⟩]
  exact congrArg Except.ok htake

/-- A comparison that goes beyond one of the strings compares them whole. -/
theorem strncmpEq_of_prefix {n : ℕ} {as bs s t : List UInt8} (hs : 0 ∉ s) (ht : 0 ∉ t)
    (has : s ++ [0] <+: as) (hbs : t ++ [0] <+: bs) (hn : t.length < n) :
    strncmpEq n as bs = (s == t) := by
  obtain ⟨as', rfl⟩ := has
  obtain ⟨bs', rfl⟩ := hbs
  induction t generalizing s n with
  | nil =>
    obtain ⟨n, rfl⟩ : ∃ k, n = k + 1 := ⟨n - 1, by simp at hn; omega⟩
    cases s with
    | nil => simp [strncmpEq]
    | cons a s =>
      have ha : a ≠ 0 := fun hzero => hs (hzero ▸ List.mem_cons_self)
      simp [strncmpEq, ha]
  | cons b t ih =>
    obtain ⟨n, rfl⟩ : ∃ k, n = k + 1 := ⟨n - 1, by simp at hn; omega⟩
    have hb : b ≠ 0 := fun hzero => ht (hzero ▸ List.mem_cons_self)
    cases s with
    | nil => simp [strncmpEq, hb.symm]
    | cons a s =>
      have ha : a ≠ 0 := fun hzero => hs (hzero ▸ List.mem_cons_self)
      have hrest := ih (s := s) (n := n) (fun h => hs (List.mem_cons_of_mem _ h))
        (fun h => ht (List.mem_cons_of_mem _ h)) (by simpa using hn)
      have hcons : (a :: s == b :: t) = (a == b && s == t) := rfl
      simp only [List.cons_append, strncmpEq, hrest, hcons, beq_eq_false_iff_ne.mpr ha,
        Bool.false_or]

theorem splitLast_eq_none_iff {α : Type} [DecidableEq α] {c : α} {s : List α} : splitLast c s = none ↔ c ∉ s := by
  induction s with
  | nil => simp [splitLast]
  | cons b s ih =>
    rw [splitLast, List.mem_cons, not_or, ← ih]
    cases splitLast c s with
    | none => simp [eq_comm]
    | some parts => simp

theorem splitLast_eq_some_iff {α : Type} [DecidableEq α] {c : α} {s front back : List α} :
    splitLast c s = some (front, back) ↔ s = front ++ c :: back ∧ c ∉ back := by
  induction s generalizing front with
  | nil => simp [splitLast]
  | cons b s ih =>
    rw [splitLast]
    constructor
    · intro h
      split at h
      · next front' back' hrest =>
        cases h
        obtain ⟨rfl, hback⟩ := ih.mp hrest
        exact ⟨rfl, hback⟩
      · next hrest =>
        split at h
        · next hb =>
          cases h
          exact ⟨by rw [hb]; rfl, splitLast_eq_none_iff.mp hrest⟩
        · cases h
    · rintro ⟨heq, hback⟩
      cases front with
      | nil =>
        obtain ⟨rfl, rfl⟩ := List.cons.inj heq
        rw [splitLast_eq_none_iff.mpr hback]
        simp
      | cons b' front =>
        obtain ⟨rfl, hs⟩ := List.cons.inj heq
        rw [ih.mpr ⟨hs, hback⟩]

end CString
