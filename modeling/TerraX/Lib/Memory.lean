import TerraX.Lib.Outcome
import Mathlib.Data.List.Induction
import Mathlib.Data.List.TakeDrop
import Mathlib.Data.Int.ModEq

/-!
# Checked memory blocks and machine integers

A memory block is the list of its bytes. Reads and writes name an offset and a
length, and leave the defined behaviour with a `Fault` when they leave the
block. Functions with assertions take the `Build`, since a release build
compiles the assertions out.

## Main definitions

- `Memory.Fault` — the ways a function leaves its defined behaviour
- `Memory.check` — an assertion, active in a debug build only
- `Memory.Checked` — what a debug build returns every build returns
- `Memory.read`, `Memory.readPtr`, `Memory.write` — checked accesses
- `Memory.sizeT`, `Memory.uInt`, `Memory.int32` — conversions to machine integers

## Main results

- `Memory.read_ok_iff`, `Memory.readPtr_ok_iff` — an access is defined exactly inside the block
- `Memory.write_append` — a store behind an initialised part extends that part
- `Memory.slice_append_left`, `Memory.slice_behind`, `Memory.slice_skip` — reading from a layout
- `Memory.slice_set_outside`, `Memory.slice_set_inside` — a byte that changes
- `Memory.slice_write_same`, `Memory.slice_write_other` — reading after a store
-/

namespace Memory

/-- A way in which a function leaves its defined behaviour. -/
inductive Fault
  /-- An access of `length` bytes at `offset` that leaves its memory block. -/
  | outOfBounds (offset length : ℤ)
  /-- An index that leaves an array of `size` elements. -/
  | badIndex (index size : ℕ)
  /-- A string was requested with more characters than a string can hold. -/
  | lengthError
  /-- An assertion failed. -/
  | assertFailed
  /-- A null pointer was dereferenced. -/
  | nullPointer
deriving DecidableEq, Repr

/-- Assertions are active in a debug build and compiled out of a release build. -/
inductive Build
  | debug
  | release
deriving DecidableEq, Repr

/-- A sequence of fallible steps returns exactly if each of its steps does. -/
theorem bind_eq_ok {α β : Type} {x : Except Fault α} {f : α → Except Fault β} {b : β} :
    (x >>= f) = .ok b ↔ ∃ a, x = .ok a ∧ f a = .ok b := by
  cases x with
  | error e => simp [Bind.bind, Except.bind]
  | ok a => simp [Bind.bind, Except.bind]

@[simp] theorem ok_bind {α β : Type} (a : α) (f : α → Except Fault β) : (.ok a >>= f) = f a := rfl

@[simp] theorem error_bind {α β : Type} (e : Fault) (f : α → Except Fault β) :
    (.error e >>= f) = .error e := rfl

/-- What is made of a result returns exactly if the step before does. -/
theorem returns_bind_iff {α β : Type} {x : Except Fault α} {f : α → β} :
    (∃ b, (x >>= fun a => .ok (f a)) = .ok b) ↔ ∃ a, x = .ok a := by
  constructor
  · rintro ⟨b, h⟩
    obtain ⟨a, ha, -⟩ := bind_eq_ok.mp h
    exact ⟨a, ha⟩
  · rintro ⟨a, ha⟩
    exact ⟨f a, bind_eq_ok.mpr ⟨a, ha, rfl⟩⟩

/-- What is made of two results returns exactly if both steps do. -/
theorem returns_bind₂_iff {α β γ : Type} {x : Except Fault α} {y : Except Fault β}
    {f : α → β → γ} :
    (∃ c, (x >>= fun a => y >>= fun b => .ok (f a b)) = .ok c) ↔
      (∃ a, x = .ok a) ∧ ∃ b, y = .ok b := by
  cases x with
  | error e => simp
  | ok a => simpa using returns_bind_iff

@[simp] theorem pure_eq_ok {α : Type} (a : α) : (pure a : Except Fault α) = .ok a := rfl

section Loops

variable {α : Type} {get : ℕ → Except Fault α}

/-- What reads the elements of a longer list reads those in front, and then the last one. -/
theorem forall_get_concat {l : List α} {a : α}
    (h : ∀ i (hi : i < (l ++ [a]).length), get i = .ok (l ++ [a])[i]) :
    (∀ i (hi : i < l.length), get i = .ok l[i]) ∧ get l.length = .ok a := by
  constructor
  · intro i hi
    rw [h i (by rw [List.length_append]; omega), List.getElem_append_left hi]
  · rw [h l.length (by simp)]
    simp

/-- A loop whose steps all return collects what they return. -/
theorem mapM_range_ok {l : List α} (h : ∀ i (hi : i < l.length), get i = .ok l[i]) :
    (List.range l.length).mapM get = .ok l := by
  induction l using List.reverseRecOn with
  | nil => rfl
  | append_singleton l a ih =>
    obtain ⟨hl, ha⟩ := forall_get_concat h
    rw [List.length_append, List.length_singleton, List.range_succ, List.mapM_append, ih hl]
    simp [ha]

/-- A loop over the indices of a list that reads one element in each turn folds the list. -/
theorem foldlM_range_ok {β : Type} {l : List α} (h : ∀ i (hi : i < l.length), get i = .ok l[i])
    (f : β → α → β) (b : β) :
    (List.range l.length).foldlM (fun b i => do return f b (← get i)) b = .ok (l.foldl f b) := by
  induction l using List.reverseRecOn with
  | nil => rfl
  | append_singleton l a ih =>
    obtain ⟨hl, ha⟩ := forall_get_concat h
    rw [List.length_append, List.length_singleton, List.range_succ, List.foldlM_append, ih hl,
      List.foldl_append]
    simp [ha]

end Loops

theorem mapM_exists_ok {α β : Type} {f : α → Except Fault β} {l : List α}
    (h : ∀ a ∈ l, ∃ b, f a = .ok b) : ∃ bs, l.mapM f = .ok bs := by
  induction l with
  | nil => exact ⟨[], rfl⟩
  | cons a l ih =>
    obtain ⟨⟨b, hb⟩, hrest⟩ := List.forall_mem_cons.mp h
    obtain ⟨bs, hbs⟩ := ih hrest
    rw [List.mapM_cons, hb, ok_bind, hbs]
    exact ⟨b :: bs, rfl⟩

/-- `assert(p)`. -/
def check (build : Build) (p : Prop) [Decidable p] : Except Fault Unit :=
  match build with
  | .debug => if p then .ok () else .error .assertFailed
  | .release => .ok ()

theorem check_of {p : Prop} [Decidable p] (build : Build) (h : p) : check build p = .ok () := by
  cases build <;> simp [check, h]

theorem check_of_debug {p : Prop} [Decidable p] {build : Build} (h : build = .debug → p) :
    check build p = .ok () := by
  cases build with
  | debug => exact check_of .debug (h rfl)
  | release => rfl

theorem check_ok_iff {p : Prop} [Decidable p] {build : Build} {u : Unit} :
    check build p = .ok u ↔ (build = .debug → p) := by
  constructor
  · rintro h rfl
    by_contra hp
    rw [check, if_neg hp] at h
    cases h
  · exact check_of_debug

/-- A check that returns and gives back the state. -/
theorem eq_of_check {σ : Type} {build : Build} {p : Prop} [Decidable p] {s s' : σ}
    (h : (check build p >>= fun _ => (.ok s : Except Fault σ)) = .ok s') : s' = s := by
  obtain ⟨_, -, h⟩ := bind_eq_ok.mp h
  exact (Except.ok.inj h).symm

@[simp] theorem check_release (p : Prop) [Decidable p] : check .release p = .ok () := rfl

/-- What a debug build returns every build returns. -/
def Checked {α : Type} (x : Build → Except Fault α) : Prop :=
  ∀ a, x .debug = .ok a → ∀ build, x build = .ok a

theorem Checked.bind {α β : Type} {x : Build → Except Fault α} {f : Build → α → Except Fault β}
    (hx : Checked x) (hf : ∀ a, Checked fun build => f build a) :
    Checked fun build => x build >>= f build := by
  intro b h build
  obtain ⟨a, ha, hb⟩ := bind_eq_ok.mp h
  exact bind_eq_ok.mpr ⟨a, hx a ha build, hf a b hb build⟩

theorem checked_const {α : Type} (x : Except Fault α) : Checked fun _ => x :=
  fun _ h _ => h

theorem checked_check (p : Prop) [Decidable p] : Checked fun build => check build p :=
  fun _ h _ => check_of _ (check_ok_iff.mp h rfl)

/-! ### Machine integers -/

/-- The value of an integer expression computed in 64-bit unsigned arithmetic. -/
def sizeT (z : ℤ) : ℕ := (z % 2 ^ 64).toNat

/-- The value of an integer expression cut to 32 unsigned bits. -/
def uInt (z : ℤ) : ℕ := (z % 2 ^ 32).toNat

/-- The value of an integer expression narrowed to a signed 32-bit integer. -/
def int32 (z : ℤ) : ℤ := (z + 2 ^ 31) % 2 ^ 32 - 2 ^ 31

theorem sizeT_of_nonneg {z : ℤ} (h0 : 0 ≤ z) (h : z < 2 ^ 64) : (sizeT z : ℤ) = z := by
  unfold sizeT
  omega

theorem sizeT_natCast (n : ℕ) : sizeT n = n % 2 ^ 64 := by
  unfold sizeT
  omega

/-- A sum that is computed in 64-bit unsigned arithmetic wraps around once, at its end. -/
theorem foldl_sizeT_add {α : Type} (f : α → ℕ) (l : List α) :
    l.foldl (fun n a => sizeT (n + f a)) 0 = (l.map f).sum % 2 ^ 64 := by
  induction l using List.reverseRecOn with
  | nil => rfl
  | append_singleton l a ih =>
    rw [List.foldl_append, List.foldl_cons, List.foldl_nil, ih, ← Nat.cast_add, sizeT_natCast,
      Nat.mod_add_mod, List.map_append, List.sum_append, List.map_singleton, List.sum_singleton]

/-- Subtracting too much wraps to the top of the range. -/
theorem uInt_sizeT_of_neg {z : ℤ} (h : z < 0) (hz : -(2 ^ 32) ≤ z) :
    (uInt (sizeT z) : ℤ) = 2 ^ 32 + z := by
  unfold uInt sizeT
  omega

theorem uInt_sizeT_of_nonneg {z : ℤ} (h0 : 0 ≤ z) (h : z < 2 ^ 32) : (uInt (sizeT z) : ℤ) = z := by
  unfold uInt sizeT
  omega

theorem int32_sizeT {z : ℤ} (h0 : -(2 ^ 31) ≤ z) (h : z < 2 ^ 31) : int32 (sizeT z) = z := by
  unfold int32 sizeT
  omega

/-! ### Slices -/

/-- The `len` bytes of a block from `off` on, fewer where the block ends before. -/
def slice (block : List UInt8) (off len : ℕ) : List UInt8 := (block.drop off).take len

theorem slice_length {block : List UInt8} {off len : ℕ} (h : off + len ≤ block.length) :
    (slice block off len).length = len := by
  simp only [slice, List.length_take, List.length_drop]
  omega

@[simp] theorem slice_zero_length (block : List UInt8) : slice block 0 block.length = block := by
  simp [slice]

theorem slice_append_left {a b : List UInt8} {off len : ℕ} (h : off + len ≤ a.length) :
    slice (a ++ b) off len = slice a off len := by
  rw [slice, slice, List.drop_append_of_le_length (by omega),
    List.take_append_of_le_length (by rw [List.length_drop]; omega)]

theorem slice_append_right {a b : List UInt8} {off len : ℕ} (h : a.length ≤ off) :
    slice (a ++ b) off len = slice b (off - a.length) len := by
  rw [slice, slice, List.drop_append, List.drop_eq_nil_of_le h, List.nil_append]

/-- The middle part of a layout. -/
theorem slice_append_middle (a b c : List UInt8) :
    slice (a ++ (b ++ c)) a.length b.length = b := by
  rw [slice_append_right le_rfl, Nat.sub_self, slice_append_left (by omega), slice_zero_length]

/-- The middle part of a layout, by its offset and its length. -/
theorem slice_behind {a b c : List UInt8} {off len : ℕ} (hoff : off = a.length)
    (hlen : len = b.length) : slice (a ++ (b ++ c)) off len = b := by
  subst hoff hlen
  exact slice_append_middle a b c

theorem slice_skip {a b : List UInt8} {off len : ℕ} (off' : ℕ) (h : off = a.length + off') :
    slice (a ++ b) off len = slice b off' len := by
  rw [slice_append_right (by omega), h, Nat.add_sub_cancel_left]

/-- A slice of a slice. -/
theorem slice_slice {block : List UInt8} {off len off' len' : ℕ} (h : off' + len' ≤ len) :
    slice (slice block off len) off' len' = slice block (off + off') len' := by
  simp only [slice, List.drop_take, List.drop_drop, List.take_take]
  rw [Nat.min_eq_left (by omega)]

/-- Adjacent slices are one slice. -/
theorem slice_append_slice (block : List UInt8) (off m n : ℕ) :
    slice block off m ++ slice block (off + m) n = slice block off (m + n) := by
  rw [slice, slice, slice, List.take_add, List.drop_drop]

theorem getElem?_slice (block : List UInt8) (off len i : ℕ) :
    (slice block off len)[i]? = if i < len then block[off + i]? else none := by
  rw [slice, List.getElem?_take, List.getElem?_drop]

/-- Blocks that agree on a range have the same slice there. -/
theorem slice_congr {a b : List UInt8} {off len : ℕ}
    (h : ∀ i, off ≤ i → i < off + len → a[i]? = b[i]?) : slice a off len = slice b off len := by
  apply List.ext_getElem?
  intro i
  rw [getElem?_slice, getElem?_slice]
  split
  · exact h _ (Nat.le_add_right _ _) (by omega)
  · rfl

/-- A byte that changes outside of a slice. -/
theorem slice_set_outside (block : List UInt8) {i off len : ℕ} (b : UInt8)
    (h : i < off ∨ off + len ≤ i) : slice (block.set i b) off len = slice block off len := by
  apply slice_congr
  intro j hoff hlen
  exact List.getElem?_set_ne (by omega)

/-- A byte that changes inside of a slice. -/
theorem slice_set_inside (block : List UInt8) {i off : ℕ} (len : ℕ) (b : UInt8) (h : off ≤ i) :
    slice (block.set i b) off len = (slice block off len).set (i - off) b := by
  rw [slice, slice, List.drop_set, if_neg (by omega), List.take_set]

/-! ### Checked accesses -/

/-- Read `len` bytes at `off`. -/
def read (block : List UInt8) (off len : ℕ) : Except Fault (List UInt8) :=
  if off + len ≤ block.length then .ok (slice block off len) else .error (.outOfBounds off len)

/-- Read `len` bytes through a pointer that may also point in front of the block. -/
def readPtr (block : List UInt8) (ptr : ℤ) (len : ℕ) : Except Fault (List UInt8) :=
  if 0 ≤ ptr then read block ptr.toNat len else .error (.outOfBounds ptr len)

/-- Overwrite the bytes from `off` on with `bytes`. -/
def write (block : List UInt8) (off : ℕ) (bytes : List UInt8) : Except Fault (List UInt8) :=
  if off + bytes.length ≤ block.length then
    .ok (block.take off ++ bytes ++ block.drop (off + bytes.length))
  else .error (.outOfBounds off bytes.length)

/-- A new block of `n` bytes, whose contents nothing has determined yet. -/
def newBlock (heap : ℕ → UInt8) (n : ℕ) : List UInt8 := (List.range n).map heap

@[simp] theorem newBlock_length (heap : ℕ → UInt8) (n : ℕ) : (newBlock heap n).length = n := by
  simp [newBlock]

theorem read_ok {block : List UInt8} {off len : ℕ} (h : off + len ≤ block.length) :
    read block off len = .ok (slice block off len) := if_pos h

theorem read_error {block : List UInt8} {off len : ℕ} (h : ¬ off + len ≤ block.length) :
    read block off len = .error (.outOfBounds off len) := if_neg h

theorem read_ok_iff {block : List UInt8} {off len : ℕ} :
    (∃ bs, read block off len = .ok bs) ↔ off + len ≤ block.length := by
  by_cases h : off + len ≤ block.length <;> simp [read, h]

theorem readPtr_ok {block : List UInt8} {ptr : ℤ} {off len : ℕ} (hp : ptr = off)
    (h : off + len ≤ block.length) : readPtr block ptr len = .ok (slice block off len) := by
  subst hp
  rw [readPtr, if_pos (by omega), Int.toNat_natCast, read_ok h]

theorem readPtr_ok_iff {block : List UInt8} {ptr : ℤ} {len : ℕ} :
    (∃ bs, readPtr block ptr len = .ok bs) ↔ 0 ≤ ptr ∧ ptr + len ≤ block.length := by
  by_cases h : 0 ≤ ptr
  · rw [readPtr, if_pos h, read_ok_iff]
    omega
  · simp [readPtr, h]

theorem write_ok {block : List UInt8} {off : ℕ} {bytes : List UInt8}
    (h : off + bytes.length ≤ block.length) :
    write block off bytes = .ok (block.take off ++ bytes ++ block.drop (off + bytes.length)) :=
  if_pos h

/-- A store right behind the initialised part `done` of a block extends it. -/
theorem write_append {done room bytes : List UInt8} {off : ℕ} (hoff : off = done.length)
    (h : bytes.length ≤ room.length) :
    write (done ++ room) off bytes = .ok (done ++ bytes ++ room.drop bytes.length) := by
  subst hoff
  rw [write_ok (by rw [List.length_append]; omega), List.take_left', List.drop_append]
  · simp
  · rfl

/-- A store over the middle part of a layout. -/
theorem write_middle {a m c bytes : List UInt8} {off : ℕ} (hoff : off = a.length)
    (hlen : bytes.length = m.length) :
    write (a ++ (m ++ c)) off bytes = .ok (a ++ (bytes ++ c)) := by
  rw [write_append hoff (by rw [List.length_append]; omega), hlen, List.append_assoc]
  simp

theorem write_length {block block' bytes : List UInt8} {off : ℕ} (h : write block off bytes = .ok block') :
    block'.length = block.length := by
  unfold write at h
  split at h
  · cases h
    simp only [List.length_append, List.length_take, List.length_drop]
    omega
  · cases h

/-- Byte by byte, a store changes the bytes that it is given. -/
theorem getElem?_write {block block' bytes : List UInt8} {off : ℕ}
    (h : write block off bytes = .ok block') (i : ℕ) :
    block'[i]? = if off ≤ i ∧ i < off + bytes.length then bytes[i - off]? else block[i]? := by
  unfold write at h
  split at h
  swap
  · cases h
  · next hroom =>
    cases h
    have htake : (block.take off).length = off := by
      rw [List.length_take]
      omega
    rw [List.getElem?_append, List.getElem?_append, List.length_append, htake]
    by_cases hlow : i < off
    · rw [if_pos (by omega), if_pos hlow, if_neg (by omega), List.getElem?_take, if_pos hlow]
    · by_cases hhigh : i < off + bytes.length
      · rw [if_pos hhigh, if_neg hlow, if_pos ⟨by omega, hhigh⟩]
      · rw [if_neg hhigh, if_neg (by omega), List.getElem?_drop]
        congr 1
        omega

/-- Reading back what a store has written. -/
theorem slice_write_same {block block' bytes : List UInt8} {off : ℕ}
    (h : write block off bytes = .ok block') : slice block' off bytes.length = bytes := by
  apply List.ext_getElem?
  intro i
  rw [getElem?_slice, getElem?_write h]
  by_cases hi : i < bytes.length
  · rw [if_pos hi, if_pos ⟨Nat.le_add_right off i, by omega⟩, Nat.add_sub_cancel_left]
  · rw [if_neg hi, List.getElem?_eq_none (Nat.not_lt.mp hi)]

/-- A store elsewhere. -/
theorem slice_write_other {block block' bytes : List UInt8} {off off' len : ℕ}
    (h : write block off bytes = .ok block')
    (hsep : ∀ i, off' ≤ i → i < off' + len → ¬ (off ≤ i ∧ i < off + bytes.length)) :
    slice block' off' len = slice block off' len := by
  apply slice_congr
  intro i hlow hhigh
  rw [getElem?_write h, if_neg (hsep i hlow hhigh)]

/-- Every block can be cut at a position inside. -/
theorem exists_cut (block : List UInt8) {k : ℕ} (h : k ≤ block.length) :
    ∃ a b, block = a ++ b ∧ a.length = k :=
  ⟨block.take k, block.drop k, (List.take_append_drop k block).symm, by
    rw [List.length_take, Nat.min_eq_left h]⟩

end Memory
