import Mathlib.Data.List.Nodup
import Mathlib.Data.List.Perm.Basic
import TerraX.Lib.Owner

/-!
# The container of owned items

An array of owning pointers, of which the first `curSize` are in use. Removing an item moves the
last one into its slot. Iterators call for `Count()`, which no class declares; it is read as
`Size()`.

## Main definitions

- `Container.push`, `Container.removeAt`, `Container.remove` — the changes
- `Container.search` — the loop of the functions that look for an item
- `Container.visits` — what a whole iteration returns
- `Container.Holds` — the live items, and the slots behind them

## Main results

- `Container.Holds.removeAt_last`, `Container.Holds.removeAt_inner` — what a removal does
- `Container.Holds.search_eq` — where the search ends
-/

namespace TerraX

open Memory Owner

/-- `Container_T`, with the heap that its items live in. -/
structure Container (α : Type) where
  items : Owners α
  curSize : ℕ

/-- `Iterator_T`. -/
structure Iterator where
  curIndex : ℕ := 0
deriving DecidableEq, Repr

namespace Container

variable {α : Type}

/-- `Container_T::Container_T`, with the `CONTAINER_SIZE`. -/
def new (size : ℕ) : Container α := ⟨Owners.new size, 0⟩

/-- `Container_T::Push`. -/
def push (build : Build) (c : Container α) (p : Option ℕ) : Except HeapFault (Container α) := do
  let item ← c.items.get c.curSize
  memory (check build (item = none))
  let items ← c.items.reset c.curSize p
  .ok { items, curSize := c.curSize + 1 }

/-- `Container_T::RemoveAt`. -/
def removeAt (c : Container α) (nIndex : ℤ) : Except HeapFault (Container α) :=
  if 0 ≤ nIndex ∧ nIndex < c.curSize then do
    let items ←
      if nIndex = c.curSize then c.items.reset nIndex.toNat none
      else c.items.moveAssign nIndex.toNat (c.curSize - 1)
    .ok { items, curSize := c.curSize - 1 }
  else .ok c

/-- `Iterator_T::Next`. -/
def next (c : Container α) (iter : Iterator) : Except HeapFault (Option ℕ × Iterator) :=
  if iter.curIndex < c.curSize then do
    let p ← c.items.get iter.curIndex
    .ok (p, { curIndex := iter.curIndex + 1 })
  else .ok (none, iter)

/-- `Iterator_T::IsEnd`. -/
def isEnd (c : Container α) (iter : Iterator) : Bool := c.curSize ≤ iter.curIndex

theorem next_advances {c : Container α} {iter iter' : Iterator} {p : Option ℕ}
    (hend : ¬ c.isEnd iter = true) (h : c.next iter = .ok (p, iter')) :
    c.curSize - iter'.curIndex < c.curSize - iter.curIndex := by
  have hlt : iter.curIndex < c.curSize := by simpa [isEnd] using hend
  rw [next, if_pos hlt] at h
  cases hget : c.items.get iter.curIndex with
  | error fault =>
    rw [hget] at h
    cases h
  | ok q =>
    rw [hget] at h
    cases h
    simp only
    omega

/-- The loop `while (!iter.IsEnd())` with its own count beside the iterator: the count and the item
at which it returns. -/
def search (c : Container α) (test : Option ℕ → Except HeapFault Bool) (iter : Iterator)
    (nIndex : ℕ) : Except HeapFault (Option (ℕ × Option ℕ)) :=
  if _ : c.isEnd iter = true then .ok none
  else
    match _ : c.next iter with
    | .error fault => .error fault
    | .ok (p, iter') => do
      if ← test p then .ok (some (nIndex, p))
      else c.search test iter' (nIndex + 1)
termination_by c.curSize - iter.curIndex
decreasing_by exact next_advances ‹_› ‹_›

/-- The items that `while (!iter.IsEnd()) iter.Next();` returns. -/
def visits (c : Container α) (iter : Iterator) : Except HeapFault (List (Option ℕ)) :=
  if _ : c.isEnd iter = true then .ok []
  else
    match _ : c.next iter with
    | .error fault => .error fault
    | .ok (p, iter') => do
      let ps ← c.visits iter'
      .ok (p :: ps)
termination_by c.curSize - iter.curIndex
decreasing_by exact next_advances ‹_› ‹_›

/-- `Container_T::Remove`. -/
def remove (c : Container α) (pItem : Option ℕ) : Except HeapFault (Container α) := do
  match ← c.search (fun p => .ok (p == pItem)) {} 0 with
  | some (nIndex, _) => c.removeAt nIndex
  | none => .ok c

/-- The live items, and the slots behind them. -/
structure Holds (c : Container α) (live : List ℕ) (rest : List (Option ℕ)) : Prop where
  slots : c.items.slots = live.map some ++ rest
  size : c.curSize = live.length
  unique : c.items.Unique

theorem new_holds (size : ℕ) : (new size : Container α).Holds [] (List.replicate size none) :=
  ⟨rfl, rfl, Owners.new_unique size⟩

namespace Holds

variable {c : Container α} {live : List ℕ} {rest : List (Option ℕ)} (h : c.Holds live rest)
include h

theorem slot_live {i : ℕ} (hi : i < live.length) : c.items.slots[i]? = some (some live[i]) := by
  rw [h.slots, List.getElem?_append_left (by simpa using hi)]
  simp [hi]

theorem slot_rest {i : ℕ} {p : Option ℕ} (hi : rest[i]? = some p) :
    c.items.slots[live.length + i]? = some p := by
  rw [h.slots, List.getElem?_append_right (by simp)]
  simpa using hi

theorem heap_live {p : ℕ} (hp : p ∈ live) : c.items.heap p ≠ none := by
  obtain ⟨i, hi, rfl⟩ := List.mem_iff_getElem.mp hp
  exact h.unique.owned_of_slot (h.slot_live hi)

theorem nodup : live.Nodup := by
  rw [List.nodup_iff_injective_getElem]
  intro i j hij
  have hi := h.slot_live i.isLt
  have hj := h.slot_live j.isLt
  simp only at hij
  rw [← hij] at hj
  exact Fin.ext (h.unique.inj _ _ _ hi hj)

/-- What is left behind the live items is none of them. -/
theorem not_mem_live {p : ℕ} (hp : some p ∈ rest) : p ∉ live := by
  intro hmem
  obtain ⟨i, hi, hget⟩ := List.mem_iff_getElem.mp hmem
  obtain ⟨j, hj⟩ := List.mem_iff_getElem?.mp hp
  have hsame := h.unique.inj i _ p (hget ▸ h.slot_live hi) (h.slot_rest hj)
  omega

/-! ### Adding -/

/-- A new object takes the first slot behind the live ones; what was left there is deleted. -/
theorem push_fresh {build : Build} {old : Option ℕ} {left : List (Option ℕ)} {p : ℕ} {a : α}
    (hrest : rest = old :: left) (hp : c.items.heap p = none) (hold : build = .debug → old = none) :
    ∃ c', push build { c with items := c.items.allocate p a } (some p) = .ok c' ∧
      c'.Holds (live ++ [p]) left ∧ c'.items.heap = Owners.freed (c.items.allocate p a).heap old := by
  have hslot : c.items.slots[c.curSize]? = some old := by
    rw [h.size]
    exact h.slot_rest (i := 0) (by rw [hrest]; rfl)
  obtain ⟨items, hreset, hunique, hslots, hheap⟩ := h.unique.reset_fresh (a := a) hslot hp
  refine ⟨{ items, curSize := c.curSize + 1 }, ?_, ⟨?_, ?_, hunique⟩, hheap⟩
  · rw [push, Owners.get_eq (o := c.items.allocate p a) hslot, bind_ok, check_of_debug hold,
      memory_ok, bind_ok, hreset]
    rfl
  · rw [hslots, h.slots, hrest, h.size]
    simp
  · simp [h.size]

/-- What a removal left behind the live items fails the assertion of the next push. -/
theorem push_leftover {q : ℕ} {left : List (Option ℕ)} (hrest : rest = some q :: left) (o : Owners α)
    (ho : o.slots = c.items.slots) (p : Option ℕ) :
    push .debug { c with items := o } p = .error (.memory .assertFailed) := by
  have hslot : o.slots[c.curSize]? = some (some q) := by
    rw [ho, h.size]
    exact h.slot_rest (i := 0) (by rw [hrest]; rfl)
  rw [push, Owners.get_eq hslot]
  rfl

/-! ### Removing -/

theorem removeAt_outside {nIndex : ℤ} (hout : ¬ (0 ≤ nIndex ∧ nIndex < live.length)) :
    c.removeAt nIndex = .ok c := by
  rw [removeAt, h.size, if_neg hout]

/-- A removal in range is a move of the last item, never a reset. -/
theorem removeAt_eq {i : ℕ} (hi : i < live.length) :
    c.removeAt i = (do
      let items ← c.items.moveAssign i (live.length - 1)
      .ok { items, curSize := live.length - 1 }) := by
  rw [removeAt, h.size, if_pos (by omega), if_neg (by omega)]
  rfl

/-- The last item is moved to itself: it stays owned behind the live ones. -/
theorem removeAt_last {init : List ℕ} {last : ℕ} (hlive : live = init ++ [last]) :
    ∃ c', c.removeAt init.length = .ok c' ∧ c'.Holds init (some last :: rest) ∧
      c'.items.heap = c.items.heap := by
  have hlen : live.length = init.length + 1 := by simp [hlive]
  have hslot : c.items.slots[init.length]? = some (some last) := by
    rw [h.slot_live (by omega)]
    simp [hlive]
  refine ⟨{ c with curSize := init.length }, ?_, ⟨?_, rfl, h.unique⟩, rfl⟩
  · rw [h.removeAt_eq (by omega), hlen, Nat.add_sub_cancel, Owners.moveAssign_self hslot]
    rfl
  · simp [h.slots, hlive]

/-- Another item is deleted, and the last one takes its slot. -/
theorem removeAt_inner {init : List ℕ} {last i : ℕ} (hlive : live = init ++ [last])
    (hi : i < init.length) :
    ∃ c', c.removeAt i = .ok c' ∧ c'.Holds (init.set i last) (none :: rest) ∧
      c'.items.heap = Owners.freed c.items.heap (some init[i]) := by
  have hlen : live.length = init.length + 1 := by simp [hlive]
  have hslot : c.items.slots[i]? = some (some init[i]) := by
    rw [h.slot_live (by omega)]
    simp [hlive, List.getElem_append_left, hi]
  have hlast : c.items.slots[init.length]? = some (some last) := by
    rw [h.slot_live (by omega)]
    simp [hlive]
  obtain ⟨items, hmove, hunique, hslots, hheap⟩ :=
    h.unique.moveAssign (Nat.ne_of_lt hi) hslot hlast
  refine ⟨{ items, curSize := init.length }, ?_, ⟨?_, by simp, hunique⟩, hheap⟩
  · rw [h.removeAt_eq (by omega), hlen, Nat.add_sub_cancel, hmove]
    rfl
  · rw [hslots, h.slots, hlive]
    simp [hi, List.map_set]

/-- A removal takes out one live item. Unless it is the last one, it is deleted. -/
theorem removeAt_live {i : ℕ} (hi : i < live.length) :
    ∃ c' live' left, c.removeAt i = .ok c' ∧ c'.Holds live' (left :: rest) ∧
      live.Perm (live[i] :: live') ∧ (∀ p ∈ live', c'.items.heap p = c.items.heap p) ∧
      (left = none ↔ i + 1 ≠ live.length) := by
  obtain ⟨init, last, rfl⟩ := (List.eq_nil_or_concat' live).resolve_left (by rintro rfl; simp at hi)
  have hnodup := h.nodup
  rw [List.length_append, List.length_singleton] at hi ⊢
  by_cases hlast : i = init.length
  · subst hlast
    obtain ⟨c', hremove, hholds, hheap⟩ := h.removeAt_last rfl
    refine ⟨c', init, some last, hremove, hholds, ?_, fun p _ => congrFun hheap p, by simp⟩
    rw [List.getElem_concat_length rfl]
    exact List.perm_append_singleton last init
  · have hlt : i < init.length := by omega
    obtain ⟨c', hremove, hholds, hheap⟩ := h.removeAt_inner rfl hlt
    have hget : (init ++ [last])[i] = init[i] := List.getElem_append_left hlt
    have hperm : (init ++ [last]).Perm (init[i] :: init.set i last) := by
      have hset : (init.set i last).Perm (last :: init.eraseIdx i) :=
        List.set_perm_cons_eraseIdx hlt last
      have herase : init.Perm (init[i] :: init.eraseIdx i) :=
        (List.getElem_cons_eraseIdx_perm hlt).symm
      calc List.Perm (init ++ [last]) (last :: init) := List.perm_append_singleton last init
        List.Perm _ (last :: init[i] :: init.eraseIdx i) := herase.cons last
        List.Perm _ (init[i] :: last :: init.eraseIdx i) := .swap _ _ _
        List.Perm _ (init[i] :: init.set i last) := hset.symm.cons _
    refine ⟨c', init.set i last, none, hremove, hholds, hget ▸ hperm, ?_, by simp; omega⟩
    intro p hp
    rw [hheap]
    refine Owners.freed_eq_of_ne fun heq => ?_
    have hnot : init[i] ∉ init.set i last := (List.nodup_cons.mp (hperm.nodup_iff.mp hnodup)).1
    exact hnot ((Option.some.inj heq).symm ▸ hp)

/-! ### Iterating -/

theorem isEnd_eq (iter : Iterator) : c.isEnd iter = decide (live.length ≤ iter.curIndex) := by
  rw [isEnd, h.size]

theorem next_eq {i : ℕ} (hi : i < live.length) :
    c.next ⟨i⟩ = .ok (some live[i], ⟨i + 1⟩) := by
  rw [next, h.size, if_pos hi, Owners.get_eq (h.slot_live hi), bind_ok]

/-- The search returns at the first live item that passes the test. -/
theorem search_from {test : Option ℕ → Except HeapFault Bool} {f : ℕ → Bool}
    (htest : ∀ p ∈ live, test (some p) = .ok (f p)) (k : ℕ) :
    c.search test ⟨k⟩ k =
      .ok (((live.drop k).findIdx? f).map fun i => (k + i, live[k + i]?)) := by
  induction hn : live.length - k generalizing k with
  | zero =>
    have hle : live.length ≤ k := by omega
    rw [search, dif_pos (by simp [h.isEnd_eq, hle]), List.drop_eq_nil_of_le hle]
    rfl
  | succ n ih =>
    have hlt : k < live.length := by omega
    rw [search, dif_neg (by simp [h.isEnd_eq, hlt]), h.next_eq hlt]
    simp only [htest _ (List.getElem_mem hlt), bind_ok]
    rw [List.drop_eq_getElem_cons hlt, List.findIdx?_cons]
    cases hf : f live[k] with
    | true => simp [hlt]
    | false =>
      rw [if_neg (by simp), if_neg (by simp), ih (k + 1) (by omega), Option.map_map]
      congr 2
      funext i
      simp [Nat.add_assoc, Nat.add_comm 1]

theorem search_eq {test : Option ℕ → Except HeapFault Bool} {f : ℕ → Bool}
    (htest : ∀ p ∈ live, test (some p) = .ok (f p)) :
    c.search test {} 0 = .ok ((live.findIdx? f).map fun i => (i, live[i]?)) := by
  rw [h.search_from htest 0]
  simp

theorem visits_from (k : ℕ) : c.visits ⟨k⟩ = .ok ((live.drop k).map some) := by
  induction hn : live.length - k generalizing k with
  | zero =>
    have hle : live.length ≤ k := by omega
    rw [visits, dif_pos (by simp [h.isEnd_eq, hle]), List.drop_eq_nil_of_le hle]
    rfl
  | succ n ih =>
    have hlt : k < live.length := by omega
    rw [visits, dif_neg (by simp [h.isEnd_eq, hlt]), h.next_eq hlt]
    simp only [ih (k + 1) (by omega), bind_ok]
    rw [List.drop_eq_getElem_cons hlt, List.map_cons]

/-- A whole iteration returns the live items in their order. -/
theorem visits_eq : c.visits {} = .ok (live.map some) := h.visits_from 0

end Holds

end Container

end TerraX
