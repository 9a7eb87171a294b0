import Mathlib.Data.List.Basic
import Mathlib.Logic.Function.Basic
import TerraX.Lib.Memory

/-!
# Owning pointers

Objects live in a heap, under their addresses. An array of owning pointers deletes an object when
the pointer that owns it is set to another one. Where each object is owned by one pointer, no
object is deleted twice.

## Main definitions

- `Owner.HeapFault` — the ways a function with pointers leaves its defined behaviour
- `Owner.Owners` — a heap, and an array of pointers that own its objects
- `Owner.Owners.reset`, `Owner.Owners.moveAssign` — assignments to an owning pointer
- `Owner.Owners.Unique` — each object is owned by exactly one pointer of the array

## Main results

- `Owner.Owners.Unique.reset_fresh` — a pointer takes over a new object
- `Owner.Owners.Unique.moveAssign` — a pointer takes over the object of another one
- `Owner.Owners.moveAssign_self` — a pointer that is assigned to itself keeps its object
-/

namespace Owner

open Memory

/-- A way in which a function with pointers leaves its defined behaviour. -/
inductive HeapFault
  /-- No object lives at the address: it was deleted, or never allocated. -/
  | dangling (address : ℕ)
  /-- What memory accesses and assertions can do. -/
  | memory (fault : Memory.Fault)
deriving DecidableEq, Repr

/-- A memory access, or an assertion. -/
def memory {α : Type} : Except Memory.Fault α → Except HeapFault α
  | .ok a => .ok a
  | .error fault => .error (.memory fault)

@[simp] theorem memory_ok {α : Type} (a : α) : memory (.ok a) = .ok a := rfl

@[simp] theorem bind_ok {α β : Type} (a : α) (f : α → Except HeapFault β) :
    (.ok a >>= f) = f a := rfl

@[simp] theorem bind_error {α β : Type} (e : HeapFault) (f : α → Except HeapFault β) :
    (.error e >>= f) = .error e := rfl

/-- A heap, and an array of pointers into it, which own what they point to. -/
structure Owners (α : Type) where
  heap : ℕ → Option α
  slots : List (Option ℕ)

namespace Owners

variable {α : Type}

/-- An empty heap, and `size` null pointers. -/
def new (size : ℕ) : Owners α := ⟨fun _ => none, List.replicate size none⟩

/-- The pointer in a slot. -/
def get (o : Owners α) (i : ℕ) : Except HeapFault (Option ℕ) :=
  match o.slots[i]? with
  | some p => .ok p
  | none => .error (.memory (.badIndex i o.slots.length))

/-- The object that a pointer points to. -/
def deref (o : Owners α) : Option ℕ → Except HeapFault α
  | none => .error (.memory .nullPointer)
  | some p =>
    match o.heap p with
    | some a => .ok a
    | none => .error (.dangling p)

/-- `new`: an object at an address that is free. -/
def allocate (o : Owners α) (p : ℕ) (a : α) : Owners α :=
  { o with heap := Function.update o.heap p (some a) }

@[simp] theorem allocate_heap (o : Owners α) (p : ℕ) (a : α) :
    (o.allocate p a).heap = Function.update o.heap p (some a) := rfl

@[simp] theorem allocate_slots (o : Owners α) (p : ℕ) (a : α) :
    (o.allocate p a).slots = o.slots := rfl

/-- `delete`. A null pointer is no object. -/
def delete (o : Owners α) : Option ℕ → Except HeapFault (Owners α)
  | none => .ok o
  | some p =>
    match o.heap p with
    | some _ => .ok { o with heap := Function.update o.heap p none }
    | none => .error (.dangling p)

/-- `reset`: a pointer is set, and then what it owned is deleted. -/
def reset (o : Owners α) (i : ℕ) (p : Option ℕ) : Except HeapFault (Owners α) := do
  let old ← o.get i
  { o with slots := o.slots.set i p }.delete old

/-- Assignment from `std::move`: the other pointer is released, and this one reset to it. -/
def moveAssign (o : Owners α) (i j : ℕ) : Except HeapFault (Owners α) := do
  let p ← o.get j
  { o with slots := o.slots.set j none }.reset i p

/-- Each object is owned by exactly one pointer of the array. -/
structure Unique (o : Owners α) : Prop where
  inj : ∀ (i j p : ℕ), o.slots[i]? = some (some p) → o.slots[j]? = some (some p) → i = j
  owned : ∀ p : ℕ, o.heap p ≠ none ↔ ∃ i : ℕ, o.slots[i]? = some (some p)

theorem new_unique (size : ℕ) : (new size : Owners α).Unique := by
  constructor <;> grind [new]

theorem get_eq {o : Owners α} {i : ℕ} {p : Option ℕ} (h : o.slots[i]? = some p) :
    o.get i = .ok p := by
  rw [get, h]

theorem deref_eq {o : Owners α} {p : ℕ} {a : α} (h : o.heap p = some a) :
    o.deref (some p) = .ok a := by
  rw [deref, h]

/-- The heap without what a pointer points to. -/
def freed (heap : ℕ → Option α) (old : Option ℕ) : ℕ → Option α :=
  fun q => if old = some q then none else heap q

@[simp] theorem freed_none (heap : ℕ → Option α) : freed heap none = heap := by
  funext q
  simp [freed]

theorem freed_eq_of_ne {heap : ℕ → Option α} {old : Option ℕ} {q : ℕ} (h : old ≠ some q) :
    freed heap old q = heap q := if_neg h

theorem freed_eq_none {heap : ℕ → Option α} {old : Option ℕ} {q : ℕ} (h : heap q = none) :
    freed heap old q = none := by
  rw [freed, h, ite_self]

theorem delete_eq {o : Owners α} {p : Option ℕ} (h : ∀ q, p = some q → o.heap q ≠ none) :
    o.delete p = .ok { o with heap := freed o.heap p } := by
  cases p with
  | none => simp [delete]
  | some q =>
    obtain ⟨a, ha⟩ := Option.ne_none_iff_exists'.mp (h q rfl)
    simp only [delete, ha, Except.ok.injEq, mk.injEq, and_true]
    funext q'
    rw [Function.update_apply]
    simp only [freed, Option.some.injEq, eq_comm]

/-- A reset deletes what the pointer owned, unless it was null. -/
theorem reset_eq {o : Owners α} {i : ℕ} {old : Option ℕ} (h : o.slots[i]? = some old)
    (hold : ∀ q, old = some q → o.heap q ≠ none) (p : Option ℕ) :
    o.reset i p = .ok ⟨freed o.heap old, o.slots.set i p⟩ := by
  rw [reset, get_eq h, bind_ok]
  exact delete_eq (o := { o with slots := o.slots.set i p }) hold

theorem set_eq_some {l : List (Option ℕ)} {i j : ℕ} {v x old : Option ℕ} (h : l[i]? = some old) :
    (l.set i v)[j]? = some x ↔ j = i ∧ v = x ∨ j ≠ i ∧ l[j]? = some x := by
  obtain ⟨hi, -⟩ := List.getElem?_eq_some_iff.mp h
  by_cases hij : i = j
  · subst hij
    rw [List.getElem?_set_self hi]
    simp
  · rw [List.getElem?_set_ne hij]
    simp [Ne.symm hij]

namespace Unique

variable {o : Owners α} (h : o.Unique)
include h

theorem owned_of_slot {i p : ℕ} (hi : o.slots[i]? = some (some p)) : o.heap p ≠ none :=
  (h.owned p).mpr ⟨i, hi⟩

/-- A slot takes over a new object, and what it owned is deleted. -/
theorem reset_fresh {i p : ℕ} {a : α} {old : Option ℕ} (hi : o.slots[i]? = some old)
    (hp : o.heap p = none) :
    ∃ o', (o.allocate p a).reset i (some p) = .ok o' ∧ o'.Unique ∧
      o'.slots = o.slots.set i (some p) ∧ o'.heap = freed (o.allocate p a).heap old := by
  have hfresh : ∀ j : ℕ, o.slots[j]? ≠ some (some p) := fun j hj => h.owned_of_slot hj hp
  have hold : ∀ q, old = some q → (o.allocate p a).heap q ≠ none := by
    rintro q rfl
    have hne : q ≠ p := fun hqp => hfresh i (hqp ▸ hi)
    rw [allocate_heap, Function.update_of_ne hne]
    exact h.owned_of_slot hi
  refine ⟨_, reset_eq (o := o.allocate p a) hi hold (some p), ⟨?_, ?_⟩, rfl, rfl⟩
  · intro j k q hj hk
    rw [allocate_slots, set_eq_some hi] at hj hk
    have hinj := h.inj j k q
    grind
  · intro q
    simp only [allocate_heap, allocate_slots, freed, Function.update_apply, set_eq_some hi]
    have howned := h.owned q
    have hinj := h.inj i
    grind

/-- A slot takes over the object of another one, and what it owned is deleted. -/
theorem moveAssign {i j : ℕ} {old p : Option ℕ} (hne : i ≠ j) (hi : o.slots[i]? = some old)
    (hj : o.slots[j]? = some p) :
    ∃ o', o.moveAssign i j = .ok o' ∧ o'.Unique ∧
      o'.slots = (o.slots.set j none).set i p ∧ o'.heap = freed o.heap old := by
  have hi' : (o.slots.set j none)[i]? = some old := by rwa [List.getElem?_set_ne hne.symm]
  have hold : ∀ q, old = some q → o.heap q ≠ none := by
    rintro q rfl
    exact h.owned_of_slot hi
  refine ⟨⟨freed o.heap old, (o.slots.set j none).set i p⟩, ?_, ⟨?_, ?_⟩, rfl, rfl⟩
  · rw [Owners.moveAssign, get_eq hj, bind_ok]
    exact reset_eq (o := { o with slots := o.slots.set j none }) hi' hold p
  · intro k l q hk hl
    rw [set_eq_some hi', set_eq_some hj] at hk hl
    have hkl := h.inj k l q
    have hjk := h.inj j k q
    have hjl := h.inj j l q
    grind
  · intro q
    simp only [freed, set_eq_some hi', set_eq_some hj]
    have howned := h.owned q
    have hinj := h.inj i
    have hinj' := h.inj j
    grind

end Unique

/-- A pointer that is assigned to itself keeps what it owns. -/
theorem moveAssign_self {o : Owners α} {i : ℕ} {p : Option ℕ} (hi : o.slots[i]? = some p) :
    o.moveAssign i i = .ok o := by
  obtain ⟨hlt, hget⟩ := List.getElem?_eq_some_iff.mp hi
  have hi' : (o.slots.set i none)[i]? = some none := by rw [List.getElem?_set_self hlt]
  rw [moveAssign, get_eq hi, bind_ok]
  rw [reset_eq (o := { o with slots := o.slots.set i none }) hi' (by simp)]
  rw [freed_none, List.set_set, ← hget, List.set_getElem_self]

end Owners

end Owner
