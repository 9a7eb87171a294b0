import Mathlib.Data.Finset.Sort

/-!
# Subjects and observers

A subject keeps a set of observers and calls them one by one, in the order of their addresses.

## Main definitions

- `Subject.addObserver`, `Subject.removeObserver`, `Subject.notify`
- `received` — the calls that one observer gets

## Main results

- `received_notify` — an observer is called once if it is registered, however often it was added
-/

namespace TerraX

variable {κ α : Type} [LinearOrder κ]

/-- `ISubject`, which knows its observers by their addresses. -/
structure Subject (κ : Type) where
  setObservers : Finset κ
deriving DecidableEq

namespace Subject

/-- `ISubject::AddObserver`. -/
def addObserver (s : Subject κ) (observer : κ) : Subject κ := ⟨insert observer s.setObservers⟩

/-- `ISubject::RemoveObserver`. -/
def removeObserver (s : Subject κ) (observer : κ) : Subject κ := ⟨s.setObservers.erase observer⟩

/-- `ISubject::Notify`: the calls of `OnUpdate`. -/
def notify (s : Subject κ) (args : α) : List (κ × α) :=
  (s.setObservers.sort (· ≤ ·)).map fun observer => (observer, args)

@[simp] theorem mem_addObserver {s : Subject κ} {o o' : κ} :
    o ∈ (s.addObserver o').setObservers ↔ o = o' ∨ o ∈ s.setObservers := Finset.mem_insert

@[simp] theorem mem_removeObserver {s : Subject κ} {o o' : κ} :
    o ∈ (s.removeObserver o').setObservers ↔ o ≠ o' ∧ o ∈ s.setObservers := Finset.mem_erase

end Subject

/-- The arguments of the calls that an observer gets. -/
def received (observer : κ) (calls : List (κ × α)) : List α :=
  (calls.filter fun call => call.1 = observer).map Prod.snd

@[simp] theorem received_nil (o : κ) : received o ([] : List (κ × α)) = [] := rfl

@[simp] theorem received_append (o : κ) (calls calls' : List (κ × α)) :
    received o (calls ++ calls') = received o calls ++ received o calls' := by
  simp [received]

theorem received_map_notify {o : κ} {observers : List κ} (hnodup : observers.Nodup) (args : α) :
    received o (observers.map fun observer => (observer, args)) =
      if o ∈ observers then [args] else [] := by
  induction observers with
  | nil => rfl
  | cons o' observers ih =>
    obtain ⟨hnot, hnodup⟩ := List.nodup_cons.mp hnodup
    have hrest := ih hnodup
    by_cases ho : o' = o
    · subst ho
      rw [if_neg hnot] at hrest
      rw [if_pos List.mem_cons_self]
      simpa [received] using hrest
    · have hmem : o ∈ o' :: observers ↔ o ∈ observers := by simp [Ne.symm ho]
      rw [if_congr hmem rfl rfl, ← hrest]
      simp [received, ho]

/-- An observer is called once if it is registered. -/
theorem received_notify (s : Subject κ) (args : α) (o : κ) :
    received o (s.notify args) = if o ∈ s.setObservers then [args] else [] := by
  rw [Subject.notify, received_map_notify (Finset.sort_nodup _ _)]
  simp only [Finset.mem_sort]

end TerraX
