import Mathlib.Data.List.Basic

/-!
# Effects that a failure leaves behind

A computation that changes a state and may fail. What it did before it failed stays.

## Main definitions

- `Effect`, `Effect.outcome` — such a computation, and its result with the state it leaves
- `Effect.Keeps` — however it ends, it leaves a condition on the state true, and a failure meets
  another one

## Main results

- `Effect.Keeps.bind`, `Effect.Keeps.forM` — the rules
- `Effect.forM_outcome` — a loop gets as far as its elements are good
-/

/-- A computation that changes a state and may fail. -/
abbrev Effect (σ ε α : Type) := ExceptT ε (StateM σ) α

namespace Effect

variable {σ ε α β ι : Type}

/-- The result, and the state that is left. -/
def outcome (x : Effect σ ε α) (s : σ) : Except ε α × σ := (ExceptT.run x).run s

@[simp] theorem outcome_pure (a : α) (s : σ) : (pure a : Effect σ ε α).outcome s = (.ok a, s) := rfl

@[simp] theorem outcome_throw (e : ε) (s : σ) :
    (throw e : Effect σ ε α).outcome s = (.error e, s) := rfl

@[simp] theorem outcome_get (s : σ) : (get : Effect σ ε σ).outcome s = (.ok s, s) := rfl

@[simp] theorem outcome_set (s s' : σ) : (set s' : Effect σ ε Unit).outcome s = (.ok (), s') := rfl

/-- What follows starts from the state that is left, unless there was a failure. -/
theorem outcome_bind (x : Effect σ ε α) (f : α → Effect σ ε β) (s : σ) :
    (x >>= f).outcome s =
      match x.outcome s with
      | (.ok a, s') => (f a).outcome s'
      | (.error e, s') => (.error e, s') := by
  change (ExceptT.run x >>= ExceptT.bindCont f).run s = _
  rw [StateT.run_bind]
  change (ExceptT.bindCont f (x.outcome s).1).run (x.outcome s).2 = _
  rcases x.outcome s with ⟨e | a, s'⟩ <;> rfl

theorem outcome_bind_of_ok {x : Effect σ ε α} {f : α → Effect σ ε β} {s s' : σ} {a : α}
    (h : x.outcome s = (.ok a, s')) : (x >>= f).outcome s = (f a).outcome s' := by
  rw [outcome_bind, h]

theorem outcome_bind_of_error {x : Effect σ ε α} {f : α → Effect σ ε β} {s s' : σ} {e : ε}
    (h : x.outcome s = (.error e, s')) : (x >>= f).outcome s = (.error e, s') := by
  rw [outcome_bind, h]

theorem exists_outcome_of_ok {x : Effect σ ε α} {s : σ} {a : α} (h : (x.outcome s).1 = .ok a) :
    ∃ s', x.outcome s = (.ok a, s') := by
  rcases hx : x.outcome s with ⟨result, s'⟩
  rw [hx] at h
  exact ⟨s', by rw [← h]⟩

/-! ### What is true afterwards, however a computation ends -/

/-- If a condition holds before, it holds afterwards, and a failure meets another one. -/
def Keeps (P : σ → Prop) (R : ε → Prop) (x : Effect σ ε α) : Prop :=
  ∀ s, P s → P (x.outcome s).2 ∧ ∀ e, (x.outcome s).1 = .error e → R e

variable {P : σ → Prop} {R : ε → Prop}

theorem Keeps.pure (a : α) : Keeps P R (pure a : Effect σ ε α) :=
  fun _ h => ⟨h, fun _ he => by cases he⟩

theorem Keeps.throw {e : ε} (he : R e) : Keeps P R (throw e : Effect σ ε α) :=
  fun _ h => ⟨h, fun e' he' => by cases he'; exact he⟩

theorem Keeps.get : Keeps P R (get : Effect σ ε σ) := fun _ h => ⟨h, fun _ he => by cases he⟩

/-- The rule for a computation that goes on with the result of another one. -/
theorem Keeps.bind {x : Effect σ ε α} {f : α → Effect σ ε β} (hx : Keeps P R x)
    (hf : ∀ a, Keeps P R (f a)) : Keeps P R (x >>= f) := by
  intro s hs
  have hs' := hx s hs
  rw [outcome_bind]
  rcases hr : x.outcome s with ⟨e | a, s'⟩
  · rw [hr] at hs'
    exact ⟨hs'.1, fun e' he' => by cases he'; exact hs'.2 e rfl⟩
  · rw [hr] at hs'
    exact hf a s' hs'.1

/-- The rule for a loop. -/
theorem Keeps.forM {l : List ι} {f : ι → Effect σ ε PUnit} (h : ∀ a ∈ l, Keeps P R (f a)) :
    Keeps P R (forM l f) := by
  induction l with
  | nil => exact Keeps.pure _
  | cons a l ih =>
    obtain ⟨ha, hl⟩ := List.forall_mem_cons.mp h
    exact Keeps.bind ha fun _ => ih hl

/-! ### Loops -/

/-- A loop whose turns succeed for good elements, and change nothing for others, gets as far as the
    elements are good. -/
theorem forM_outcome {Inv : List ι → σ → Prop} {Good : ι → Prop} {f : ι → Effect σ ε PUnit}
    {l : List ι}
    (hgood : ∀ done a s, a ∈ l → Inv done s → Good a →
      ∃ s', (f a).outcome s = (.ok ⟨⟩, s') ∧ Inv (done ++ [a]) s')
    (hbad : ∀ done a s, a ∈ l → Inv done s → ¬ Good a → ∃ e, (f a).outcome s = (.error e, s))
    {done : List ι} {s : σ} (h : Inv done s) :
    ∃ front s', Inv (done ++ front) s' ∧ (∀ a ∈ front, Good a) ∧
      ((front = l ∧ (forM l f).outcome s = (.ok ⟨⟩, s')) ∨
        ∃ bad back e, l = front ++ bad :: back ∧ ¬ Good bad ∧
          (forM l f).outcome s = (.error e, s')) := by
  induction l generalizing done s with
  | nil => exact ⟨[], s, by rwa [List.append_nil], by simp, .inl ⟨rfl, rfl⟩⟩
  | cons a l ih =>
    rw [List.forM_cons]
    by_cases ha : Good a
    · obtain ⟨t, hturn, ht⟩ := hgood done a s List.mem_cons_self h ha
      obtain ⟨front, s', hs', hfront, hend⟩ := ih
        (fun done b s hb => hgood done b s (List.mem_cons_of_mem _ hb))
        (fun done b s hb => hbad done b s (List.mem_cons_of_mem _ hb)) ht
      rw [List.append_assoc] at hs'
      refine ⟨a :: front, s', hs', List.forall_mem_cons.mpr ⟨ha, hfront⟩, ?_⟩
      rw [outcome_bind_of_ok hturn]
      rcases hend with ⟨rfl, hrun⟩ | ⟨bad, back, e, rfl, hbad, hrun⟩
      · exact .inl ⟨rfl, hrun⟩
      · exact .inr ⟨bad, back, e, rfl, hbad, hrun⟩
    · obtain ⟨e, hturn⟩ := hbad done a s List.mem_cons_self h ha
      refine ⟨[], s, by rwa [List.append_nil], by simp, .inr ⟨a, l, e, rfl, ha, ?_⟩⟩
      rw [outcome_bind_of_error hturn]

/-- A loop in a loop is a loop over the elements of all turns. -/
theorem forM_flatMap (l : List α) (g : α → List ι) (f : ι → Effect σ ε PUnit) :
    forM (l.flatMap g) f = forM l fun a => forM (g a) f := by
  induction l with
  | nil => rfl
  | cons a l ih =>
    rw [List.flatMap_cons, List.forM_cons, ← ih]
    exact List.forM_append

end Effect
