import Mathlib.Data.List.Induction

/-!
# Runs of a fallible system

A run feeds events one by one to a step function that may fail. What every step
preserves holds wherever a run returns (`Run.foldlM_preserves`); where in addition
no step fails, every run returns (`Run.foldlM_invariant`, `Run.System.invariant`). The
invariant may speak about the events so far. Where the states represent those of a simpler
system, runs follow its runs (`Run.foldlM_represents`). A field that the events write keeps what
was written last (`Run.foldl_lastWritten`).

## Main definitions

- `Run.System` — a system whose events are enabled in some states only
- `Run.System.Runs` — what a run of a system ends in, a state or a failure
- `Run.System.restrict` — the system whose events meet a condition when they happen
-/

namespace Run

variable {σ ι ε : Type*}

theorem foldlM_concat {σ ι ε : Type} (step : σ → ι → Except ε σ) (s : σ) (ls : List ι) (l : ι) :
    (ls ++ [l]).foldlM step s = (ls.foldlM step s >>= fun s' => step s' l) := by
  rw [List.foldlM_append]
  congr 1
  funext s'
  exact bind_pure (step s' l)

/-- The invariant rule for a step function that takes the events that meet a condition. -/
theorem foldlM_invariant_of {σ ι ε : Type} {step : σ → ι → Except ε σ} {Inv : List ι → σ → Prop}
    {P : ι → Prop} {s : σ} (hinit : Inv [] s)
    (hstep : ∀ ls s l, P l → Inv ls s → ∃ s', step s l = .ok s' ∧ Inv (ls ++ [l]) s') {ls : List ι}
    (hls : ∀ l ∈ ls, P l) : ∃ s', ls.foldlM step s = .ok s' ∧ Inv ls s' := by
  induction ls using List.reverseRecOn with
  | nil => exact ⟨s, rfl, hinit⟩
  | append_singleton ls l ih =>
    obtain ⟨t, ht, hinv⟩ := ih fun l' hl' => hls l' (List.mem_append_left _ hl')
    obtain ⟨t', ht', hinv'⟩ := hstep ls t l (hls l (by simp)) hinv
    refine ⟨t', ?_, hinv'⟩
    rw [foldlM_concat, ht]
    exact ht'

/-- The invariant rule for a step function that takes every event. -/
theorem foldlM_invariant {σ ι ε : Type} {step : σ → ι → Except ε σ} {Inv : List ι → σ → Prop}
    {s : σ} (hinit : Inv [] s)
    (hstep : ∀ ls s l, Inv ls s → ∃ s', step s l = .ok s' ∧ Inv (ls ++ [l]) s') (ls : List ι) :
    ∃ s', ls.foldlM step s = .ok s' ∧ Inv ls s' :=
  foldlM_invariant_of hinit (fun ls s l (_ : True) => hstep ls s l) fun _ _ => trivial

/-- A run on states that represent others follows a run on these. -/
theorem foldlM_represents {σ τ ι ε : Type} {step : σ → ι → Except ε σ} {next : τ → ι → τ} {rep : τ → σ}
    {ls : List ι} (h : ∀ l ∈ ls, ∀ t, step (rep t) l = .ok (rep (next t l))) (t : τ) :
    ls.foldlM step (rep t) = .ok (rep (ls.foldl next t)) := by
  induction ls generalizing t with
  | nil => rfl
  | cons l ls ih =>
    rw [List.foldlM_cons, h l List.mem_cons_self]
    exact ih (fun l' hl' => h l' (List.mem_cons_of_mem _ hl')) (next t l)

/-- If a state with `P` keeps it exactly by the steps with `Q`, then all states of a run have `P`
exactly if all its steps have `Q`. -/
theorem foldl_prefixes_iff {next : σ → ι → σ} {P : σ → Prop} {Q : σ → ι → Prop}
    (hstep : ∀ s l, P s → (P (next s l) ↔ Q s l)) {s : σ} (hinit : P s) (ls : List ι) :
    (∀ pre, pre <+: ls → P (pre.foldl next s)) ↔
      ∀ pre l, pre ++ [l] <+: ls → Q (pre.foldl next s) l := by
  induction ls generalizing s with
  | nil => simp [hinit]
  | cons l ls ih =>
    constructor
    · intro h
      have hnext : P (next s l) := h [l] (by simp)
      have hrest := (ih hnext).mp fun pre hpre => h (l :: pre) (by simpa using hpre)
      rintro (- | ⟨l', pre⟩) l'' hpre
      · obtain ⟨rfl, -⟩ := List.cons_prefix_cons.mp hpre
        exact (hstep s _ hinit).mp hnext
      · obtain ⟨rfl, hpre'⟩ := List.cons_prefix_cons.mp hpre
        exact hrest pre l'' hpre'
    · intro h
      have hnext : P (next s l) := (hstep s l hinit).mpr (h [] l (by simp))
      have hrest := (ih hnext).mpr fun pre l' hpre => h (l :: pre) l' (by simpa using hpre)
      rintro (- | ⟨l', pre⟩) hpre
      · exact hinit
      · obtain ⟨rfl, hpre'⟩ := List.cons_prefix_cons.mp hpre
        exact hrest pre hpre'

/-- What every step preserves holds wherever a run returns. -/
theorem foldlM_preserves {σ ι ε : Type} {step : σ → ι → Except ε σ} {Inv : List ι → σ → Prop}
    {s : σ} (hinit : Inv [] s)
    (hstep : ∀ ls s l s', Inv ls s → step s l = .ok s' → Inv (ls ++ [l]) s') {ls : List ι} {s' : σ}
    (h : ls.foldlM step s = .ok s') : Inv ls s' := by
  induction ls using List.reverseRecOn generalizing s' with
  | nil =>
    cases h
    exact hinit
  | append_singleton ls l ih =>
    rw [foldlM_concat] at h
    cases hrun : ls.foldlM step s with
    | error e =>
      rw [hrun] at h
      cases h
    | ok t =>
      rw [hrun] at h
      exact hstep ls t l s' (ih hrun) h

/-- What the last of the events wrote that write at all, or else what was there before. -/
def lastWritten {ι α : Type*} (written : ι → Option α) (before : α) (ls : List ι) : α :=
  (ls.filterMap written).getLast?.getD before

theorem lastWritten_concat {α : Type*} (written : ι → Option α) (before : α) (ls : List ι) (l : ι) :
    lastWritten written before (ls ++ [l]) = (written l).getD (lastWritten written before ls) := by
  rw [lastWritten, lastWritten, List.filterMap_append]
  cases hwritten : written l with
  | none => simp [hwritten]
  | some a => simp [hwritten]

theorem lastWritten_of_forall_none {α : Type*} {written : ι → Option α} (before : α) {ls : List ι}
    (h : ∀ l ∈ ls, written l = none) : lastWritten written before ls = before := by
  rw [lastWritten, List.filterMap_eq_nil_iff.mpr h]
  rfl

/-- What was written last was there before, or was written by one of the events. -/
theorem lastWritten_cases {α : Type*} (written : ι → Option α) (before : α) (ls : List ι) :
    lastWritten written before ls = before ∨
      ∃ l ∈ ls, written l = some (lastWritten written before ls) := by
  cases hlast : (ls.filterMap written).getLast? with
  | none =>
    rw [lastWritten, hlast]
    exact .inl rfl
  | some a =>
    rw [lastWritten, hlast]
    exact .inr (List.mem_filterMap.mp (List.mem_of_getLast? hlast))

/-- If some of the events write, and all of those the same, that is what was written last. -/
theorem lastWritten_eq_of_forall {α : Type*} {written : ι → Option α} (before : α) {a : α}
    {ls : List ι} {l : ι} (hl : l ∈ ls) (hwritten : written l ≠ none)
    (h : ∀ l ∈ ls, ∀ b, written l = some b → b = a) : lastWritten written before ls = a := by
  obtain ⟨b, hb⟩ := Option.ne_none_iff_exists'.mp hwritten
  have hmem : b ∈ ls.filterMap written := List.mem_filterMap.mpr ⟨l, hl, hb⟩
  cases hlast : (ls.filterMap written).getLast? with
  | none =>
    rw [List.getLast?_eq_none_iff.mp hlast] at hmem
    exact absurd hmem List.not_mem_nil
  | some c =>
    obtain ⟨l', hl', hc⟩ := List.mem_filterMap.mp (List.mem_of_getLast? hlast)
    rw [lastWritten, hlast]
    exact h l' hl' c hc

/-- If every step leaves in a field what its event writes there, or else what was there, then a run
leaves what was written last. -/
theorem foldl_lastWritten {α : Type*} {next : σ → ι → σ} {get : σ → α} {written : ι → Option α}
    (hstep : ∀ s l, get (next s l) = (written l).getD (get s)) (s : σ) (ls : List ι) :
    get (ls.foldl next s) = lastWritten written (get s) ls := by
  induction ls using List.reverseRecOn with
  | nil => rfl
  | append_singleton ls l ih =>
    rw [List.foldl_append, List.foldl_cons, List.foldl_nil, hstep, ih, lastWritten_concat]

/-- A system: where it starts, which events a state allows, and what they do. -/
structure System (σ ι ε : Type*) where
  init : σ
  enabled : σ → ι → Prop
  step : σ → ι → Except ε σ

/-- `S.Runs ls r`: the events `ls`, each allowed when it happens, end in `r`. -/
inductive System.Runs (S : System σ ι ε) : List ι → Except ε σ → Prop
  | nil : S.Runs [] (.ok S.init)
  | concat {ls s l} : S.Runs ls (.ok s) → S.enabled s l → S.Runs (ls ++ [l]) (S.step s l)

/-- A run goes on by a step that returns. -/
theorem System.Runs.next {S : System σ ι ε} {ls : List ι} {s s' : σ} (h : S.Runs ls (.ok s)) (l : ι)
    (henabled : S.enabled s l) (hstep : S.step s l = .ok s') :
    S.Runs (ls ++ [l]) (.ok s') :=
  hstep ▸ h.concat henabled

/-- The last step of a run that returns. -/
theorem System.Runs.last {S : System σ ι ε} {ls : List ι} {l : ι} {r : Except ε σ}
    (h : S.Runs (ls ++ [l]) r) : ∃ s, S.Runs ls (.ok s) ∧ S.enabled s l ∧ S.step s l = r := by
  generalize hall : ls ++ [l] = all at h
  cases h with
  | nil => simp at hall
  | concat hrun henabled =>
    obtain ⟨rfl, hl⟩ := List.append_inj' hall rfl
    cases hl
    exact ⟨_, hrun, henabled, rfl⟩

/-- The events of a run determine what it ends in. -/
theorem System.Runs.unique {S : System σ ι ε} {ls : List ι} {r r' : Except ε σ}
    (h : S.Runs ls r) (h' : S.Runs ls r') : r = r' := by
  induction h generalizing r' with
  | nil =>
    generalize hnil : ([] : List ι) = ls at h'
    cases h' with
    | nil => rfl
    | concat => simp at hnil
  | concat _ _ ih =>
    obtain ⟨t, hrun, -, rfl⟩ := h'.last
    cases ih hrun
    rfl

/-- A run that returns has returned before its last events, and they are a run from there on. -/
theorem System.Runs.split {S : System σ ι ε} {ls ls' : List ι} {s' : σ}
    (h : S.Runs (ls ++ ls') (.ok s')) :
    ∃ s, S.Runs ls (.ok s) ∧ { S with init := s }.Runs ls' (.ok s') := by
  induction ls' using List.reverseRecOn generalizing s' with
  | nil => exact ⟨s', (List.append_nil ls) ▸ h, .nil⟩
  | append_singleton ls' l ih =>
    rw [← List.append_assoc] at h
    obtain ⟨t, hrun, henabled, hstep⟩ := h.last
    obtain ⟨s, hs, hs'⟩ := ih hrun
    exact ⟨s, hs, hs'.next l henabled hstep⟩

/-- The invariant rule for a system: no run fails, and the invariant holds at its end. -/
theorem System.invariant {S : System σ ι ε} {Inv : List ι → σ → Prop} (hinit : Inv [] S.init)
    (hstep : ∀ ls s l, Inv ls s → S.enabled s l → ∃ s', S.step s l = .ok s' ∧ Inv (ls ++ [l]) s')
    {ls : List ι} {r : Except ε σ} (h : S.Runs ls r) : ∃ s, r = .ok s ∧ Inv ls s := by
  induction h with
  | nil => exact ⟨S.init, rfl, hinit⟩
  | @concat ls s l _ henabled ih =>
    obtain ⟨t, ht, hinv⟩ := ih
    cases ht
    exact hstep ls s l hinv henabled

/-- What every step that returns preserves holds wherever a run returns. -/
theorem System.preserves {S : System σ ι ε} {Inv : List ι → σ → Prop} (hinit : Inv [] S.init)
    (hstep : ∀ ls s l s', Inv ls s → S.enabled s l → S.step s l = .ok s' → Inv (ls ++ [l]) s')
    {ls : List ι} {s : σ} (h : S.Runs ls (.ok s)) : Inv ls s := by
  have hall : ∀ {ls : List ι} {r : Except ε σ}, S.Runs ls r → ∀ s, r = .ok s → Inv ls s := by
    intro ls r h
    induction h with
    | nil =>
      rintro s ⟨⟩
      exact hinit
    | concat _ henabled ih => exact fun s hs => hstep _ _ _ s (ih _ rfl) henabled hs
  exact hall h s rfl

/-- The system whose events meet a condition when they happen. -/
def System.restrict (S : System σ ι ε) (P : σ → ι → Prop) : System σ ι ε :=
  { S with enabled := fun s l => S.enabled s l ∧ P s l }

/-- The runs under a condition are runs. -/
theorem System.Runs.of_restrict {S : System σ ι ε} {P : σ → ι → Prop} {ls : List ι}
    {r : Except ε σ} (h : (S.restrict P).Runs ls r) : S.Runs ls r := by
  induction h with
  | nil => exact .nil
  | concat _ henabled ih => exact ih.concat henabled.1

end Run
