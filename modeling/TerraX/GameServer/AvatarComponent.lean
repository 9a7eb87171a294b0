import TerraX.Base.Observer
import TerraX.Lib.Run

/-!
# Level and experience of an avatar

Setting the experience raises the level by at most one, however much experience is set; what is
left can be worth another level. Each change is notified to the observers, the level before the
experience.

## Main definitions

- `AvatarComponent.setExp`, `AvatarComponent.setLevel`
- `AvatarCall`, `runAvatar` — runs of calls
- `Normalised` — the experience is worth no further level
- `AvatarCall.CarriesOnce` — a call that keeps that
- `Copies.overwrite` — an observer with copies of level and experience
- `AvatarCall.Added` — the calls leave an observer registered

## Main results

- `normalised_iff` — the runs in which the experience is normalised throughout
- `avatar_consistent` — bounds, conservation, and what the observers see, in every run
-/

namespace TerraX

/-- `LEVEL_UP_EXP`. -/
def levelUpExp : ℤ := 1000

/-- `LEVEL_MAX`. -/
def levelMax : ℤ := 100

/-- `DataType_t`. -/
inductive DataType
  | avatarExp
  | avatarLevel
deriving DecidableEq, Repr

/-- The arguments of `IObserver::OnUpdate`: what changed, its new value, and whose it is. -/
structure AvatarUpdate where
  dataType : DataType
  value : ℤ
  target : ℕ
deriving DecidableEq, Repr

/-- `AvatarComponent`, with the monitor and the item of its `AvatarDB`. -/
structure AvatarComponent (κ : Type) where
  monitor : Subject κ
  exp : ℤ := 0
  level : ℤ := 0
  avatar : ℕ
deriving DecidableEq

namespace AvatarComponent

variable {κ : Type} [LinearOrder κ]

/-- `AvatarItem::SetExp`, with the calls of the observers. -/
def itemSetExp (c : AvatarComponent κ) (nExp : ℤ) : AvatarComponent κ × List (κ × AvatarUpdate) :=
  ({ c with exp := nExp }, c.monitor.notify ⟨.avatarExp, nExp, c.avatar⟩)

/-- `AvatarItem::SetLevel`, with the calls of the observers. -/
def itemSetLevel (c : AvatarComponent κ) (nLevel : ℤ) :
    AvatarComponent κ × List (κ × AvatarUpdate) :=
  ({ c with level := nLevel }, c.monitor.notify ⟨.avatarLevel, nLevel, c.avatar⟩)

/-- `AvatarComponent::SetExp`. -/
def setExp (c : AvatarComponent κ) (nExp : ℤ) : AvatarComponent κ × List (κ × AvatarUpdate) :=
  if levelUpExp ≤ nExp then
    let nLevel := c.level
    if levelMax ≤ nLevel + 1 then c.itemSetExp levelUpExp
    else
      let (c, updates) := c.itemSetLevel (nLevel + 1)
      let (c, updates') := c.itemSetExp (nExp - levelUpExp)
      (c, updates ++ updates')
  else c.itemSetExp nExp

/-- `AvatarComponent::SetLevel`. -/
def setLevel (c : AvatarComponent κ) (nLevel : ℤ) : AvatarComponent κ × List (κ × AvatarUpdate) :=
  if nLevel ≤ 0 ∨ levelMax ≤ nLevel then (c, []) else c.itemSetLevel nLevel

end AvatarComponent

/-- A call to the component or to its monitor. -/
inductive AvatarCall (κ : Type)
  | setExp (nExp : ℤ)
  | setLevel (nLevel : ℤ)
  | addObserver (observer : κ)
  | removeObserver (observer : κ)
deriving DecidableEq, Repr

section

variable {κ : Type} [LinearOrder κ]

/-- A call, with the calls of the observers. -/
def AvatarCall.apply (c : AvatarComponent κ) :
    AvatarCall κ → AvatarComponent κ × List (κ × AvatarUpdate)
  | setExp nExp => c.setExp nExp
  | setLevel nLevel => c.setLevel nLevel
  | addObserver observer => ({ c with monitor := c.monitor.addObserver observer }, [])
  | removeObserver observer => ({ c with monitor := c.monitor.removeObserver observer }, [])

/-- The component after a run. -/
def runAvatar (c : AvatarComponent κ) (calls : List (AvatarCall κ)) : AvatarComponent κ :=
  calls.foldl (fun c call => (call.apply c).1) c

/-- All calls of the observers in a run. -/
def avatarUpdates (c : AvatarComponent κ) : List (AvatarCall κ) → List (κ × AvatarUpdate)
  | [] => []
  | call :: calls => (call.apply c).2 ++ avatarUpdates (call.apply c).1 calls

/-! ### The experience after a call -/

namespace AvatarComponent

variable (c : AvatarComponent κ)

/-- The experience is worth no further level. -/
def Normalised : Prop :=
  (c.level < levelMax - 1 → c.exp < levelUpExp) ∧ (c.level = levelMax - 1 → c.exp ≤ levelUpExp)

instance : Decidable c.Normalised := by
  unfold Normalised
  infer_instance

/-- What is set is worth less than a level. -/
theorem setExp_low {nExp : ℤ} (h : nExp < levelUpExp) : c.setExp nExp = c.itemSetExp nExp := by
  rw [setExp, if_neg (by omega)]

/-- At the highest level the experience is cut. -/
theorem setExp_top {nExp : ℤ} (h : levelUpExp ≤ nExp) (htop : levelMax ≤ c.level + 1) :
    c.setExp nExp = c.itemSetExp levelUpExp := by
  rw [setExp, if_pos h, if_pos htop]

/-- One level is taken from the experience, not more. -/
theorem setExp_up {nExp : ℤ} (h : levelUpExp ≤ nExp) (hroom : c.level + 1 < levelMax) :
    c.setExp nExp =
      ({ c with level := c.level + 1, exp := nExp - levelUpExp },
        c.monitor.notify ⟨.avatarLevel, c.level + 1, c.avatar⟩ ++
          c.monitor.notify ⟨.avatarExp, nExp - levelUpExp, c.avatar⟩) := by
  rw [setExp, if_pos h, if_neg (by omega)]
  rfl

theorem setLevel_rejected {nLevel : ℤ} (h : nLevel ≤ 0 ∨ levelMax ≤ nLevel) :
    c.setLevel nLevel = (c, []) := if_pos h

theorem setLevel_accepted {nLevel : ℤ} (h : ¬ (nLevel ≤ 0 ∨ levelMax ≤ nLevel)) :
    c.setLevel nLevel = c.itemSetLevel nLevel := if_neg h

/-- The levels that `SetLevel` accepts, with the one to start at. -/
def Bounded : Prop := 0 ≤ c.level ∧ c.level ≤ levelMax - 1

end AvatarComponent

open AvatarComponent

/-- The call carries at most one level over, and leaves no experience worth a further one. -/
def AvatarCall.CarriesOnce (c : AvatarComponent κ) : AvatarCall κ → Prop
  | setExp nExp =>
    c.level = levelMax - 1 ∨ nExp < 2 * levelUpExp ∨
      c.level = levelMax - 2 ∧ nExp = 2 * levelUpExp
  | setLevel nLevel => nLevel ≤ 0 ∨ levelMax - 1 ≤ nLevel ∨ c.exp < levelUpExp
  | addObserver _ | removeObserver _ => True

theorem AvatarComponent.Bounded.apply {c : AvatarComponent κ} (h : c.Bounded)
    (call : AvatarCall κ) : (call.apply c).1.Bounded := by
  obtain ⟨hlow, hhigh⟩ := h
  cases call with
  | setExp nExp =>
    rw [AvatarCall.apply]
    by_cases hn : nExp < levelUpExp
    · rw [c.setExp_low hn]
      exact ⟨hlow, hhigh⟩
    · by_cases htop : levelMax ≤ c.level + 1
      · rw [c.setExp_top (by omega) htop]
        exact ⟨hlow, hhigh⟩
      · rw [c.setExp_up (by omega) (by omega)]
        constructor <;> simp only <;> omega
  | setLevel nLevel =>
    rw [AvatarCall.apply]
    by_cases hrejected : nLevel ≤ 0 ∨ levelMax ≤ nLevel
    · rw [c.setLevel_rejected hrejected]
      exact ⟨hlow, hhigh⟩
    · rw [c.setLevel_accepted hrejected, itemSetLevel]
      constructor <;> simp only <;> omega
  | addObserver => exact ⟨hlow, hhigh⟩
  | removeObserver => exact ⟨hlow, hhigh⟩

theorem AvatarComponent.Bounded.run {c : AvatarComponent κ} (h : c.Bounded)
    (calls : List (AvatarCall κ)) : (runAvatar c calls).Bounded := by
  induction calls generalizing c with
  | nil => exact h
  | cons call calls ih => exact ih (h.apply call)

/-- A call keeps the experience normalised exactly if it carries at most once. -/
theorem normalised_apply_iff {c : AvatarComponent κ} (hbounded : c.Bounded) (h : c.Normalised)
    (call : AvatarCall κ) : (call.apply c).1.Normalised ↔ call.CarriesOnce c := by
  obtain ⟨hlow, hhigh⟩ := hbounded
  obtain ⟨hbelow, htop⟩ := h
  have hmax : levelMax = 100 := rfl
  have hup : levelUpExp = 1000 := rfl
  cases call with
  | setExp nExp =>
    rw [AvatarCall.apply, AvatarCall.CarriesOnce]
    by_cases hn : nExp < levelUpExp
    · rw [c.setExp_low hn, itemSetExp, Normalised]
      dsimp only
      omega
    · by_cases hroom : levelMax ≤ c.level + 1
      · rw [c.setExp_top (by omega) hroom, itemSetExp, Normalised]
        dsimp only
        omega
      · rw [c.setExp_up (by omega) (by omega), Normalised]
        dsimp only
        omega
  | setLevel nLevel =>
    rw [AvatarCall.apply, AvatarCall.CarriesOnce]
    by_cases hrejected : nLevel ≤ 0 ∨ levelMax ≤ nLevel
    · rw [c.setLevel_rejected hrejected, Normalised]
      dsimp only
      omega
    · rw [c.setLevel_accepted hrejected, itemSetLevel, Normalised]
      dsimp only
      omega
  | addObserver => exact iff_of_true ⟨hbelow, htop⟩ trivial
  | removeObserver => exact iff_of_true ⟨hbelow, htop⟩ trivial

/-- A component at level and experience 0. -/
def AvatarComponent.new (monitor : Subject κ) (avatar : ℕ) : AvatarComponent κ :=
  { monitor, avatar }

/-- From level and experience 0, the experience is normalised in every state of a run exactly if
every call carries at most once. -/
theorem normalised_iff (monitor : Subject κ) (avatar : ℕ) (calls : List (AvatarCall κ)) :
    (∀ pre, pre <+: calls → (runAvatar (.new monitor avatar) pre).Normalised) ↔
      ∀ pre call, pre ++ [call] <+: calls →
        call.CarriesOnce (runAvatar (.new monitor avatar) pre) := by
  have hbounded : (AvatarComponent.new monitor avatar).Bounded := by
    constructor <;> simp [AvatarComponent.new, levelMax]
  have hnormalised : (AvatarComponent.new monitor avatar).Normalised := by
    constructor <;> simp [AvatarComponent.new, levelUpExp]
  have hstep : ∀ (c : AvatarComponent κ) (call : AvatarCall κ), c.Bounded ∧ c.Normalised →
      ((call.apply c).1.Bounded ∧ (call.apply c).1.Normalised ↔ call.CarriesOnce c) := by
    rintro c call ⟨hb, hn⟩
    rw [and_iff_right (hb.apply call), normalised_apply_iff hb hn call]
  have hruns := Run.foldl_prefixes_iff hstep ⟨hbounded, hnormalised⟩ calls
  refine Iff.trans ?_ hruns
  exact forall₂_congr fun pre _ => (and_iff_right (hbounded.run pre)).symm

/-- Experience worth two levels is set at level 0: one level is left in it. -/
theorem carried_twice :
    ¬ (runAvatar (.new ⟨∅⟩ 0) [AvatarCall.setExp (κ := ℕ) 2500]).Normalised := by
  decide

/-! ### What the observers see -/

/-- An observer's copies of level and experience. -/
structure Copies where
  level : ℤ
  exp : ℤ
deriving DecidableEq, Repr

namespace Copies

/-- The copy of what a notification names takes its value. -/
def overwrite (copies : Copies) (update : AvatarUpdate) : Copies :=
  match update.dataType with
  | .avatarLevel => { copies with level := update.value }
  | .avatarExp => { copies with exp := update.value }

/-- Copies that are equal to the component's level and experience. -/
def ofComponent (c : AvatarComponent κ) : Copies := ⟨c.level, c.exp⟩

/-- A registered observer's copies follow a call. -/
theorem overwrite_apply {c : AvatarComponent κ} {o : κ} (ho : o ∈ c.monitor.setObservers)
    (call : AvatarCall κ) :
    (received o (call.apply c).2).foldl overwrite (ofComponent c) =
      ofComponent (call.apply c).1 := by
  cases call with
  | setExp nExp =>
    rw [AvatarCall.apply]
    by_cases hn : nExp < levelUpExp
    · rw [c.setExp_low hn, itemSetExp, received_notify, if_pos ho]
      rfl
    · by_cases htop : levelMax ≤ c.level + 1
      · rw [c.setExp_top (by omega) htop, itemSetExp, received_notify, if_pos ho]
        rfl
      · rw [c.setExp_up (by omega) (by omega), received_append, received_notify, received_notify,
          if_pos ho, if_pos ho]
        rfl
  | setLevel nLevel =>
    rw [AvatarCall.apply]
    by_cases hrejected : nLevel ≤ 0 ∨ levelMax ≤ nLevel
    · rw [c.setLevel_rejected hrejected]
      rfl
    · rw [c.setLevel_accepted hrejected, itemSetLevel, received_notify, if_pos ho]
      rfl
  | addObserver => rfl
  | removeObserver => rfl

end Copies

/-- An observer stays registered until it is removed. -/
theorem mem_observers_apply {c : AvatarComponent κ} {o : κ} (ho : o ∈ c.monitor.setObservers)
    {call : AvatarCall κ} (hcall : call ≠ .removeObserver o) :
    o ∈ (call.apply c).1.monitor.setObservers := by
  cases call with
  | setExp nExp =>
    rw [AvatarCall.apply, setExp]
    split
    · dsimp only
      split <;> exact ho
    · exact ho
  | setLevel nLevel =>
    rw [AvatarCall.apply, setLevel]
    split <;> exact ho
  | addObserver o' => exact Subject.mem_addObserver.mpr (.inr ho)
  | removeObserver o' =>
    refine Subject.mem_removeObserver.mpr ⟨?_, ho⟩
    rintro rfl
    exact hcall rfl

/-- A registered observer's copies follow a run that does not remove it. -/
theorem Copies.overwrite_run {c : AvatarComponent κ} {o : κ} (ho : o ∈ c.monitor.setObservers)
    {calls : List (AvatarCall κ)} (hcalls : .removeObserver o ∉ calls) :
    (received o (avatarUpdates c calls)).foldl overwrite (ofComponent c) =
      ofComponent (runAvatar c calls) := by
  induction calls generalizing c with
  | nil => rfl
  | cons call calls ih =>
    rw [List.mem_cons, not_or] at hcalls
    rw [avatarUpdates, received_append, List.foldl_append, overwrite_apply ho]
    exact ih (mem_observers_apply ho (Ne.symm hcalls.1)) hcalls.2

/-- The observer is added by these calls, and not removed after that. -/
def AvatarCall.Added (o : κ) (calls : List (AvatarCall κ)) : Prop :=
  ∃ before after, calls = before ++ .addObserver o :: after ∧ .removeObserver o ∉ after

theorem runAvatar_append (c : AvatarComponent κ) (calls calls' : List (AvatarCall κ)) :
    runAvatar c (calls ++ calls') = runAvatar (runAvatar c calls) calls' := List.foldl_append

/-- It is still registered after a run that does not remove it. -/
theorem mem_observers_run {c : AvatarComponent κ} {o : κ} (ho : o ∈ c.monitor.setObservers)
    {calls : List (AvatarCall κ)} (hcalls : .removeObserver o ∉ calls) :
    o ∈ (runAvatar c calls).monitor.setObservers := by
  induction calls generalizing c with
  | nil => exact ho
  | cons call calls ih =>
    rw [List.mem_cons, not_or] at hcalls
    exact ih (mem_observers_apply ho (Ne.symm hcalls.1)) hcalls.2

theorem AvatarCall.Added.mem {o : κ} {calls : List (AvatarCall κ)} (h : Added o calls)
    (c : AvatarComponent κ) : o ∈ (runAvatar c calls).monitor.setObservers := by
  obtain ⟨before, after, rfl, hafter⟩ := h
  rw [runAvatar_append]
  exact mem_observers_run (c := ((AvatarCall.addObserver o).apply (runAvatar c before)).1)
    (Subject.mem_addObserver.mpr (.inl rfl)) hafter

/-- Level and experience are consistent, now and for the observers that stay registered. -/
structure AvatarComponent.Consistent (c : AvatarComponent κ) : Prop where
  bounded : 0 ≤ c.level ∧ c.level ≤ levelMax - 1
  raises : ∀ nExp, (c.setExp nExp).1.level = c.level ∨ (c.setExp nExp).1.level = c.level + 1
  conserves : ∀ nExp, ¬ (levelUpExp ≤ nExp ∧ c.level = levelMax - 1) →
    levelUpExp * (c.setExp nExp).1.level + (c.setExp nExp).1.exp = levelUpExp * c.level + nExp
  cuts : ∀ nExp, levelUpExp ≤ nExp → c.level = levelMax - 1 →
    (c.setExp nExp).1.exp = levelUpExp ∧ (c.setExp nExp).1.level = c.level
  rejects : ∀ nLevel, nLevel ≤ 0 ∨ levelMax ≤ nLevel → c.setLevel nLevel = (c, [])
  mirrors : ∀ o ∈ c.monitor.setObservers, ∀ calls, .removeObserver o ∉ calls →
    (received o (avatarUpdates c calls)).foldl Copies.overwrite ⟨c.level, c.exp⟩ =
      ⟨(runAvatar c calls).level, (runAvatar c calls).exp⟩

theorem AvatarComponent.Bounded.consistent {c : AvatarComponent κ} (h : c.Bounded) :
    c.Consistent where
  bounded := h
  raises nExp := by
    by_cases hn : nExp < levelUpExp
    · rw [c.setExp_low hn]
      exact .inl rfl
    · by_cases htop : levelMax ≤ c.level + 1
      · rw [c.setExp_top (by omega) htop]
        exact .inl rfl
      · rw [c.setExp_up (by omega) (by omega)]
        exact .inr rfl
  conserves nExp hnExp := by
    obtain ⟨-, hhigh⟩ := h
    by_cases hn : nExp < levelUpExp
    · rw [c.setExp_low hn]
      rfl
    · rw [c.setExp_up (by omega) (by omega)]
      dsimp only
      rw [Int.mul_add, Int.mul_one]
      omega
  cuts nExp hn htop := by
    rw [c.setExp_top hn (by omega)]
    exact ⟨rfl, rfl⟩
  rejects nLevel hrejected := c.setLevel_rejected hrejected
  mirrors _ ho _ hcalls := Copies.overwrite_run ho hcalls

/-- From level 0 every run keeps level and experience consistent, and an observer that a part of the
run adds, and the rest does not remove, has copies that are equal to them again. -/
theorem avatar_consistent {c : AvatarComponent κ} (hlevel : c.level = 0)
    (calls : List (AvatarCall κ)) :
    (runAvatar c calls).Consistent ∧
      ∀ o before after, calls = before ++ after → AvatarCall.Added o before →
        .removeObserver o ∉ after →
          (received o (avatarUpdates (runAvatar c before) after)).foldl Copies.overwrite
              ⟨(runAvatar c before).level, (runAvatar c before).exp⟩ =
            ⟨(runAvatar c calls).level, (runAvatar c calls).exp⟩ := by
  have hbounded : c.Bounded := by
    rw [Bounded, hlevel]
    decide
  refine ⟨(hbounded.run calls).consistent, ?_⟩
  rintro o before after rfl hadded hafter
  rw [runAvatar_append]
  exact Copies.overwrite_run (hadded.mem c) hafter

/-- An observer is added twice, and called once for each change of a level-up. -/
theorem avatar_consistent_observed :
    (runAvatar (.new ⟨∅⟩ 0) [.addObserver 3, .addObserver 3, AvatarCall.setExp 1200]).Consistent ∧
      received 3 (avatarUpdates (runAvatar (.new ⟨∅⟩ 0) [.addObserver 3, .addObserver 3])
        [AvatarCall.setExp 1200]) = [⟨.avatarLevel, 1, 0⟩, ⟨.avatarExp, 200, 0⟩] ∧
      [⟨.avatarLevel, 1, 0⟩, ⟨.avatarExp, 200, 0⟩].foldl Copies.overwrite ⟨0, 0⟩ =
        (⟨(runAvatar (.new ⟨∅⟩ 0) [.addObserver 3, .addObserver 3, AvatarCall.setExp 1200]).level,
          (runAvatar (.new ⟨∅⟩ 0)
            [.addObserver 3, .addObserver 3, AvatarCall.setExp 1200]).exp⟩ : Copies) := by
  obtain ⟨hconsistent, hcopies⟩ := avatar_consistent (c := .new (⟨∅⟩ : Subject ℕ) 0) rfl
    [.addObserver 3, .addObserver 3, .setExp 1200]
  have hadded : AvatarCall.Added 3 [.addObserver 3, .addObserver 3] :=
    ⟨[.addObserver 3], [], rfl, List.not_mem_nil⟩
  have hmem := hadded.mem (.new ⟨∅⟩ 0)
  have hreceived : received 3 (avatarUpdates (runAvatar (.new ⟨∅⟩ 0) [.addObserver 3, .addObserver 3])
      [AvatarCall.setExp 1200]) = [⟨.avatarLevel, 1, 0⟩, ⟨.avatarExp, 200, 0⟩] := by
    rw [avatarUpdates, avatarUpdates, List.append_nil, AvatarCall.apply,
      setExp_up _ (by decide) (by decide), received_append, received_notify, received_notify,
      if_pos hmem, if_pos hmem]
    rfl
  have hsame := hcopies 3 [.addObserver 3, .addObserver 3] [.setExp 1200] rfl hadded (by decide)
  rw [hreceived] at hsame
  exact ⟨hconsistent, hreceived, hsame⟩

end

end TerraX
