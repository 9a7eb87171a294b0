import TerraX.Lib.Memory

/-!
# The client's game states

`NextState` calls `Leave` of the state that it is asked for, not of the state that it leaves. Every
call after the construction so breaks the bracketing of `Enter` and `Leave`. What the states print,
read and send is left out; the requests that they make inside `Enter` are not.

## Main definitions

- `GameStateManager.nextState`, `GameStateManager.enter` — which call each other
- `ManagerCall`, `runManager` — runs of calls
- `GameStateManager.Bracketed` — each state is left before the next one is entered

## Main results

- `nextState_bracketed_iff` — the requests that keep the bracketing
- `bracketed_iff` — no call from outside keeps it
-/

namespace TerraX

open Memory

/-- `GameState_t`. The first and the last one name no state. -/
inductive GameState
  | unknownState
  | press2Start
  | loginForm
  | connecting2Login
  | accountLoggingin
  | connecting2Gate
  | accountCheckingPermission
  | accountSelectingAvatar
  | accountEnteringWorld
  | playerEnteringScene
  | gaming
  | count
deriving DecidableEq, Repr

namespace GameState

/-- `int(eGameState)`. -/
def toInt : GameState → ℤ
  | unknownState => -1
  | press2Start => 0
  | loginForm => 1
  | connecting2Login => 2
  | accountLoggingin => 3
  | connecting2Gate => 4
  | accountCheckingPermission => 5
  | accountSelectingAvatar => 6
  | accountEnteringWorld => 7
  | playerEnteringScene => 8
  | gaming => 9
  | count => 10

/-- How many requests the `Enter` of a state leads to. -/
def nested : GameState → ℕ
  | press2Start => 2
  | loginForm => 1
  | _ => 0

end GameState

/-- A call to a state. -/
inductive StateCall
  | enter (state : GameState)
  | leave (state : GameState)
deriving DecidableEq, Repr

/-- `GameStateManager`, with the calls to its states so far. -/
structure GameStateManager where
  curGameState : GameState := .press2Start
  trace : List StateCall := []
deriving DecidableEq, Repr

namespace GameStateManager

/-- `m_GameStates[int(eGameState)]->`, the call of a method, which only a state has. -/
def call (m : GameStateManager) (eGameState : GameState) (c : StateCall) :
    Except Fault GameStateManager :=
  if 0 ≤ eGameState.toInt ∧ eGameState.toInt < GameState.count.toInt then
    .ok { m with trace := m.trace ++ [c] }
  else .error (.outOfBounds eGameState.toInt 1)

mutual

/-- `GameStateManager::NextState`. -/
def nextState (m : GameStateManager) (eGameState : GameState) : Except Fault GameStateManager := do
  let m ← m.call eGameState (.leave eGameState)
  enter { m with curGameState := eGameState } eGameState
termination_by (eGameState.nested, 1)

/-- `GameState_*::Enter`. -/
def enter (m : GameStateManager) (state : GameState) : Except Fault GameStateManager := do
  let m ← m.call state (.enter state)
  match state with
  | .press2Start => nextState m .loginForm
  | .loginForm => nextState m .connecting2Gate
  | _ => .ok m
termination_by (state.nested, 0)
decreasing_by all_goals exact Prod.Lex.left _ _ (by decide)

end

/-- `GameStateManager::EnterDefaultState`. -/
def enterDefaultState (m : GameStateManager) : Except Fault GameStateManager := m.enter .press2Start

/-- `GameStateManager::OnMessage_PktRoleListAck`. -/
def onMessagePktRoleListAck (m : GameStateManager) : Except Fault GameStateManager :=
  m.nextState .accountSelectingAvatar

end GameStateManager

/-- A call from outside. -/
inductive ManagerCall
  | enterDefaultState
  | nextState (eGameState : GameState)
  | pktRoleListAck
deriving DecidableEq, Repr

/-- What a call does. -/
def ManagerCall.apply (m : GameStateManager) : ManagerCall → Except Fault GameStateManager
  | enterDefaultState => m.enterDefaultState
  | nextState eGameState => m.nextState eGameState
  | pktRoleListAck => m.onMessagePktRoleListAck

/-- A run on a new manager. -/
def runManager (calls : List ManagerCall) : Except Fault GameStateManager :=
  calls.foldlM ManagerCall.apply {}

namespace GameStateManager

/-- Each state is entered and left again. -/
def visits (left : List GameState) : List StateCall :=
  left.flatMap fun state => [.enter state, .leave state]

/-- Each state is left before the next one is entered, and the last one entered is the current one,
if there is one. -/
def Bracketed (m : GameStateManager) : Prop :=
  m.trace = [] ∨ ∃ left, m.trace = visits left ++ [.enter m.curGameState]

/-! ### One call -/

theorem call_eq_ok {m m' : GameStateManager} {state : GameState} {c : StateCall}
    (h : m.call state c = .ok m') : m' = { m with trace := m.trace ++ [c] } := by
  unfold call at h
  split at h
  · exact (Except.ok.inj h).symm
  · cases h

/-- What `Enter` requests is the state that comes after it. -/
def requested : GameState → Option GameState
  | .press2Start => some .loginForm
  | .loginForm => some .connecting2Gate
  | _ => none

theorem enter_eq_ok {m m' : GameStateManager} {state : GameState} (h : m.enter state = .ok m') :
    match requested state with
    | some next => nextState { m with trace := m.trace ++ [.enter state] } next = .ok m'
    | none => m' = { m with trace := m.trace ++ [.enter state] } := by
  rw [enter] at h
  obtain ⟨m₁, hcall, h⟩ := bind_eq_ok.mp h
  obtain rfl := call_eq_ok hcall
  cases state <;> first | exact h | exact (Except.ok.inj h).symm

theorem nextState_eq_ok {m m' : GameStateManager} {state : GameState}
    (h : m.nextState state = .ok m') :
    enter ⟨state, m.trace ++ [.leave state]⟩ state = .ok m' := by
  rw [nextState] at h
  obtain ⟨m₁, hcall, h⟩ := bind_eq_ok.mp h
  obtain rfl := call_eq_ok hcall
  exact h

theorem nested_requested {state next : GameState} (h : requested state = some next) :
    next.nested < state.nested := by
  cases state <;> cases h <;> decide

/-- A request leaves and enters the state that it asks for, and then does what that requests. -/
theorem nextState_grows {m m' : GameStateManager} {state : GameState}
    (h : m.nextState state = .ok m') :
    ∃ rest, m'.trace = m.trace ++ .leave state :: .enter state :: rest := by
  have henter := enter_eq_ok (nextState_eq_ok h)
  cases hnext : requested state with
  | none =>
    rw [hnext] at henter
    exact ⟨[], by simp [henter]⟩
  | some next =>
    rw [hnext] at henter
    obtain ⟨rest, hrest⟩ := nextState_grows henter
    exact ⟨.leave next :: .enter next :: rest, by simp [hrest]⟩
termination_by state.nested
decreasing_by exact nested_requested hnext

theorem nextState_quiet {m m' : GameStateManager} {state : GameState}
    (h : m.nextState state = .ok m') (hquiet : requested state = none) :
    m' = ⟨state, m.trace ++ [.leave state, .enter state]⟩ := by
  have henter := enter_eq_ok (nextState_eq_ok h)
  rw [hquiet] at henter
  simpa using henter

theorem enter_grows {m m' : GameStateManager} {state next : GameState}
    (h : m.enter state = .ok m') (hnext : requested state = some next) :
    ∃ rest, m'.trace = m.trace ++ .enter state :: .leave next :: rest := by
  have henter := enter_eq_ok h
  rw [hnext] at henter
  obtain ⟨rest, hrest⟩ := nextState_grows henter
  exact ⟨.enter next :: rest, by simp [hrest]⟩

/-! ### Bracketing -/

@[simp] theorem visits_cons (state : GameState) (left : List GameState) :
    visits (state :: left) = .enter state :: .leave state :: visits left := rfl

/-- In a bracketed trace the state that is left is the one that was entered. -/
theorem leave_eq_enter {left left' : List GameState} {cur cur' state : GameState}
    {rest : List StateCall}
    (h : visits left ++ .enter cur :: .leave state :: rest = visits left' ++ [.enter cur']) :
    state = cur := by
  induction left generalizing left' with
  | nil =>
    cases left' with
    | nil => simp [visits] at h
    | cons first left' =>
      obtain ⟨hcur, hstate, -⟩ := by simpa [visits] using h
      exact hstate.trans hcur.symm
  | cons first left ih =>
    cases left' with
    | nil => simp [visits] at h
    | cons first' left' =>
      simp only [visits_cons, List.cons_append, List.cons.injEq] at h
      exact ih h.2.2

theorem visits_concat (left : List GameState) (state : GameState) :
    visits left ++ [.enter state, .leave state] = visits (left ++ [state]) := by
  simp [visits]

/-- From a state that was entered, a request keeps the bracketing exactly if it asks for that state
and entering it requests nothing. -/
theorem nextState_bracketed_iff {m m' : GameStateManager} {left : List GameState}
    (hm : m.trace = visits left ++ [.enter m.curGameState]) {state : GameState}
    (h : m.nextState state = .ok m') :
    m'.Bracketed ↔ state = m.curGameState ∧ requested state = none := by
  constructor
  · intro hbracketed
    obtain ⟨rest, hgrows⟩ := nextState_grows h
    have htrace : m'.trace =
        visits left ++ .enter m.curGameState :: .leave state :: .enter state :: rest := by
      rw [hgrows, hm, List.append_assoc]
      rfl
    rcases hbracketed with hempty | ⟨left', hleft'⟩
    · rw [htrace] at hempty
      simp at hempty
    · have hcur : state = m.curGameState := leave_eq_enter (htrace.symm.trans hleft')
      refine ⟨hcur, ?_⟩
      by_contra hnot
      obtain ⟨next, hnext⟩ := Option.ne_none_iff_exists'.mp hnot
      obtain ⟨rest', hrest'⟩ := enter_grows (nextState_eq_ok h) hnext
      have htrace' : m'.trace =
          visits (left ++ [state]) ++ .enter state :: .leave next :: rest' := by
        rw [hrest', hm, ← hcur, ← visits_concat]
        simp
      have hsame : next = state := leave_eq_enter (htrace'.symm.trans hleft')
      have hlt := nested_requested hnext
      rw [hsame] at hlt
      exact lt_irrefl _ hlt
  · rintro ⟨rfl, hquiet⟩
    rw [nextState_quiet h hquiet]
    refine .inr ⟨left ++ [m.curGameState], ?_⟩
    rw [hm, ← visits_concat]
    simp

/-! ### Runs -/

theorem apply_grows {m m' : GameStateManager} {call : ManagerCall} (h : call.apply m = .ok m') :
    m.trace <+: m'.trace := by
  cases call with
  | enterDefaultState =>
    obtain ⟨rest, hrest⟩ := enter_grows h rfl
    exact ⟨_, hrest.symm⟩
  | nextState state =>
    obtain ⟨rest, hrest⟩ := nextState_grows h
    exact ⟨_, hrest.symm⟩
  | pktRoleListAck =>
    obtain ⟨rest, hrest⟩ := nextState_grows h
    exact ⟨_, hrest.symm⟩

theorem run_grows {m m' : GameStateManager} {calls : List ManagerCall}
    (h : calls.foldlM ManagerCall.apply m = .ok m') : m.trace <+: m'.trace := by
  induction calls generalizing m with
  | nil =>
    cases h
    exact List.prefix_rfl
  | cons call calls ih =>
    rw [List.foldlM_cons] at h
    obtain ⟨m₁, hcall, h⟩ := bind_eq_ok.mp h
    exact (apply_grows hcall).trans (ih h)

/-- The first call breaks the bracketing: it leaves a state that is not the current one. -/
theorem first_call {m : GameStateManager} {call : ManagerCall} (h : call.apply {} = .ok m) :
    [.enter .press2Start, .leave .loginForm] <+: m.trace ∨
      ∃ state, [.leave state] <+: m.trace := by
  cases call with
  | enterDefaultState =>
    obtain ⟨rest, hrest⟩ := enter_grows h rfl
    exact .inl ⟨rest, by simp [hrest]⟩
  | nextState state =>
    obtain ⟨rest, hrest⟩ := nextState_grows h
    exact .inr ⟨state, .enter state :: rest, by simp [hrest]⟩
  | pktRoleListAck =>
    obtain ⟨rest, hrest⟩ := nextState_grows h
    exact .inr ⟨.accountSelectingAvatar, .enter .accountSelectingAvatar :: rest, by simp [hrest]⟩

theorem not_bracketed_of_leave {m : GameStateManager} {state : GameState}
    (h : [.leave state] <+: m.trace) : ¬ m.Bracketed := by
  obtain ⟨rest, hrest⟩ := h
  rintro (hempty | ⟨left, hleft⟩)
  · rw [hempty] at hrest
    cases hrest
  · rw [hleft] at hrest
    cases left <;> cases hrest

theorem not_bracketed_of_default {m : GameStateManager}
    (h : [.enter .press2Start, .leave .loginForm] <+: m.trace) : ¬ m.Bracketed := by
  obtain ⟨rest, hrest⟩ := h
  rintro (hempty | ⟨left, hleft⟩)
  · rw [hempty] at hrest
    cases hrest
  · rw [hleft] at hrest
    cases leave_eq_enter (show visits [] ++ .enter .press2Start :: .leave .loginForm :: rest = _
      from hrest)

end GameStateManager

/-- A run leaves a bracketed trace exactly if nothing was called. -/
theorem bracketed_iff (calls : List ManagerCall) :
    (∃ m, runManager calls = .ok m ∧ m.Bracketed) ↔ calls = [] := by
  constructor
  · rintro ⟨m, hrun, hbracketed⟩
    cases calls with
    | nil => rfl
    | cons call calls =>
      rw [runManager, List.foldlM_cons] at hrun
      obtain ⟨m₁, hcall, hrest⟩ := bind_eq_ok.mp hrun
      have hgrows := GameStateManager.run_grows hrest
      rcases GameStateManager.first_call hcall with hstart | ⟨state, hstart⟩
      · exact absurd hbracketed (GameStateManager.not_bracketed_of_default (hstart.trans hgrows))
      · exact absurd hbracketed (GameStateManager.not_bracketed_of_leave (hstart.trans hgrows))
  · rintro rfl
    exact ⟨{}, rfl, .inl rfl⟩

/-- The client starts: the form is left before it is entered, and the default state never. -/
theorem start_not_bracketed :
    runManager [.enterDefaultState] = .ok ⟨.connecting2Gate,
      [.enter .press2Start, .leave .loginForm, .enter .loginForm, .leave .connecting2Gate,
        .enter .connecting2Gate]⟩ ∧
    ¬ ∃ m, runManager [.enterDefaultState] = .ok m ∧ m.Bracketed := by
  have hrun : runManager [.enterDefaultState] = .ok ⟨.connecting2Gate,
      [.enter .press2Start, .leave .loginForm, .enter .loginForm, .leave .connecting2Gate,
        .enter .connecting2Gate]⟩ := by
    simp [runManager, ManagerCall.apply, GameStateManager.enterDefaultState,
      GameStateManager.enter, GameStateManager.nextState, GameStateManager.call, GameState.toInt]
  refine ⟨hrun, ?_⟩
  rintro ⟨m, hm, hbracketed⟩
  obtain rfl := Except.ok.inj (hrun.symm.trans hm)
  exact GameStateManager.not_bracketed_of_default ⟨_, rfl⟩ hbracketed

end TerraX
