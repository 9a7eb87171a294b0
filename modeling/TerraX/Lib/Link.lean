import Mathlib.Data.List.Basic

/-!
# Links with messages in flight

A link has a receiver and the messages on the way to it, oldest first. What a run does to a
receiver is said of the state it will be in when all of them have arrived: the link
*settles* in a goal. Deliveries keep that, and a sender answers for what its messages add.

## Main definitions

- `Fifo.Link`, with `send` and `deliver`
- `Fifo.Link.Settles` — the receiver ends up in a goal, and no message makes it fail
- `Fifo.sentTo`, `Fifo.post` — messages with an address, put on the link of that address

## Main results

- `Fifo.Link.Settles.send`, `Fifo.Link.Settles.deliver` — what the two operations keep
-/

namespace Fifo

/-- A receiver and the messages on the way to it, oldest first. -/
structure Link (μ σ : Type) where
  pending : List μ
  receiver : σ

namespace Link

variable {μ σ ε : Type}

/-- The messages are sent behind those that are on the way. -/
def send (l : Link μ σ) (ms : List μ) : Link μ σ := ⟨l.pending ++ ms, l.receiver⟩

/-- The receiver takes the oldest message. -/
def deliver (receive : σ → μ → Except ε σ) (l : Link μ σ) : Except ε (Link μ σ) :=
  match l.pending with
  | [] => .ok l
  | m :: ms => do
    let receiver ← receive l.receiver m
    return ⟨ms, receiver⟩

/-- The receiver takes all that is on the way without failing, and is in the goal then. -/
def Settles (receive : σ → μ → Except ε σ) (goal : σ → Prop) (l : Link μ σ) : Prop :=
  ∃ r, l.pending.foldlM receive l.receiver = .ok r ∧ goal r

variable {receive : σ → μ → Except ε σ} {goal goal' : σ → Prop} {l : Link μ σ}

theorem deliver_cons {r r' : σ} {m : μ} (ms : List μ) (h : receive r m = .ok r') :
    (⟨m :: ms, r⟩ : Link μ σ).deliver receive = .ok ⟨ms, r'⟩ := by
  simp only [Link.deliver, h]
  rfl

/-- With nothing on the way, the receiver is in the goal. -/
theorem settles_nil_iff {r : σ} : Settles receive goal ⟨[], r⟩ ↔ goal r := by
  constructor
  · rintro ⟨r', hr, hgoal⟩
    cases hr
    exact hgoal
  · exact fun hgoal => ⟨r, rfl, hgoal⟩

/-- Messages that lead from one goal to another one move the goal of a link. -/
theorem Settles.send (h : l.Settles receive goal) {ms : List μ}
    (hms : ∀ r, goal r → ∃ r', ms.foldlM receive r = .ok r' ∧ goal' r') :
    (l.send ms).Settles receive goal' := by
  obtain ⟨r, hr, hgoal⟩ := h
  obtain ⟨r', hr', hgoal'⟩ := hms r hgoal
  refine ⟨r', ?_, hgoal'⟩
  rw [Link.send, List.foldlM_append, hr]
  exact hr'

/-- A delivery does not fail, and the goal stays. -/
theorem Settles.deliver (h : l.Settles receive goal) :
    ∃ l', l.deliver receive = .ok l' ∧ l'.Settles receive goal := by
  obtain ⟨pending, receiver⟩ := l
  obtain ⟨r, hr, hgoal⟩ := h
  cases pending with
  | nil => exact ⟨_, rfl, r, hr, hgoal⟩
  | cons m ms =>
    rw [List.foldlM_cons] at hr
    cases hm : receive receiver m with
    | error e =>
      rw [hm] at hr
      cases hr
    | ok r₁ =>
      rw [hm] at hr
      exact ⟨⟨ms, r₁⟩, deliver_cons ms hm, r, hr, hgoal⟩

end Link

/-! ### Messages with an address -/

section Addresses

variable {κ μ σ : Type} [DecidableEq κ]

/-- The messages for one address. -/
def sentTo (k : κ) (sent : List (κ × μ)) : List μ :=
  sent.filterMap fun s => if s.1 = k then some s.2 else none

/-- Every message is put on the link of its address, if there is one. -/
def post (links : κ → Option (Link μ σ)) (sent : List (κ × μ)) : κ → Option (Link μ σ) :=
  fun k => (links k).map fun l => l.send (sentTo k sent)

theorem mem_sentTo {k : κ} {m : μ} {sent : List (κ × μ)} : m ∈ sentTo k sent ↔ (k, m) ∈ sent := by
  rw [sentTo, List.mem_filterMap]
  constructor
  · rintro ⟨⟨k', m'⟩, hmem, heq⟩
    split at heq
    · next hk =>
      cases heq
      exact hk ▸ hmem
    · cases heq
  · exact fun hmem => ⟨(k, m), hmem, if_pos rfl⟩

@[simp] theorem sentTo_append (k : κ) (sent more : List (κ × μ)) :
    sentTo k (sent ++ more) = sentTo k sent ++ sentTo k more := List.filterMap_append

theorem sentTo_eq_map_filter (k : κ) (sent : List (κ × μ)) :
    sentTo k sent = (sent.filter fun s => s.1 = k).map Prod.snd := by
  induction sent with
  | nil => rfl
  | cons s sent ih =>
    by_cases hk : s.1 = k
    · simpa [sentTo, hk] using ih
    · simpa [sentTo, hk] using ih

theorem sentTo_cons (k : κ) (s : κ × μ) (sent : List (κ × μ)) :
    sentTo k (s :: sent) = (if s.1 = k then [s.2] else []) ++ sentTo k sent := by
  by_cases hk : s.1 = k <;> simp [sentTo, hk]

/-- A message for each of several addresses is one message for each of them. -/
theorem sentTo_broadcast (k : κ) (m : μ) {ks : List κ} (hnodup : ks.Nodup) :
    sentTo k (ks.map fun k' => (k', m)) = if k ∈ ks then [m] else [] := by
  induction ks with
  | nil => rfl
  | cons k' ks ih =>
    obtain ⟨hnew, hrest⟩ := List.nodup_cons.mp hnodup
    rw [List.map_cons, sentTo_cons, ih hrest]
    by_cases hk : k' = k
    · subst hk
      simp [hnew]
    · simp [hk, Ne.symm hk]

theorem post_eq_some {links : κ → Option (Link μ σ)} {sent : List (κ × μ)} {k : κ}
    {l : Link μ σ} : post links sent k = some l ↔
      ∃ l', links k = some l' ∧ l = l'.send (sentTo k sent) := by
  rw [post, Option.map_eq_some_iff]
  simp only [eq_comm]

theorem isSome_post (links : κ → Option (Link μ σ)) (sent : List (κ × μ)) (k : κ) :
    (post links sent k).isSome = (links k).isSome := Option.isSome_map

end Addresses

end Fifo
