import TerraX.Lib.Link
import Mathlib.Data.List.Induction
import Mathlib.Logic.Function.Basic

/-!
# A star of FIFO links

Any number of participants send messages to a hub, each on a link of its own. The hub takes
them in some order and puts each on the link to the participant that is its next hop, if it has
one. Between these it puts messages of its own. Nothing is lost, doubled or overtaken on the
way: what a participant has handled is a first part of what the hub has forwarded to it, and
what the hub has taken from a sender is a first part of what was sent.

## Main definitions

- `Fifo.Star`, with `send`, `sendOwn`, `relay` and `handle` — the state and what happens to it
- `Fifo.forwardedTo` — the messages for a participant among those that the hub has taken
- `Fifo.fromOthers`, `Fifo.fromHub` — the two kinds of messages on a link from the hub
- `Fifo.fromLink` — the messages of one sender, where each is known by its origin
- `Fifo.Star.Ordered` — every message is on exactly one place of its way

## Main results

- `Fifo.exists_origins` — what the hub has taken is known by its origins
- `Fifo.Star.Ordered.send`, `Fifo.Star.Ordered.sendOwn`, `Fifo.Star.Ordered.relay`,
  `Fifo.Star.Ordered.handle`
-/

namespace Fifo

variable {κ μ : Type}

/-- The messages that were sent, those that the hub has sent, those on the way to the hub, those
    that the hub has taken, those on the way to the receivers, and those that were handled, each
    oldest first. The hub's own go with their receiver, the others with their sender; on the
    links from the hub, its own have no sender. -/
structure Star (κ μ : Type) where
  sent : List (κ × μ)
  own : List (κ × μ)
  pending : κ → List μ
  taken : List (κ × μ)
  waiting : κ → List (Option κ × μ)
  handled : κ → List (Option κ × μ)

/-- The messages of the participants, with their senders. -/
def fromOthers (ms : List (Option κ × μ)) : List (κ × μ) :=
  ms.filterMap fun m => m.1.map fun i => (i, m.2)

/-- The messages of the hub. -/
def fromHub (ms : List (Option κ × μ)) : List μ :=
  ms.filterMap fun m =>
    match m.1 with
    | none => some m.2
    | some _ => none

/-- Messages as they are put on a link from the hub. -/
def tagged (ms : List (κ × μ)) : List (Option κ × μ) := ms.map fun m => (some m.1, m.2)

/-- Messages of the hub as they are put there. -/
def untagged (ms : List μ) : List (Option κ × μ) := ms.map fun m => (none, m)

theorem mem_fromOthers {ms : List (Option κ × μ)} {i : κ} {m : μ} :
    (i, m) ∈ fromOthers ms ↔ (some i, m) ∈ ms := by
  simp only [fromOthers, List.mem_filterMap, Option.map_eq_some_iff, Prod.exists, Prod.mk.injEq]
  constructor
  · rintro ⟨_, _, hm, _, rfl, rfl, rfl⟩
    exact hm
  · exact fun hm => ⟨some i, m, hm, i, rfl, rfl, rfl⟩

theorem mem_fromHub {ms : List (Option κ × μ)} {m : μ} : m ∈ fromHub ms ↔ (none, m) ∈ ms := by
  rw [fromHub, List.mem_filterMap]
  constructor
  · rintro ⟨⟨_ | _, _⟩, hm, heq⟩
    · cases heq
      exact hm
    · cases heq
  · exact fun hm => ⟨(none, m), hm, rfl⟩

/-- Choosing by the message comes to the same before and after. -/
theorem fromOthers_filter (p : μ → Bool) (ms : List (Option κ × μ)) :
    fromOthers (ms.filter fun m => p m.2) = (fromOthers ms).filter fun m => p m.2 := by
  induction ms with
  | nil => rfl
  | cons m ms ih =>
    obtain ⟨_ | i, m⟩ := m
    · by_cases hp : p m <;> simpa [fromOthers, hp] using ih
    · by_cases hp : p m <;> simpa [fromOthers, hp] using ih

theorem fromHub_filter (p : μ → Bool) (ms : List (Option κ × μ)) :
    fromHub (ms.filter fun m => p m.2) = (fromHub ms).filter p := by
  induction ms with
  | nil => rfl
  | cons m ms ih =>
    obtain ⟨_ | i, m⟩ := m
    · by_cases hp : p m <;> simpa [fromHub, hp] using ih
    · by_cases hp : p m <;> simpa [fromHub, hp] using ih

@[simp] theorem fromOthers_append (ms more : List (Option κ × μ)) :
    fromOthers (ms ++ more) = fromOthers ms ++ fromOthers more := List.filterMap_append

@[simp] theorem fromHub_append (ms more : List (Option κ × μ)) :
    fromHub (ms ++ more) = fromHub ms ++ fromHub more := List.filterMap_append

/-- Changing the messages comes to the same before and after. -/
theorem fromOthers_map {ν : Type} (f : μ → ν) (ms : List (Option κ × μ)) :
    fromOthers (ms.map fun m => (m.1, f m.2)) = (fromOthers ms).map fun m => (m.1, f m.2) := by
  induction ms with
  | nil => rfl
  | cons m ms ih =>
    obtain ⟨_ | i, m⟩ := m
    · exact ih
    · exact congrArg ((i, f m) :: ·) ih

theorem fromHub_map {ν : Type} (f : μ → ν) (ms : List (Option κ × μ)) :
    fromHub (ms.map fun m => (m.1, f m.2)) = (fromHub ms).map f := by
  induction ms with
  | nil => rfl
  | cons m ms ih =>
    obtain ⟨_ | i, m⟩ := m
    · exact congrArg (f m :: ·) ih
    · exact ih

@[simp] theorem fromOthers_tagged (ms : List (κ × μ)) : fromOthers (tagged ms) = ms := by
  induction ms with
  | nil => rfl
  | cons m ms ih => exact congrArg (m :: ·) ih

@[simp] theorem fromHub_tagged (ms : List (κ × μ)) : fromHub (tagged ms) = [] := by
  induction ms with
  | nil => rfl
  | cons m ms ih => exact ih

@[simp] theorem snd_tagged (ms : List (κ × μ)) :
    (tagged ms).map Prod.snd = ms.map Prod.snd := by
  rw [tagged, List.map_map]
  rfl

@[simp] theorem fromOthers_untagged (ms : List μ) :
    fromOthers (untagged ms : List (Option κ × μ)) = [] := by
  induction ms with
  | nil => rfl
  | cons m ms ih => exact ih

@[simp] theorem fromHub_untagged (ms : List μ) :
    fromHub (untagged ms : List (Option κ × μ)) = ms := by
  induction ms with
  | nil => rfl
  | cons m ms ih => exact congrArg (m :: ·) ih

@[simp] theorem snd_untagged (ms : List μ) :
    (untagged ms : List (Option κ × μ)).map Prod.snd = ms := by
  rw [untagged, List.map_map]
  exact List.map_id ms

/-- Without a message of another participant there are only those of the hub. -/
theorem eq_untagged_of_fromOthers_eq_nil {ms : List (Option κ × μ)} (h : fromOthers ms = []) :
    ms = untagged (fromHub ms) := by
  induction ms with
  | nil => rfl
  | cons m ms ih =>
    obtain ⟨_ | i, m⟩ := m
    · exact congrArg ((none, m) :: ·) (ih h)
    · exact absurd h (List.cons_ne_nil _ _)

variable [DecidableEq κ]

/-- The messages with a given next hop, with their senders. -/
def forwardedTo (hop : μ → Option κ) (k : κ) (taken : List (κ × μ)) : List (κ × μ) :=
  taken.filter fun m => hop m.2 = some k

@[simp] theorem forwardedTo_append (hop : μ → Option κ) (k : κ) (taken more : List (κ × μ)) :
    forwardedTo hop k (taken ++ more) = forwardedTo hop k taken ++ forwardedTo hop k more :=
  List.filter_append ..

theorem forwardedTo_cons (hop : μ → Option κ) (k : κ) (m : κ × μ) (taken : List (κ × μ)) :
    forwardedTo hop k (m :: taken) =
      (if hop m.2 = some k then [m] else []) ++ forwardedTo hop k taken := by
  by_cases h : hop m.2 = some k <;> simp [forwardedTo, h]

/-- Where only messages of the hub go, only these are forwarded. -/
theorem forwardedTo_fromHub {ι : Type} {hop : μ → Option κ} {k : κ} {ms : List (Option ι × (κ × μ))}
    (h : ∀ o m, (some o, m) ∈ ms → hop m.2 ≠ some k) :
    forwardedTo hop k (ms.map Prod.snd) = forwardedTo hop k (fromHub ms) := by
  induction ms with
  | nil => rfl
  | cons m ms ih =>
    have hms := ih fun o m hm => h o m (List.mem_cons_of_mem _ hm)
    obtain ⟨_ | o, m⟩ := m
    · exact (forwardedTo_cons hop k m _).trans ((congrArg _ hms).trans
        (forwardedTo_cons hop k m _).symm)
    · have hm : hop m.2 ≠ some k := h o m List.mem_cons_self
      rw [List.map_cons, forwardedTo_cons, if_neg hm]
      exact hms

/-- What one sender has sent is sent to the address of this sender only. -/
theorem sentTo_map (i k : κ) (ms : List μ) :
    sentTo k (ms.map fun m => (i, m)) = if i = k then ms else [] := by
  induction ms with
  | nil => simp [sentTo]
  | cons m ms ih =>
    rw [List.map_cons, sentTo_cons, ih]
    by_cases h : i = k <;> simp [h]

theorem filter_sentTo_singleton (p : μ → Bool) (k k' : κ) (m : μ) :
    (sentTo k [(k', m)]).filter p = if k' = k ∧ p m = true then [m] else [] := by
  by_cases hk : k' = k
  · by_cases hp : p m = true <;> simp [sentTo, hk, hp]
  · simp [sentTo, hk]

theorem filter_fromOthers_singleton {ι γ : Type} [DecidableEq ι] (p : μ → Bool) (o : ι)
    (m : Option ι × (γ × μ)) :
    ((sentTo o (fromOthers [m])).map Prod.snd).filter p =
      if m.1 = some o ∧ p m.2.2 = true then [m.2.2] else [] := by
  obtain ⟨origin, m⟩ := m
  cases origin with
  | none => simp [sentTo, fromOthers]
  | some o' =>
    by_cases ho : o' = o
    · by_cases hp : p m.2 = true <;> simp [sentTo, fromOthers, ho, hp]
    · simp [sentTo, fromOthers, ho]

/-- Messages with an origin, of which those from one origin are all that one sender sends of a
    kind. -/
theorem filter_sentTo_snd {ι : Type} [DecidableEq ι] {p : μ → Bool} {o : ι} {k : κ}
    {ms : List (Option ι × (κ × μ))}
    (h : ∀ m ∈ ms, (m.2.1 = k ∧ p m.2.2 = true) ↔ (m.1 = some o ∧ p m.2.2 = true)) :
    (sentTo k (ms.map Prod.snd)).filter p = ((sentTo o (fromOthers ms)).map Prod.snd).filter p := by
  induction ms with
  | nil => rfl
  | cons m ms ih =>
    obtain ⟨hm, hms⟩ := List.forall_mem_cons.mp h
    have hhead : (sentTo k [m.2]).filter p =
        ((sentTo o (fromOthers [m])).map Prod.snd).filter p := by
      rw [filter_sentTo_singleton, filter_fromOthers_singleton, if_congr hm rfl rfl]
    rw [← List.singleton_append, List.map_append, sentTo_append, List.filter_append, ih hms,
      fromOthers_append, sentTo_append, List.map_append, List.filter_append]
    exact congrArg (· ++ _) hhead

/-! ### Origins -/

section Origins

variable {ι : Type}

/-- The messages of one sender, with their origins. -/
def fromLink (i : κ) (ms : List (ι × (κ × μ))) : List (ι × (κ × μ)) := ms.filter fun m => m.2.1 = i

theorem mem_of_prefix_fromLink {ms ms' : List (ι × (κ × μ))}
    (h : ∀ i, fromLink i ms <+: fromLink i ms') {m : ι × (κ × μ)} (hm : m ∈ ms) : m ∈ ms' := by
  have hlink : m ∈ fromLink m.2.1 ms := List.mem_filter.mpr ⟨hm, decide_eq_true rfl⟩
  exact (List.mem_filter.mp ((h m.2.1).subset hlink)).1

theorem sentTo_snd (i : κ) (ms : List (ι × (κ × μ))) :
    sentTo i (ms.map Prod.snd) = (fromLink i ms).map fun m => m.2.2 := by
  rw [sentTo_eq_map_filter, List.filter_map, List.map_map]
  rfl

/-- What is taken from each sender in its order can be told by its origins. -/
theorem exists_origins {ms : List (ι × (κ × μ))} {order : List (κ × μ)}
    (h : ∀ i, sentTo i order <+: sentTo i (ms.map Prod.snd)) :
    ∃ taken : List (ι × (κ × μ)), taken.map Prod.snd = order ∧
      ∀ i, fromLink i taken <+: fromLink i ms := by
  induction order using List.reverseRecOn with
  | nil => exact ⟨[], rfl, fun i => List.nil_prefix⟩
  | append_singleton order m ih =>
    have hfront : ∀ i, sentTo i order <+: sentTo i (order ++ [m]) := fun i => by
      rw [sentTo_append]
      exact List.prefix_append _ _
    obtain ⟨taken, rfl, htaken⟩ := ih fun i => (hfront i).trans (h i)
    -- the next message on the link of its sender is this one
    obtain ⟨rest, hrest⟩ := htaken m.1
    have hnext : [m.2] <+: rest.map fun m => m.2.2 := by
      have hlink := h m.1
      rw [sentTo_append, sentTo_cons, if_pos rfl, sentTo_snd, sentTo_snd, ← hrest, List.map_append,
        List.prefix_append_right_inj] at hlink
      exact hlink
    cases rest with
    | nil => exact absurd (List.prefix_nil.mp hnext) (List.cons_ne_nil _ _)
    | cons next rest =>
      rw [List.map_cons, List.cons_prefix_cons] at hnext
      have hmem : next ∈ fromLink m.1 ms := by
        rw [← hrest]
        exact List.mem_append_right _ List.mem_cons_self
      have hsender : next.2.1 = m.1 := of_decide_eq_true (List.mem_filter.mp hmem).2
      have hm : next.2 = m := Prod.ext hsender hnext.1.symm
      refine ⟨taken ++ [next], ?_, fun i => ?_⟩
      · rw [List.map_append, List.map_singleton, hm]
      · rw [fromLink, List.filter_append, List.filter_singleton]
        by_cases hi : m.1 = i
        · subst hi
          rw [decide_eq_true hsender, ← hrest]
          exact ⟨rest, List.append_assoc _ _ _⟩
        · rw [decide_eq_false (hsender ▸ hi)]
          exact (List.append_nil _).symm ▸ htaken i

/-- All of them, where all are taken. -/
theorem fromLink_eq {ms taken : List (ι × (κ × μ))} {i : κ}
    (h : fromLink i taken <+: fromLink i ms)
    (hall : sentTo i (taken.map Prod.snd) = sentTo i (ms.map Prod.snd)) :
    fromLink i taken = fromLink i ms := by
  refine h.eq_of_length ?_
  have hlength := congrArg List.length hall
  rwa [sentTo_snd, sentTo_snd, List.length_map, List.length_map] at hlength

end Origins

/-! ### Changes at one participant -/

section Update

variable {α β γ : Type} {f : κ → α} {g : κ → β} {h : κ → γ} {j : κ} {a : α} {b : β} {c : γ}

/-- What holds of the new values at `j`, and of the old ones elsewhere, holds of all. -/
theorem forall_update₂ {P : κ → α → β → Prop} (hj : P j a b) (hold : ∀ k, P k (f k) (g k)) (k : κ) :
    P k (Function.update f j a k) (Function.update g j b k) := by
  by_cases hk : k = j
  · subst hk
    rw [Function.update_self, Function.update_self]
    exact hj
  · rw [Function.update_of_ne hk, Function.update_of_ne hk]
    exact hold k

theorem forall_update₃ {P : κ → α → β → γ → Prop} (hj : P j a b c)
    (hold : ∀ k, P k (f k) (g k) (h k)) (k : κ) :
    P k (Function.update f j a k) (Function.update g j b k) (Function.update h j c k) := by
  by_cases hk : k = j
  · subst hk
    rw [Function.update_self, Function.update_self, Function.update_self]
    exact hj
  · rw [Function.update_of_ne hk, Function.update_of_ne hk, Function.update_of_ne hk]
    exact hold k

end Update

namespace Star

/-- The star before anything is sent. -/
def empty : Star κ μ := ⟨[], [], fun _ => [], [], fun _ => [], fun _ => []⟩

/-- A participant sends a message. -/
def send (star : Star κ μ) (i : κ) (m : μ) : Star κ μ :=
  { star with
    sent := star.sent ++ [(i, m)]
    pending := Function.update star.pending i (star.pending i ++ [m]) }

/-- The hub sends a message of its own. -/
def sendOwn (star : Star κ μ) (k : κ) (m : μ) : Star κ μ :=
  { star with
    own := star.own ++ [(k, m)]
    waiting := Function.update star.waiting k (star.waiting k ++ [(none, m)]) }

/-- The hub takes the oldest messages from the link of a participant, and forwards them. -/
def relay (hop : μ → Option κ) (star : Star κ μ) (i : κ) (n : ℕ) : Star κ μ :=
  let batch := ((star.pending i).take n).map fun m => (i, m)
  { star with
    pending := Function.update star.pending i ((star.pending i).drop n)
    taken := star.taken ++ batch
    waiting := fun k => star.waiting k ++ tagged (forwardedTo hop k batch) }

/-- A participant handles the oldest messages on its link. -/
def handle (star : Star κ μ) (k : κ) (n : ℕ) : Star κ μ :=
  { star with
    waiting := Function.update star.waiting k ((star.waiting k).drop n)
    handled := Function.update star.handled k (star.handled k ++ (star.waiting k).take n) }

/-- What was sent is taken by the hub or on the way to it, and what the hub has forwarded or sent
    is handled or on the way to the receiver, in this order. -/
structure Ordered (hop : μ → Option κ) (star : Star κ μ) : Prop where
  sent : ∀ i, sentTo i star.sent = sentTo i star.taken ++ star.pending i
  forwarded : ∀ k, forwardedTo hop k star.taken = fromOthers (star.handled k ++ star.waiting k)
  own : ∀ k, sentTo k star.own = fromHub (star.handled k ++ star.waiting k)

variable {hop : μ → Option κ} {star : Star κ μ}

theorem ordered_empty : Ordered hop (empty : Star κ μ) :=
  ⟨fun _ => rfl, fun _ => rfl, fun _ => rfl⟩

theorem Ordered.send (h : star.Ordered hop) (i : κ) (m : μ) : (star.send i m).Ordered hop where
  sent k := by
    show sentTo k (star.sent ++ [(i, m)]) = sentTo k star.taken ++
      Function.update star.pending i (star.pending i ++ [m]) k
    rw [sentTo_append, h.sent, sentTo_cons]
    by_cases hk : i = k
    · subst hk
      rw [if_pos rfl, Function.update_self, List.append_assoc]
      rfl
    · rw [if_neg hk, Function.update_of_ne (Ne.symm hk)]
      exact List.append_nil _
  forwarded := h.forwarded
  own := h.own

/-- One more message on a link from the hub. -/
theorem handled_append_waiting_sendOwn (star : Star κ μ) (k : κ) (m : μ) (k' : κ) :
    (star.sendOwn k m).handled k' ++ (star.sendOwn k m).waiting k' =
      star.handled k' ++ star.waiting k' ++ if k = k' then [(none, m)] else [] := by
  show star.handled k' ++ Function.update star.waiting k (star.waiting k ++ [(none, m)]) k' = _
  by_cases hk : k = k'
  · subst hk
    rw [Function.update_self, if_pos rfl, List.append_assoc]
  · rw [Function.update_of_ne (Ne.symm hk), if_neg hk, List.append_nil]

theorem Ordered.sendOwn (h : star.Ordered hop) (k : κ) (m : μ) :
    (star.sendOwn k m).Ordered hop where
  sent := h.sent
  forwarded k' := by
    have hnone : fromOthers (if k = k' then [((none : Option κ), m)] else []) = [] := by
      split <;> rfl
    rw [handled_append_waiting_sendOwn, fromOthers_append, hnone, List.append_nil]
    exact h.forwarded k'
  own k' := by
    have hown : fromHub (if k = k' then [((none : Option κ), m)] else []) =
        if k = k' then [m] else [] := by
      split <;> rfl
    rw [handled_append_waiting_sendOwn, fromHub_append, hown, ← h.own]
    show sentTo k' (star.own ++ [(k, m)]) = _
    rw [sentTo_append, sentTo_cons]
    exact congrArg _ (List.append_nil _)

theorem Ordered.relay (h : star.Ordered hop) (i : κ) (n : ℕ) :
    (star.relay hop i n).Ordered hop where
  sent k := by
    show sentTo k star.sent =
      sentTo k (star.taken ++ ((star.pending i).take n).map fun m => (i, m)) ++
        Function.update star.pending i ((star.pending i).drop n) k
    rw [sentTo_append, h.sent, sentTo_map, List.append_assoc]
    by_cases hk : i = k
    · subst hk
      rw [if_pos rfl, Function.update_self, List.take_append_drop]
    · rw [if_neg hk, Function.update_of_ne (Ne.symm hk), List.nil_append]
  forwarded k := by
    show forwardedTo hop k (star.taken ++ ((star.pending i).take n).map fun m => (i, m)) =
      fromOthers (star.handled k ++ (star.waiting k ++
        tagged (forwardedTo hop k (((star.pending i).take n).map fun m => (i, m)))))
    rw [forwardedTo_append, h.forwarded, ← List.append_assoc, fromOthers_append (_ ++ _),
      fromOthers_tagged]
  own k := by
    show sentTo k star.own = fromHub (star.handled k ++ (star.waiting k ++
      tagged (forwardedTo hop k (((star.pending i).take n).map fun m => (i, m)))))
    rw [h.own, ← List.append_assoc, fromHub_append (_ ++ _), fromHub_tagged, List.append_nil]

/-- Handling moves messages on. -/
theorem handled_append_waiting_handle (star : Star κ μ) (k : κ) (n : ℕ) (k' : κ) :
    (star.handle k n).handled k' ++ (star.handle k n).waiting k' =
      star.handled k' ++ star.waiting k' := by
  have hk : star.handled k ++ (star.waiting k).take n ++ (star.waiting k).drop n =
      star.handled k ++ star.waiting k := by
    rw [List.append_assoc, List.take_append_drop]
  exact forall_update₂ (P := fun k hs ws => hs ++ ws = star.handled k ++ star.waiting k) hk
    (fun _ => rfl) k'

theorem Ordered.handle (h : star.Ordered hop) (k : κ) (n : ℕ) :
    (star.handle k n).Ordered hop where
  sent := h.sent
  forwarded k' := by
    rw [handled_append_waiting_handle]
    exact h.forwarded k'
  own k' := by
    rw [handled_append_waiting_handle]
    exact h.own k'

end Star

end Fifo
