import Mathlib.Data.List.TakeDrop
import Mathlib.Data.List.Flatten

/-!
# Cutting a stream into frames

A `Splitter` finds the first complete frame of a stream. Because its answer does
not change when more of the stream arrives, cutting a stream piece by piece,
each time on top of what was left over, gives the frames of the whole stream
(`Splitter.frames_append`, `Splitter.rest_append`).

## Main definitions

- `Framing.Splitter` — a stable way to find the first frame
- `Splitter.frames`, `Splitter.rest` — the complete frames and what is left over
- `Splitter.IsFrame` — the strings that are a frame on their own
- `Splitter.Queued` — the frames in a stream, which may be blocked behind them

## Main results

- `Splitter.frames_append`, `Splitter.rest_append` — cutting is resumable
- `Splitter.frames_flatten_append` — a sequence of frames is cut into itself
- `Splitter.frames_of_append_eq_flatten` — the first part of a sequence of frames is cut into the
  first frames
- `Splitter.Queued.append`, `Splitter.Queued.arrive` — writing to a stream, and reading from it
-/

namespace Framing

/-- A way to find the first complete frame of a stream: `next s = some n` says
    that the first `n` symbols of `s` are one, `none` that `s` does not begin
    with a complete frame. -/
structure Splitter (α : Type*) where
  next : List α → Option ℕ
  pos : ∀ {s n}, next s = some n → 0 < n
  le_length : ∀ {s n}, next s = some n → n ≤ s.length
  stable : ∀ {s n} (t : List α), next s = some n → next (s ++ t) = some n
  next_take : ∀ {s n}, next s = some n → next (s.take n) = some n

namespace Splitter

variable {α : Type*} (S : Splitter α)

/-- What remains after the first frame is shorter. -/
theorem drop_lt {s : List α} {n : ℕ} (h : S.next s = some n) : (s.drop n).length < s.length := by
  have hpos := S.pos h
  have hle := S.le_length h
  rw [List.length_drop]
  omega

/-- The complete frames at the front of a stream. -/
def frames (s : List α) : List (List α) :=
  match _h : S.next s with
  | none => []
  | some n => s.take n :: frames (s.drop n)
termination_by s.length
decreasing_by exact S.drop_lt _h

/-- What is left of a stream behind its complete frames. -/
def rest (s : List α) : List α :=
  match _h : S.next s with
  | none => s
  | some n => rest (s.drop n)
termination_by s.length
decreasing_by exact S.drop_lt _h

theorem frames_of_none {s : List α} (h : S.next s = none) : S.frames s = [] := by
  rw [frames]
  split
  · rfl
  · next n hn => rw [h] at hn; cases hn

theorem rest_of_none {s : List α} (h : S.next s = none) : S.rest s = s := by
  rw [rest]
  split
  · rfl
  · next n hn => rw [h] at hn; cases hn

theorem frames_of_some {s : List α} {n : ℕ} (h : S.next s = some n) :
    S.frames s = s.take n :: S.frames (s.drop n) := by
  rw [frames]
  split
  · next hn => rw [h] at hn; cases hn
  · next m hm => rw [h] at hm; cases hm; rfl

theorem rest_of_some {s : List α} {n : ℕ} (h : S.next s = some n) :
    S.rest s = S.rest (s.drop n) := by
  rw [rest]
  split
  · next hn => rw [h] at hn; cases hn
  · next m hm => rw [h] at hm; cases hm; rfl

/-- Induction along the cut: a stream without a first frame, or one frame in
    front of a stream already treated. -/
theorem cut_induction {P : List α → Prop} (stop : ∀ s, S.next s = none → P s)
    (cut : ∀ s n, S.next s = some n → P (s.drop n) → P s) (s : List α) : P s :=
  match h : S.next s with
  | none => stop s h
  | some n => cut s n h (cut_induction stop cut (s.drop n))
termination_by s.length
decreasing_by exact S.drop_lt h

/-- Cutting is resumable: the frames of a longer stream are the frames cut
    before, then the frames of the left-over with the new symbols behind it. -/
theorem frames_append (s t : List α) : S.frames (s ++ t) = S.frames s ++ S.frames (S.rest s ++ t) := by
  induction s using S.cut_induction with
  | stop s h => rw [S.frames_of_none h, S.rest_of_none h, List.nil_append]
  | cut s n h ih =>
    have hle := S.le_length h
    rw [S.frames_of_some (S.stable t h), S.frames_of_some h, S.rest_of_some h,
      List.take_append_of_le_length hle, List.drop_append_of_le_length hle, ih, List.cons_append]

theorem rest_append (s t : List α) : S.rest (s ++ t) = S.rest (S.rest s ++ t) := by
  induction s using S.cut_induction with
  | stop s h => rw [S.rest_of_none h]
  | cut s n h ih =>
    rw [S.rest_of_some (S.stable t h), S.rest_of_some h,
      List.drop_append_of_le_length (S.le_length h), ih]

/-- A string that is exactly one frame. -/
def IsFrame (f : List α) : Prop := S.next f = some f.length

theorem isFrame_of_mem {s f : List α} (hf : f ∈ S.frames s) : S.IsFrame f := by
  induction s using S.cut_induction with
  | stop s h => rw [S.frames_of_none h] at hf; cases hf
  | cut s n h ih =>
    rw [S.frames_of_some h] at hf
    rcases List.mem_cons.mp hf with rfl | hf
    · rw [IsFrame, S.next_take h, List.length_take, Nat.min_eq_left (S.le_length h)]
    · exact ih hf

/-- Whatever follows a frame, the frame is cut off first. -/
theorem frames_isFrame_append {f : List α} (hf : S.IsFrame f) (t : List α) :
    S.frames (f ++ t) = f :: S.frames t ∧ S.rest (f ++ t) = S.rest t := by
  have h := S.stable t hf
  rw [S.frames_of_some h, S.rest_of_some h]
  simp

/-- A sequence of frames is cut into itself. -/
theorem frames_flatten_append {fs : List (List α)} (hfs : ∀ f ∈ fs, S.IsFrame f) (t : List α) :
    S.frames (fs.flatten ++ t) = fs ++ S.frames t ∧ S.rest (fs.flatten ++ t) = S.rest t := by
  induction fs with
  | nil => exact ⟨rfl, rfl⟩
  | cons f fs ih =>
    obtain ⟨ihf, ihr⟩ := ih fun g hg => hfs g (List.mem_cons_of_mem f hg)
    obtain ⟨hf, hr⟩ := S.frames_isFrame_append (hfs f List.mem_cons_self) (fs.flatten ++ t)
    rw [List.flatten_cons, List.append_assoc, hf, hr, ihf, ihr]
    exact ⟨rfl, rfl⟩

/-- No string without symbols begins with a frame. -/
theorem next_nil : S.next [] = none := by
  rcases Option.eq_none_or_eq_some (S.next []) with h | ⟨n, h⟩
  · exact h
  · have hpos := S.pos h
    have hle := S.le_length h
    rw [List.length_nil] at hle
    omega

/-- What is left over does not begin with a frame. -/
theorem next_rest (s : List α) : S.next (S.rest s) = none := by
  induction s using S.cut_induction with
  | stop s h => rwa [S.rest_of_none h]
  | cut s n h ih => rwa [S.rest_of_some h]

/-- Nothing of a stream gets lost: it is its frames, and what is left over. -/
theorem flatten_frames_append_rest (s : List α) : (S.frames s).flatten ++ S.rest s = s := by
  induction s using S.cut_induction with
  | stop s h => rw [S.frames_of_none h, S.rest_of_none h, List.flatten_nil, List.nil_append]
  | cut s n h ih =>
    rw [S.frames_of_some h, S.rest_of_some h, List.flatten_cons, List.append_assoc, ih,
      List.take_append_drop]

/-- The first part of a sequence of frames and of something behind them that does not begin with
    one: some frames are complete in it, and what is left over goes on with the second part to the
    others. -/
theorem frames_of_append_eq {fs : List (List α)} (hfs : ∀ f ∈ fs, S.IsFrame f) {t : List α}
    (ht : S.next t = none) {x y : List α} (h : x ++ y = fs.flatten ++ t) :
    ∃ k, S.frames x = fs.take k ∧ S.rest x ++ y = (fs.drop k).flatten ++ t := by
  induction fs generalizing x with
  | nil =>
    have hnone : S.next x = none := by
      rcases Option.eq_none_or_eq_some (S.next x) with hx | ⟨n, hx⟩
      · exact hx
      · have hwhole := S.stable y hx
        rw [h, List.flatten_nil, List.nil_append, ht] at hwhole
        cases hwhole
    refine ⟨0, S.frames_of_none hnone, ?_⟩
    rw [S.rest_of_none hnone, h, List.drop_nil]
  | cons f fs ih =>
    obtain ⟨hf, hfs⟩ := List.forall_mem_cons.mp hfs
    rw [List.flatten_cons, List.append_assoc] at h
    by_cases hlen : f.length ≤ x.length
    · -- the first frame is complete in `x`
      obtain ⟨x', rfl⟩ : f <+: x := List.prefix_of_prefix_length_le (List.prefix_append f _)
        (h ▸ List.prefix_append x y) hlen
      obtain ⟨k, hframes, hrest⟩ := ih hfs (List.append_cancel_left (by rwa [List.append_assoc] at h))
      obtain ⟨hcut, hleft⟩ := S.frames_isFrame_append hf x'
      refine ⟨k + 1, ?_, ?_⟩
      · rw [hcut, hframes, List.take_succ_cons]
      · rw [hleft, hrest, List.drop_succ_cons]
    · -- the first frame is still incomplete in `x`, so nothing is cut off
      have hnone : S.next x = none := by
        rcases Option.eq_none_or_eq_some (S.next x) with hx | ⟨n, hx⟩
        · exact hx
        · have hwhole := S.stable y hx
          rw [h, S.stable (fs.flatten ++ t) hf] at hwhole
          cases hwhole
          exact absurd (S.le_length hx) hlen
      refine ⟨0, S.frames_of_none hnone, ?_⟩
      rw [S.rest_of_none hnone, h, List.drop_zero, List.flatten_cons, List.append_assoc]

/-- The first part of a sequence of frames. -/
theorem frames_of_append_eq_flatten {fs : List (List α)} (hfs : ∀ f ∈ fs, S.IsFrame f)
    {x y : List α} (h : x ++ y = fs.flatten) :
    ∃ k, S.frames x = fs.take k ∧ S.rest x ++ y = (fs.drop k).flatten := by
  obtain ⟨k, hframes, hrest⟩ :=
    S.frames_of_append_eq hfs S.next_nil (h.trans (List.append_nil _).symm)
  exact ⟨k, hframes, hrest.trans (List.append_nil _)⟩

/-- A sequence of frames that does not begin with one is empty. -/
theorem eq_nil_of_flatten {fs : List (List α)} (hfs : ∀ f ∈ fs, S.IsFrame f)
    (h : S.next fs.flatten = none) : fs = [] := by
  cases fs with
  | nil => rfl
  | cons f fs =>
    have hsome := S.stable fs.flatten (hfs f List.mem_cons_self)
    rw [List.flatten_cons, hsome] at h
    cases h

/-! ### Streams that may be blocked -/

/-- A string in front of which no frame is found, whatever follows it. -/
def Blocked (t : List α) : Prop := ∀ s, S.next (t ++ s) = none

/-- A stream with the given frames in it, which may be blocked behind them. -/
def Queued (fs : List (List α)) (s : List α) : Prop :=
  (∀ f ∈ fs, S.IsFrame f) ∧ ∃ t, s = fs.flatten ++ t ∧ (t = [] ∨ S.Blocked t)

variable {S} {fs : List (List α)} {s : List α}

theorem queued_nil : S.Queued [] [] := ⟨fun _ hf => (nomatch hf), [], rfl, Or.inl rfl⟩

/-- What is written to a stream becomes its last frame, if it is one and the stream is not
    blocked. -/
theorem Queued.append (h : S.Queued fs s) {f : List α} (hf : S.IsFrame f ∨ S.Blocked f) :
    S.Queued fs (s ++ f) ∨ (S.IsFrame f ∧ S.Queued (fs ++ [f]) (s ++ f)) := by
  obtain ⟨hfs, t, rfl, ht⟩ := h
  rcases ht with rfl | ht
  · rw [List.append_nil]
    rcases hf with hf | hf
    · refine Or.inr ⟨hf, ?_, [], ?_, Or.inl rfl⟩
      · exact List.forall_mem_append.mpr ⟨hfs, List.forall_mem_singleton.mpr hf⟩
      · rw [List.flatten_append, List.flatten_singleton, List.append_nil]
    · exact Or.inl ⟨hfs, f, rfl, Or.inr hf⟩
  · refine Or.inl ⟨hfs, t ++ f, List.append_assoc _ _ _, Or.inr fun u => ?_⟩
    rw [List.append_assoc]
    exact ht (f ++ u)

/-- What arrives of a stream completes some of its frames. -/
theorem Queued.arrive {x y : List α} (h : S.Queued fs (x ++ y)) :
    ∃ k, S.frames x = fs.take k ∧ S.Queued (fs.drop k) (S.rest x ++ y) := by
  obtain ⟨hfs, t, hs, ht⟩ := h
  have hnext : S.next t = none := by
    rcases ht with rfl | ht
    · exact S.next_nil
    · rw [← List.append_nil t]
      exact ht []
  obtain ⟨k, hframes, hrest⟩ := S.frames_of_append_eq hfs hnext hs
  exact ⟨k, hframes, fun f hf => hfs f (List.mem_of_mem_drop hf), t, hrest, ht⟩

end Splitter

end Framing
