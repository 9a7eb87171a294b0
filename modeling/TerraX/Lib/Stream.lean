import TerraX.Lib.Framing
import Mathlib.Logic.Function.Basic

/-!
# Messages in a stream of frames

A sender writes the frames of messages to a stream, of which any first part may arrive at a time.
The receiver cuts off the frames that are complete, and keeps the rest in a buffer. The messages
that are on the way are those whose frames are still in the buffer or in the stream.

## Main definitions

- `Splitter.Carries` — the messages that are on the way

## Main results

- `Splitter.Carries.write`, `Splitter.Carries.arrive` — what the sender adds, and what the receiver
  takes
- `Splitter.Carries.eq_nil` — an empty stream carries nothing
-/

namespace Framing.Splitter

variable {α ι : Type*}

/-- The frames of the messages are what has arrived, without a complete frame in front, and what is
    still in the stream. -/
structure Carries (S : Splitter α) (enc : ι → List α) (items : List ι) (buf stream : List α) :
    Prop where
  isFrame : ∀ a ∈ items, S.IsFrame (enc a)
  eq : buf ++ stream = (items.map enc).flatten
  next : S.next buf = none

variable {S : Splitter α} {enc : ι → List α} {items : List ι} {buf stream : List α}

theorem carries_nil : S.Carries enc [] [] [] := ⟨fun _ ha => (nomatch ha), rfl, S.next_nil⟩

/-- What is written comes behind what is on the way. -/
theorem Carries.write (h : S.Carries enc items buf stream) {more : List ι}
    (hmore : ∀ a ∈ more, S.IsFrame (enc a)) :
    S.Carries enc (items ++ more) buf (stream ++ (more.map enc).flatten) where
  isFrame := List.forall_mem_append.mpr ⟨h.isFrame, hmore⟩
  eq := by rw [← List.append_assoc, h.eq, List.map_append, List.flatten_append]
  next := h.next

/-- What arrives completes the frames of the first messages. -/
theorem Carries.arrive (h : S.Carries enc items buf stream) (n : ℕ) :
    ∃ k, S.frames (buf ++ stream.take n) = (items.take k).map enc ∧
      S.Carries enc (items.drop k) (S.rest (buf ++ stream.take n)) (stream.drop n) := by
  have hframes : ∀ f ∈ items.map enc, S.IsFrame f := by
    intro f hf
    obtain ⟨a, ha, rfl⟩ := List.mem_map.mp hf
    exact h.isFrame a ha
  have heq : buf ++ stream.take n ++ stream.drop n = (items.map enc).flatten := by
    rw [List.append_assoc, List.take_append_drop, h.eq]
  obtain ⟨k, hcut, hrest⟩ := S.frames_of_append_eq_flatten hframes heq
  rw [← List.map_take] at hcut
  rw [← List.map_drop] at hrest
  exact ⟨k, hcut, fun a ha => h.isFrame a (List.mem_of_mem_drop ha), hrest, S.next_rest _⟩

/-- With nothing in the stream, nothing is on the way. -/
theorem Carries.eq_nil (h : S.Carries enc items buf []) : items = [] := by
  have hframes : ∀ f ∈ items.map enc, S.IsFrame f := by
    intro f hf
    obtain ⟨a, ha, rfl⟩ := List.mem_map.mp hf
    exact h.isFrame a ha
  have hnext : S.next (items.map enc).flatten = none := by
    rw [← h.eq, List.append_nil]
    exact h.next
  exact List.map_eq_nil_iff.mp (S.eq_nil_of_flatten hframes hnext)

/-- Many streams, of which one changes. -/
theorem carries_update {κ : Type*} [DecidableEq κ] (enc : κ → ι → List α) {items : κ → List ι}
    {buf stream : κ → List α} (h : ∀ key, S.Carries (enc key) (items key) (buf key) (stream key))
    {key : κ} {items' : List ι} {buf' stream' : List α}
    (hkey : S.Carries (enc key) items' buf' stream') (key' : κ) :
    S.Carries (enc key') (Function.update items key items' key') (Function.update buf key buf' key')
      (Function.update stream key stream' key') := by
  by_cases heq : key' = key
  · subst heq
    simp only [Function.update_self]
    exact hkey
  · simp only [Function.update_of_ne heq]
    exact h key'

end Framing.Splitter
