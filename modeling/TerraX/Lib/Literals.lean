import Mathlib.Algebra.BigOperators.Group.List.Basic
import Mathlib.Algebra.Order.Ring.Nat
import Mathlib.Data.List.Count

/-!
# Quoted literals

A text of statements, each of which ends with a stop sign. A literal stands between quotes, and two
quotes in a literal stand for one.

## Main definitions

- `Literals.Reader`, `Literals.step` — a reader, and how it takes a sign
- `Literals.statements` — the literals of the statements of a text
- `Literals.Plain` — text without quotes and stop signs

## Main results

- `Literals.foldl_plain`, `Literals.foldl_quoted`, `Literals.foldl_closing` — how parts of a text
  are read
- `Literals.quotes_le` — a text has the quotes that its literals need
-/

namespace Literals

variable {α : Type}

/-- Where a reader is: outside of literals, in one that it has read so far, or behind a quote in
    one, which may be the first of two. -/
inductive Mode (α : Type)
  | outside
  | inside (literal : List α)
  | closing (literal : List α)

/-- A reader, with the literals of the statement that it reads and of those that it has read. -/
structure Reader (α : Type) where
  mode : Mode α
  literals : List (List α)
  statements : List (List (List α))

/-- Text without quotes and stop signs. -/
def Plain (quote stop : α) (text : List α) : Prop := quote ∉ text ∧ stop ∉ text

theorem plain_nil {quote stop : α} : Plain quote stop [] := ⟨List.not_mem_nil, List.not_mem_nil⟩

theorem plain_append {quote stop : α} {s t : List α} :
    Plain quote stop (s ++ t) ↔ Plain quote stop s ∧ Plain quote stop t := by
  simp only [Plain, List.mem_append, not_or]
  tauto

theorem plain_flatMap {ι : Type} {quote stop : α} {l : List ι} {f : ι → List α}
    (h : ∀ a ∈ l, Plain quote stop (f a)) : Plain quote stop (l.flatMap f) := by
  induction l with
  | nil => exact plain_nil
  | cons a l ih =>
    obtain ⟨ha, hl⟩ := List.forall_mem_cons.mp h
    exact plain_append.mpr ⟨ha, ih hl⟩

/-- A literal in quotes. -/
def quoted (quote : α) (literal : List α) : List α := quote :: literal ++ [quote]

section

variable [DecidableEq α] (quote stop : α)

/-- A sign outside of literals. -/
def stepOutside (literals : List (List α)) (read : List (List (List α))) (a : α) : Reader α :=
  if a = quote then ⟨.inside [], literals, read⟩
  else if a = stop then ⟨.outside, [], read ++ [literals]⟩
  else ⟨.outside, literals, read⟩

/-- A sign. -/
def step : Reader α → α → Reader α
  | ⟨.outside, literals, read⟩, a => stepOutside quote stop literals read a
  | ⟨.inside literal, literals, read⟩, a =>
    if a = quote then ⟨.closing literal, literals, read⟩
    else ⟨.inside (literal ++ [a]), literals, read⟩
  | ⟨.closing literal, literals, read⟩, a =>
    if a = quote then ⟨.inside (literal ++ [quote]), literals, read⟩
    else stepOutside quote stop (literals ++ [literal]) read a

/-- A reader that has read nothing. -/
def start : Reader α := ⟨.outside, [], []⟩

/-- The literals of the statements of a text. -/
def statements (text : List α) : List (List (List α)) :=
  (text.foldl (step quote stop) start).statements

/-! ### Parts of a text -/

variable {quote stop} {literals : List (List α)} {read : List (List (List α))}

/-- Plain text between literals is passed over. -/
theorem foldl_plain {text : List α} (h : Plain quote stop text) :
    text.foldl (step quote stop) ⟨.outside, literals, read⟩ = ⟨.outside, literals, read⟩ := by
  induction text with
  | nil => rfl
  | cons a text ih =>
    obtain ⟨⟨hquote, hquotes⟩, hstop, hstops⟩ :
        (quote ≠ a ∧ quote ∉ text) ∧ stop ≠ a ∧ stop ∉ text := by
      simpa [Plain] using h
    rw [List.foldl_cons, step, stepOutside, if_neg (Ne.symm hquote), if_neg (Ne.symm hstop)]
    exact ih ⟨hquotes, hstops⟩

/-- Text behind a quote that is no quote itself completes the literal. -/
theorem foldl_closing {literal text : List α} {a : α} (h : Plain quote stop (a :: text)) :
    (a :: text).foldl (step quote stop) ⟨.closing literal, literals, read⟩ =
      ⟨.outside, literals ++ [literal], read⟩ := by
  have ha : a ≠ quote := fun heq => h.1 (heq ▸ List.mem_cons_self)
  rw [List.foldl_cons, step, if_neg ha]
  exact @foldl_plain α _ quote stop (literals ++ [literal]) read (a :: text) h

/-- The stop sign ends a statement. -/
theorem step_stop (hstop : stop ≠ quote) :
    step quote stop ⟨.outside, literals, read⟩ stop = ⟨.outside, [], read ++ [literals]⟩ := by
  rw [step, stepOutside, if_neg hstop, if_pos rfl]

/-- A literal without quotes is read up to its last quote. -/
theorem foldl_inside {front literal : List α} (h : quote ∉ literal) :
    (literal ++ [quote]).foldl (step quote stop) ⟨.inside front, literals, read⟩ =
      ⟨.closing (front ++ literal), literals, read⟩ := by
  induction literal generalizing front with
  | nil =>
    rw [List.nil_append, List.foldl_cons, List.foldl_nil, step, if_pos rfl, List.append_nil]
  | cons a literal ih =>
    have ha : a ≠ quote := fun heq => h (heq ▸ List.mem_cons_self)
    rw [List.cons_append, List.foldl_cons, step, if_neg ha,
      ih fun hmem => h (List.mem_cons_of_mem a hmem), List.append_assoc]
    rfl

theorem foldl_quoted {literal : List α} (h : quote ∉ literal) :
    (quoted quote literal).foldl (step quote stop) ⟨.outside, literals, read⟩ =
      ⟨.closing literal, literals, read⟩ := by
  rw [quoted, List.cons_append, List.foldl_cons, step, stepOutside, if_pos rfl]
  exact foldl_inside h

/-! ### Counting quotes -/

variable (quote)

/-- The quotes that a literal needs. -/
def quotes (literal : List α) : ℕ := 2 + 2 * literal.count quote

/-- The quotes that literals need. -/
def quotesOf (literals : List (List α)) : ℕ := (literals.map (quotes quote)).sum

/-- The quotes that a reader has met. -/
def met (r : Reader α) : ℕ :=
  (r.statements.map (quotesOf quote)).sum + quotesOf quote r.literals +
    match r.mode with
    | .outside => 0
    | .inside literal => 1 + 2 * literal.count quote
    | .closing literal => quotes quote literal

variable {quote}

theorem met_stepOutside (literals : List (List α)) (read : List (List (List α))) (a : α) :
    met quote (stepOutside quote stop literals read a) =
      met quote ⟨.outside, literals, read⟩ + if a = quote then 1 else 0 := by
  rw [stepOutside]
  split
  · simp [met]
  split
  · simp [met, quotesOf]
  · simp

theorem met_step (r : Reader α) (a : α) :
    met quote (step quote stop r a) = met quote r + if a = quote then 1 else 0 := by
  match r with
  | ⟨.outside, literals, read⟩ => exact met_stepOutside literals read a
  | ⟨.inside literal, literals, read⟩ =>
    rw [step]
    split
    · simp only [met, quotes]
      omega
    · next ha => simp [met, List.count_append, ha]
  | ⟨.closing literal, literals, read⟩ =>
    rw [step]
    split
    · simp only [met, quotes, List.count_append, List.count_singleton_self]
      omega
    · next ha =>
      -- the literal is complete: its quotes are counted with the others now
      rw [met_stepOutside, if_neg ha]
      simp [met, quotesOf, Nat.add_assoc]

/-- The literals that are read from a text need no more quotes than the text has. -/
theorem quotes_le (text : List α) :
    ((statements quote stop text).map (quotesOf quote)).sum ≤ text.count quote := by
  have hmet : ∀ (r : Reader α), met quote (text.foldl (step quote stop) r) =
      met quote r + text.count quote := by
    induction text with
    | nil => exact fun r => rfl
    | cons a text ih =>
      intro r
      rw [List.foldl_cons, ih, met_step, List.count_cons]
      simp only [beq_iff_eq]
      omega
  have hstart := hmet start
  have hzero : met quote (start : Reader α) = 0 := rfl
  rw [hzero, Nat.zero_add] at hstart
  rw [statements, ← hstart, met]
  omega

end

end Literals
