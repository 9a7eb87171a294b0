import Mathlib.Data.List.Nodup
import Mathlib.Data.List.Pairwise

/-!
# Names in scopes

A name of a scope is written in one flat list of names as the scope, a separator and the name.
Scopes and names may hold the separator themselves, so that a name of one scope may read as one of
another.

## Main definitions

- `Qualified.join` — a name with its scope
- `Qualified.Clash` — a name of one scope reads as one of a longer scope

## Main results

- `Qualified.join_eq_iff` — when two names with their scopes are the same
- `Qualified.nodup_iff` — when the names of different scopes are all different
-/

namespace Qualified

variable {α : Type*} {sep : α}

/-- A name with its scope. -/
def join (sep : α) (scope name : List α) : List α := scope ++ sep :: name

@[simp] theorem join_right_inj {scope name name' : List α} :
    join sep scope name = join sep scope name' ↔ name = name' := by
  rw [join, join, List.append_right_inj, List.cons_inj_right]

/-- A name reads as two, in one scope and in another one that starts with it. -/
theorem join_join (scope x name : List α) :
    join sep scope (join sep x name) = join sep (join sep scope x) name := by
  simp only [join, List.append_assoc, List.cons_append]

theorem join_eq_iff {scope name scope' name' : List α} :
    join sep scope name = join sep scope' name' ↔
      (scope = scope' ∧ name = name') ∨
      (∃ x, scope' = join sep scope x ∧ name = join sep x name') ∨
      ∃ x, scope = join sep scope' x ∧ name' = join sep x name := by
  constructor
  · intro h
    rcases List.append_eq_append_iff.mp h with ⟨l, hscope, hname⟩ | ⟨l, hscope, hname⟩
    · rcases l with - | ⟨c, x⟩
      · rw [List.append_nil] at hscope
        exact .inl ⟨hscope.symm, (List.cons.inj hname).2⟩
      · obtain ⟨rfl, htail⟩ := List.cons.inj hname
        exact .inr (.inl ⟨x, hscope, htail⟩)
    · rcases l with - | ⟨c, x⟩
      · rw [List.append_nil] at hscope
        exact .inl ⟨hscope, (List.cons.inj hname).2.symm⟩
      · obtain ⟨rfl, htail⟩ := List.cons.inj hname
        exact .inr (.inr ⟨x, hscope, htail⟩)
  · rintro (⟨rfl, rfl⟩ | ⟨x, rfl, rfl⟩ | ⟨x, rfl, rfl⟩)
    · rfl
    · exact join_join _ _ _
    · exact (join_join _ _ _).symm

/-- A name of the scope `s` reads as one of the longer scope `t`. -/
def Clash (sep : α) (s t : List α × List (List α)) : Prop :=
  ∃ x, t.1 = join sep s.1 x ∧ ∃ name ∈ t.2, join sep x name ∈ s.2

/-- The names of a scope with the scope. -/
def joined (sep : α) (s : List α × List (List α)) : List (List α) := s.2.map (join sep s.1)

theorem disjoint_joined_iff {s t : List α × List (List α)} (h : s.1 ≠ t.1) :
    (joined sep s).Disjoint (joined sep t) ↔ ¬ Clash sep s t ∧ ¬ Clash sep t s := by
  constructor
  · intro hdisj
    constructor
    · rintro ⟨x, ht, name, hname, hmem⟩
      refine hdisj (List.mem_map_of_mem hmem) ?_
      rw [join_join, ← ht]
      exact List.mem_map_of_mem hname
    · rintro ⟨x, hs, name, hname, hmem⟩
      refine hdisj ?_ (List.mem_map_of_mem hmem)
      rw [join_join, ← hs]
      exact List.mem_map_of_mem hname
  · rintro ⟨hst, hts⟩ _ hs ht
    obtain ⟨name, hname, rfl⟩ := List.mem_map.mp hs
    obtain ⟨name', hname', heq⟩ := List.mem_map.mp ht
    rcases join_eq_iff.mp heq.symm with ⟨hscope, -⟩ | ⟨x, hscope, rfl⟩ | ⟨x, hscope, rfl⟩
    · exact h hscope
    · exact hst ⟨x, hscope, name', hname', hname⟩
    · exact hts ⟨x, hscope, name, hname, hname'⟩

/-- A scope is not longer than itself. -/
theorem not_clash_self (s : List α × List (List α)) : ¬ Clash sep s s := by
  rintro ⟨x, hscope, -⟩
  have hlen := congrArg List.length hscope
  rw [join, List.length_append, List.length_cons] at hlen
  omega

/-- The names of different scopes are all different exactly if those of each scope are and none
reads as one of a longer scope. -/
theorem nodup_iff {scopes : List (List α × List (List α))} (h : (scopes.map Prod.fst).Nodup) :
    (scopes.flatMap (joined sep)).Nodup ↔
      (∀ s ∈ scopes, s.2.Nodup) ∧ ∀ s ∈ scopes, ∀ t ∈ scopes, ¬ Clash sep s t := by
  have hne : scopes.Pairwise fun s t => s.1 ≠ t.1 := List.pairwise_map.mp h
  rw [List.nodup_flatMap]
  refine and_congr ?_ ?_
  · refine forall₂_congr fun s _ => ?_
    exact List.nodup_map_iff fun _ _ => join_right_inj.mp
  · constructor
    · intro hdisj
      have hclash := hne.and hdisj
      have hst : scopes.Pairwise fun s t => ¬ Clash sep s t :=
        hclash.imp fun h => ((disjoint_joined_iff h.1).mp h.2).1
      have hts : scopes.Pairwise (flip fun s t => ¬ Clash sep s t) :=
        hclash.imp fun h => ((disjoint_joined_iff h.1).mp h.2).2
      intro s hs t ht
      exact List.Pairwise.forall_of_forall_of_flip (fun s _ => not_clash_self s) hst hts hs ht
    · intro hclash
      refine hne.imp_of_mem fun hs ht hst => ?_
      exact (disjoint_joined_iff hst).mpr ⟨hclash _ hs _ ht, hclash _ ht _ hs⟩

end Qualified
