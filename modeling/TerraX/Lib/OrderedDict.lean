import Mathlib.Data.List.Induction
import Mathlib.Data.List.Nodup

/-!
# Dictionaries in the order of insertion

A dictionary that keeps its entries in the order in which their keys were added. Setting a key that
is there replaces its value in place. Nothing is ever removed.

## Main definitions

- `OrderedDict`, with `set` and `get?`
- `OrderedDict.ofList` — the dictionary after setting the entries of a list one by one
- `OrderedDict.IsLast` — the elements whose settings are not set again

## Main results

- `OrderedDict.keys_ofList`, `OrderedDict.get?_ofList` — its keys are those of the list by first
  appearance, each with its last value
- `OrderedDict.ext_get?` — keys in order and values determine the dictionary
- `OrderedDict.get?_ofList_map_eq_some_iff`, `OrderedDict.ofList_map_eq_iff` — settings made from the
  elements of a list
-/

/-- Entries with distinct keys, in the order in which the keys were added. -/
structure OrderedDict (κ ν : Type*) where
  entries : List (κ × ν)
  nodup : (entries.map Prod.fst).Nodup

namespace OrderedDict

variable {κ ν : Type*}

/-- The keys in their order. -/
def keys (d : OrderedDict κ ν) : List κ := d.entries.map Prod.fst

def empty : OrderedDict κ ν := ⟨[], List.nodup_nil⟩

@[simp] theorem keys_empty : (empty : OrderedDict κ ν).keys = [] := rfl

variable [DecidableEq κ]

/-- The value of a key. -/
def get? (d : OrderedDict κ ν) (k : κ) : Option ν := d.entries.lookup k

@[simp] theorem get?_empty (k : κ) : (empty : OrderedDict κ ν).get? k = none := rfl

/-- The entries after setting a key: in place if it is there, else at the end. -/
def setEntries (k : κ) (v : ν) : List (κ × ν) → List (κ × ν)
  | [] => [(k, v)]
  | e :: es => if e.1 = k then (k, v) :: es else e :: setEntries k v es

theorem keys_setEntries (k : κ) (v : ν) (es : List (κ × ν)) :
    (setEntries k v es).map Prod.fst =
      if k ∈ es.map Prod.fst then es.map Prod.fst else es.map Prod.fst ++ [k] := by
  induction es with
  | nil => rfl
  | cons e es ih =>
    by_cases he : e.1 = k
    · simp [setEntries, he]
    · rw [setEntries, if_neg he, List.map_cons, ih]
      by_cases hk : k ∈ es.map Prod.fst
      · simp [hk]
      · have hnot : k ∉ (e :: es).map Prod.fst := by
          rw [List.map_cons, List.mem_cons, not_or]
          exact ⟨Ne.symm he, hk⟩
        rw [if_neg hk, if_neg hnot]
        rfl

theorem lookup_cons_ite (k : κ) (e : κ × ν) (es : List (κ × ν)) :
    (e :: es).lookup k = if k = e.1 then some e.2 else es.lookup k := by
  rw [List.lookup_cons]
  by_cases hk : k = e.1
  · rw [if_pos hk, beq_iff_eq.mpr hk]
  · rw [if_neg hk, beq_false_of_ne hk]

theorem lookup_setEntries (k k' : κ) (v : ν) (es : List (κ × ν)) :
    (setEntries k v es).lookup k' = if k' = k then some v else es.lookup k' := by
  induction es with
  | nil => exact lookup_cons_ite k' (k, v) []
  | cons e es ih =>
    by_cases he : e.1 = k
    · rw [setEntries, if_pos he, lookup_cons_ite, lookup_cons_ite, he]
      by_cases hk : k' = k
      · rw [if_pos hk, if_pos hk]
      · rw [if_neg hk, if_neg hk, if_neg hk]
    · rw [setEntries, if_neg he, lookup_cons_ite, lookup_cons_ite, ih]
      by_cases hk : k' = k
      · have hne : k' ≠ e.1 := fun heq => he (heq.symm.trans hk)
        rw [if_neg hne, if_pos hk, if_pos hk]
      · rw [if_neg hk, if_neg hk]

/-- Set the value of a key. -/
def set (d : OrderedDict κ ν) (k : κ) (v : ν) : OrderedDict κ ν where
  entries := setEntries k v d.entries
  nodup := by
    rw [keys_setEntries]
    split
    · exact d.nodup
    · next hk => exact List.nodup_append'.mpr ⟨d.nodup, List.nodup_singleton k,
        List.disjoint_singleton.mpr hk⟩

theorem keys_set (d : OrderedDict κ ν) (k : κ) (v : ν) :
    (d.set k v).keys = if k ∈ d.keys then d.keys else d.keys ++ [k] := keys_setEntries k v d.entries

theorem get?_set (d : OrderedDict κ ν) (k k' : κ) (v : ν) :
    (d.set k v).get? k' = if k' = k then some v else d.get? k' := lookup_setEntries k k' v d.entries

/-! ### Entries, keys and values -/

theorem lookup_of_nodup {es : List (κ × ν)} (h : (es.map Prod.fst).Nodup) {e : κ × ν}
    (he : e ∈ es) : es.lookup e.1 = some e.2 := by
  induction es with
  | nil => cases he
  | cons e' es ih =>
    rw [List.map_cons, List.nodup_cons] at h
    rcases List.mem_cons.mp he with rfl | he
    · rw [lookup_cons_ite, if_pos rfl]
    · have hne : e.1 ≠ e'.1 := fun heq => h.1 (heq ▸ List.mem_map_of_mem he)
      rw [lookup_cons_ite, if_neg hne]
      exact ih h.2 he

/-- The entries are the keys with their values. -/
theorem mem_entries_iff {d : OrderedDict κ ν} {k : κ} {v : ν} :
    (k, v) ∈ d.entries ↔ d.get? k = some v := by
  refine ⟨fun h => lookup_of_nodup d.nodup h, fun h => ?_⟩
  obtain ⟨front, back, heq, -⟩ := List.lookup_eq_some_iff.mp h
  rw [heq]
  simp

theorem mem_keys_iff {d : OrderedDict κ ν} {k : κ} : k ∈ d.keys ↔ (d.get? k).isSome := by
  rw [keys, List.mem_map, Option.isSome_iff_exists]
  constructor
  · rintro ⟨⟨_, v⟩, he, rfl⟩
    exact ⟨v, mem_entries_iff.mp he⟩
  · rintro ⟨v, hv⟩
    exact ⟨(k, v), mem_entries_iff.mpr hv, rfl⟩

/-- Keys in order and values determine a dictionary. -/
theorem ext_get? {d d' : OrderedDict κ ν} (hkeys : d.keys = d'.keys)
    (hget : ∀ k ∈ d.keys, d.get? k = d'.get? k) : d = d' := by
  have hzip : ∀ d : OrderedDict κ ν, d.entries.map some =
      d.keys.map fun k => (d.get? k).map fun v => (k, v) := by
    intro d
    rw [keys, List.map_map]
    refine List.map_congr_left fun e he => ?_
    have hvalue : d.get? e.1 = some e.2 := mem_entries_iff.mp he
    simp [hvalue]
  have hentries : d.entries.map some = d'.entries.map some := by
    rw [hzip d, hzip d', ← hkeys]
    exact List.map_congr_left fun k hk => by rw [hget k hk]
  obtain ⟨es, hes⟩ := d
  obtain ⟨es', hes'⟩ := d'
  obtain rfl : es = es' := List.map_injective_iff.mpr (fun _ _ => Option.some.inj) hentries
  rfl

/-! ### A list of settings -/

/-- The dictionary after the settings of a list. -/
def ofList (l : List (κ × ν)) : OrderedDict κ ν := l.foldl (fun d e => d.set e.1 e.2) empty

theorem ofList_concat (l : List (κ × ν)) (e : κ × ν) :
    ofList (l ++ [e]) = (ofList l).set e.1 e.2 := by
  rw [ofList, List.foldl_append]
  rfl

theorem eraseDups_concat (l : List κ) (k : κ) :
    (l ++ [k]).eraseDups = if k ∈ l then l.eraseDups else l.eraseDups ++ [k] := by
  rw [List.eraseDups_append]
  by_cases hk : k ∈ l
  · simp [hk, List.removeAll]
  · simp [hk, List.removeAll, List.eraseDups_cons]

/-- The keys stand in the order of their first appearance, -/
theorem keys_ofList (l : List (κ × ν)) : (ofList l).keys = (l.map Prod.fst).eraseDups := by
  induction l using List.reverseRecOn with
  | nil => rfl
  | append_singleton l e ih =>
    rw [ofList_concat, keys_set, ih, List.map_append, List.map_singleton, eraseDups_concat]
    simp only [List.mem_eraseDups]

/-- and each has its last value. -/
theorem get?_ofList (l : List (κ × ν)) (k : κ) : (ofList l).get? k = l.reverse.lookup k := by
  induction l using List.reverseRecOn with
  | nil => rfl
  | append_singleton l e ih =>
    rw [ofList_concat, get?_set, ih, List.reverse_append, List.reverse_singleton,
      List.singleton_append, lookup_cons_ite]

/-- The values may be made from others. -/
theorem get?_ofList_map_snd {ν' : Type*} (f : ν → ν') (l : List (κ × ν)) (k : κ) :
    (ofList (l.map fun e => (e.1, f e.2))).get? k =
      (l.reverse.find? fun e => e.1 = k).map fun e => f e.2 := by
  rw [get?_ofList, ← List.map_reverse]
  induction l.reverse with
  | nil => rfl
  | cons e es ih =>
    rw [List.map_cons, lookup_cons_ite, ih, List.find?_cons]
    by_cases hk : k = e.1
    · simp [hk]
    · simp [hk, Ne.symm hk]

/-- The last element of a list with its key. -/
def IsLast {α : Type*} (key : α → κ) (as : List α) (a : α) : Prop :=
  ∃ front back, as = front ++ a :: back ∧ key a ∉ back.map key

/-- The settings may be those of the elements of a list: the last one with a key counts. -/
theorem get?_ofList_map_eq_some_iff {α : Type*} {as : List α} {key : α → κ} {value : α → ν} {k : κ}
    {v : ν} : (ofList (as.map fun a => (key a, value a))).get? k = some v ↔
      ∃ a, IsLast key as a ∧ key a = k ∧ value a = v := by
  rw [get?_ofList, List.lookup_eq_some_iff]
  constructor
  · rintro ⟨l₁, l₂, heq, hnot⟩
    have hsplit : as.map (fun a => (key a, value a)) = l₂.reverse ++ (k, v) :: l₁.reverse := by
      rw [← List.reverse_reverse (as.map _), heq]
      simp
    obtain ⟨front, rest, rfl, -, hrest⟩ := List.map_eq_append_iff.mp hsplit
    obtain ⟨a, back, rfl, ha, hback⟩ := List.map_eq_cons_iff.mp hrest
    obtain ⟨rfl, rfl⟩ := Prod.mk.inj ha
    refine ⟨a, ⟨front, back, rfl, fun hmem => ?_⟩, rfl, rfl⟩
    obtain ⟨b, hb, hkey⟩ := List.mem_map.mp hmem
    have hmem : (key b, value b) ∈ l₁ := by
      rw [← List.mem_reverse, ← hback]
      exact List.mem_map_of_mem hb
    exact bne_iff_ne.mp (hnot _ hmem) hkey.symm
  · rintro ⟨a, ⟨front, back, rfl, hnot⟩, rfl, rfl⟩
    refine ⟨(back.map fun a => (key a, value a)).reverse,
      (front.map fun a => (key a, value a)).reverse, by simp, fun e he => ?_⟩
    obtain ⟨b, hb, rfl⟩ := List.mem_map.mp (List.mem_reverse.mp he)
    exact bne_iff_ne.mpr fun heq => hnot (heq ▸ List.mem_map_of_mem hb)

/-- Settings of the same keys make the same dictionary exactly if they set the same last values. -/
theorem ofList_map_eq_iff {α : Type*} {as : List α} {key : α → κ} {value value' : α → ν} :
    ofList (as.map fun a => (key a, value a)) = ofList (as.map fun a => (key a, value' a)) ↔
      ∀ a, IsLast key as a → value a = value' a := by
  have hkeys : ∀ value : α → ν,
      (ofList (as.map fun a => (key a, value a))).keys = (as.map key).eraseDups := by
    intro value
    rw [keys_ofList, List.map_map]
    rfl
  constructor
  · intro heq a ha
    have hget : ∀ value : α → ν,
        (ofList (as.map fun a => (key a, value a))).get? (key a) = some (value a) :=
      fun value => get?_ofList_map_eq_some_iff.mpr ⟨a, ha, rfl, rfl⟩
    have hvalue := hget value
    rw [heq, hget value'] at hvalue
    exact (Option.some.inj hvalue).symm
  · intro h
    refine ext_get? ((hkeys value).trans (hkeys value').symm) fun k hk => ?_
    obtain ⟨v, hv⟩ := Option.isSome_iff_exists.mp (mem_keys_iff.mp hk)
    obtain ⟨a, ha, rfl, rfl⟩ := get?_ofList_map_eq_some_iff.mp hv
    rw [hv, eq_comm]
    exact get?_ofList_map_eq_some_iff.mpr ⟨a, ha, rfl, (h a ha).symm⟩

end OrderedDict
