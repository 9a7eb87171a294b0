import Mathlib.Data.List.Perm.Basic

/-!
# Directory trees

A directory is the list of its entries in the order in which the system lists them. Its files and
its folders have names, and a folder has a listing of its own.

## Main definitions

- `Listing` — a directory tree
- `Listing.files` — the files in the folders that a search descends into
- `Listing.subfolders` — the folders at any depth
- `Listing.fileNames`, `Listing.folders` — the files and folders right in a directory
- `Listing.height`, `Listing.Distinct`, `Listing.Unbranched`

## Main results

- `Listing.folders_induction` — induction over the folders of a directory
- `Listing.files_perm`, `Listing.subfolders_eq` — the whole tree from the directory and its folders
-/

/-- A directory tree, with the entries of each directory in order. -/
inductive Listing (ν : Type)
  | nil
  | file (name : ν) (rest : Listing ν)
  | folder (name : ν) (sub rest : Listing ν)
deriving DecidableEq, Repr

namespace Listing

variable {ν π : Type}

/-- Among elements that all differ, the first that is the same as one of them is that one. -/
theorem find?_of_pairwise {same : ν → ν → Bool} {l : List ν}
    (h : l.Pairwise fun a b => ¬ same a b = true) {a : ν} (ha : a ∈ l) (hself : same a a = true) :
    l.find? (fun b => same b a) = some a := by
  obtain ⟨front, back, rfl⟩ := List.append_of_mem ha
  refine List.find?_eq_some_iff_append.mpr ⟨hself, front, back, rfl, fun b hb => ?_⟩
  simpa using (List.pairwise_append.mp h).2.2 b hb a List.mem_cons_self

/-- The files in the folders that a search descends into, with the paths of their folders. -/
def files (descend : ν → Bool) (join : π → ν → π) : π → Listing ν → List (π × ν)
  | _, nil => []
  | path, file name rest => (path, name) :: files descend join path rest
  | path, folder name sub rest =>
    (if descend name then files descend join (join path name) sub else []) ++
      files descend join path rest

variable {descend : ν → Bool} {join : π → ν → π}

@[simp] theorem files_nil (path : π) : files descend join path nil = [] := rfl

@[simp] theorem files_file (path : π) (name : ν) (rest : Listing ν) :
    files descend join path (file name rest) = (path, name) :: files descend join path rest := rfl

theorem files_folder (path : π) (name : ν) (sub rest : Listing ν) :
    files descend join path (folder name sub rest) =
      (if descend name then files descend join (join path name) sub else []) ++
        files descend join path rest := rfl

/-- What holds of the files of a directory holds of those of each folder descended into, and of
those of the entries behind it. -/
theorem forall_files_folder {path : π} {name : ν} {sub rest : Listing ν} {P : π × ν → Prop} :
    (∀ f ∈ files descend join path (folder name sub rest), P f) ↔
      (descend name → ∀ f ∈ files descend join (join path name) sub, P f) ∧
        ∀ f ∈ files descend join path rest, P f := by
  rw [files_folder, List.forall_mem_append]
  refine and_congr_left fun _ => ?_
  cases descend name <;> simp

/-- The folders at any depth, with their paths. -/
def subfolders (join : π → ν → π) : π → Listing ν → List π
  | _, nil => []
  | path, file _ rest => subfolders join path rest
  | path, folder name sub rest =>
    join path name :: subfolders join (join path name) sub ++ subfolders join path rest

/-- The files right in a directory. -/
def fileNames : Listing ν → List ν
  | nil => []
  | file name rest => name :: rest.fileNames
  | folder _ _ rest => rest.fileNames

/-- The folders right in a directory. -/
def folders : Listing ν → List (ν × Listing ν)
  | nil => []
  | file _ rest => rest.folders
  | folder name sub rest => (name, sub) :: rest.folders

/-- How deep the folders are nested. -/
def height : Listing ν → ℕ
  | nil => 0
  | file _ rest => rest.height
  | folder _ sub rest => max (sub.height + 1) rest.height

/-- No two folders of a directory have the same name. -/
def Distinct (same : ν → ν → Prop) : Listing ν → Prop
  | nil => True
  | file _ rest => rest.Distinct same
  | folder name sub rest =>
    (∀ f ∈ rest.folders, ¬ same name f.1) ∧ sub.Distinct same ∧ rest.Distinct same

/-- No directory has more than one folder. -/
def Unbranched : Listing ν → Prop
  | nil => True
  | file _ rest => rest.Unbranched
  | folder _ sub rest => rest.folders = [] ∧ sub.Unbranched

theorem height_lt {L : Listing ν} {f : ν × Listing ν} (hf : f ∈ L.folders) :
    f.2.height < L.height := by
  induction L with
  | nil => cases hf
  | file _ rest ih => exact ih hf
  | folder name sub rest _ ih =>
    rw [height]
    rcases List.mem_cons.mp hf with rfl | hf
    · exact Nat.lt_of_lt_of_le (Nat.lt_succ_self _) (Nat.le_max_left _ _)
    · exact Nat.lt_of_lt_of_le (ih hf) (Nat.le_max_right _ _)

/-- What holds of a directory if it holds of its folders holds of all directories. -/
theorem folders_induction {P : Listing ν → Prop} (h : ∀ L, (∀ f ∈ L.folders, P f.2) → P L)
    (L : Listing ν) : P L := by
  induction hn : L.height using Nat.strongRecOn generalizing L with
  | _ n ih =>
    subst hn
    exact h L fun f hf => ih f.2.height (height_lt hf) f.2 rfl

theorem Distinct.of_mem {same : ν → ν → Prop} {L : Listing ν} (h : L.Distinct same)
    {f : ν × Listing ν} (hf : f ∈ L.folders) : f.2.Distinct same := by
  induction L with
  | nil => cases hf
  | file _ rest ih => exact ih h hf
  | folder name sub rest _ ih =>
    rcases List.mem_cons.mp hf with rfl | hf
    · exact h.2.1
    · exact ih h.2.2 hf

theorem Distinct.pairwise {same : ν → ν → Prop} {L : Listing ν} (h : L.Distinct same) :
    L.folders.Pairwise fun f f' => ¬ same f.1 f'.1 := by
  induction L with
  | nil => exact .nil
  | file _ rest ih => exact ih h
  | folder name sub rest _ ih => exact .cons h.1 (ih h.2.2)

/-- A directory is unbranched if it has at most one folder, and that one is unbranched. -/
theorem unbranched_iff {L : Listing ν} :
    L.Unbranched ↔ L.folders.length ≤ 1 ∧ ∀ f ∈ L.folders, f.2.Unbranched := by
  induction L with
  | nil => simp [Unbranched, folders]
  | file _ rest ih => exact ih
  | folder name sub rest _ ih =>
    rw [Unbranched, folders, List.length_cons, List.forall_mem_cons, ← List.length_eq_zero_iff]
    constructor
    · rintro ⟨hrest, hsub⟩
      refine ⟨by omega, hsub, ?_⟩
      rw [List.length_eq_zero_iff.mp hrest]
      simp
    · rintro ⟨hlen, hsub, -⟩
      exact ⟨by omega, hsub⟩

/-- An unbranched tree is a chain: its directories have no folder, or one that is unbranched. -/
theorem unbranched_induction {P : (L : Listing ν) → L.Unbranched → Prop}
    (last : ∀ L h, L.folders = [] → P L h)
    (chain : ∀ L f h hf, L.folders = [f] → P f.2 hf → P L h) (L : Listing ν) (h : L.Unbranched) :
    P L h := by
  induction L using folders_induction with
  | h L ih =>
    obtain ⟨hlen, hsub⟩ := unbranched_iff.mp h
    cases hfolders : L.folders with
    | nil => exact last L h hfolders
    | cons f fs =>
      have hf : f ∈ L.folders := by rw [hfolders]; exact List.mem_cons_self
      have hfs : fs = [] := by
        rw [hfolders, List.length_cons] at hlen
        exact List.length_eq_zero_iff.mp (by omega)
      exact chain L f h (hsub f hf) (by rw [hfolders, hfs]) (ih f hf (hsub f hf))

theorem subfolders_eq (path : π) (L : Listing ν) :
    subfolders join path L =
      L.folders.flatMap fun f => join path f.1 :: subfolders join (join path f.1) f.2 := by
  induction L with
  | nil => rfl
  | file _ rest ih => exact ih
  | folder name sub rest _ ih =>
    rw [subfolders, ih]
    rfl

/-- The files of a tree are those of the directory and those of its folders. -/
theorem files_perm (path : π) (L : Listing ν) :
    (files descend join path L).Perm
      (L.fileNames.map (fun name => (path, name)) ++
        L.folders.flatMap fun f =>
          if descend f.1 then files descend join (join path f.1) f.2 else []) := by
  induction L with
  | nil => rfl
  | file name rest ih => exact ih.cons _
  | folder name sub rest _ ih =>
    rw [files_folder, folders, List.flatMap_cons, fileNames]
    refine (ih.append_left _).trans ?_
    rw [← List.append_assoc, ← List.append_assoc]
    exact List.perm_append_comm.append_right _

end Listing
