import TerraX.Lib.Listing

/-!
# Directory trees with contents

A directory holds files with their contents and folders with their entries. Names are compared by a
key, as where upper and lower case letters are the same. A path is the list of the names on the way
to an entry.

## Main definitions

- `FileTree` — a directory tree with contents, `FileTree.listing` — what a system lists of it
- `FileTree.fileAt`, `FileTree.folderAt` — what a path leads to
- `FileTree.write` — to create a file or to replace its content
- `FileTree.createFolders` — to create a folder, with those on its path

## Main results

- `FileTree.fileAt_write`, `FileTree.isSome_folderAt_write`, `FileTree.folderAt_write_elsewhere`
- `FileTree.fileAt_createFolders`, `FileTree.isSome_folderAt_createFolders`,
  `FileTree.folderAt_createFolders_elsewhere`
- `FileTree.isSome_write_iff`, `FileTree.isSome_createFolders` — when this can be done
-/

/-- A directory tree with the contents of its files. -/
inductive FileTree (ν γ : Type)
  | nil
  | file (name : ν) (content : γ) (rest : FileTree ν γ)
  | folder (name : ν) (sub rest : FileTree ν γ)

namespace FileTree

variable {ν γ κ : Type}

/-- What a system lists of a tree. -/
def listing : FileTree ν γ → Listing ν
  | nil => .nil
  | file name _ rest => .file name rest.listing
  | folder name sub rest => .folder name sub.listing rest.listing

section

variable [DecidableEq κ] (key : ν → κ)

/-- The content of a file of a directory. -/
def file? (k : κ) : FileTree ν γ → Option γ
  | nil => none
  | file name content rest => if key name = k then some content else rest.file? k
  | folder _ _ rest => rest.file? k

/-- A folder of a directory. -/
def folder? (k : κ) : FileTree ν γ → Option (FileTree ν γ)
  | nil => none
  | file _ _ rest => rest.folder? k
  | folder name sub rest => if key name = k then some sub else rest.folder? k

/-- To replace the content of a file of a directory, or to add the file. -/
def setFile (name : ν) (content : γ) : FileTree ν γ → FileTree ν γ
  | nil => file name content nil
  | file name' content' rest =>
    if key name' = key name then file name' content rest
    else file name' content' (rest.setFile name content)
  | folder name' sub rest => folder name' sub (rest.setFile name content)

/-- To replace a folder of a directory, or to add it. -/
def setFolder (name : ν) : FileTree ν γ → FileTree ν γ → FileTree ν γ
  | nil, sub => folder name sub nil
  | file name' content rest, sub => file name' content (rest.setFolder name sub)
  | folder name' sub' rest, sub =>
    if key name' = key name then folder name' sub rest
    else folder name' sub' (rest.setFolder name sub)

/-- The folder that a path leads to. -/
def folderAt : List κ → FileTree ν γ → Option (FileTree ν γ)
  | [], t => some t
  | k :: ks, t => (t.folder? key k).bind (folderAt ks)

/-- The content of the file that a path leads to. -/
def fileAt : List κ → FileTree ν γ → Option γ
  | [], _ => none
  | [k], t => t.file? key k
  | k :: k' :: ks, t => (t.folder? key k).bind (fileAt (k' :: ks))

/-- To write a file: its folder has to exist, and no folder may have its name. -/
def write : List ν → γ → FileTree ν γ → Option (FileTree ν γ)
  | [], _, _ => none
  | [name], content, t =>
    if (t.folder? key (key name)).isSome then none else some (t.setFile key name content)
  | name :: name' :: names, content, t =>
    (t.folder? key (key name)).bind fun sub =>
      (write (name' :: names) content sub).map fun sub' => t.setFolder key name sub'

/-- To create the folders on a path: no file may have the name of one. -/
def createFolders : List ν → FileTree ν γ → Option (FileTree ν γ)
  | [], t => some t
  | name :: names, t =>
    match t.folder? key (key name) with
    | some sub => (createFolders names sub).map fun sub' => t.setFolder key name sub'
    | none =>
      if (t.file? key (key name)).isSome then none
      else (createFolders names nil).map fun sub' => t.setFolder key name sub'

/-! ### One directory -/

variable {key} {k : κ} {name : ν} {content : γ} {sub t t' : FileTree ν γ}

theorem file?_setFile :
    (t.setFile key name content).file? key k =
      if key name = k then some content else t.file? key k := by
  induction t with
  | nil => rfl
  | file name' content' rest ih =>
    rw [setFile]
    by_cases hname : key name' = key name
    · rw [if_pos hname, file?, file?, hname]
      split <;> rfl
    · rw [if_neg hname, file?, file?, ih]
      by_cases hk : key name = k
      · rw [if_neg (hk ▸ hname), if_pos hk, if_pos hk]
      · rw [if_neg hk, if_neg hk]
  | folder name' sub rest _ ih => exact ih

theorem folder?_setFile : (t.setFile key name content).folder? key k = t.folder? key k := by
  induction t with
  | nil => rfl
  | file name' content' rest ih =>
    rw [setFile]
    split
    · rfl
    · exact ih
  | folder name' sub rest _ ih =>
    rw [setFile, folder?, folder?, ih]

theorem file?_setFolder : (t.setFolder key name sub).file? key k = t.file? key k := by
  induction t with
  | nil => rfl
  | file name' content rest ih =>
    rw [setFolder, file?, file?, ih]
  | folder name' sub' rest _ ih =>
    rw [setFolder]
    split
    · rfl
    · exact ih

theorem folder?_setFolder :
    (t.setFolder key name sub).folder? key k =
      if key name = k then some sub else t.folder? key k := by
  induction t with
  | nil => rfl
  | file name' content rest ih => exact ih
  | folder name' sub' rest _ ih =>
    rw [setFolder]
    by_cases hname : key name' = key name
    · rw [if_pos hname, folder?, folder?, hname]
      split <;> rfl
    · rw [if_neg hname, folder?, folder?, ih]
      by_cases hk : key name = k
      · rw [if_neg (hk ▸ hname), if_pos hk, if_pos hk]
      · rw [if_neg hk, if_neg hk]

/-- What is listed of a folder. -/
theorem find?_folders_listing :
    (t.listing.folders.find? fun f => decide (key f.1 = k)).map Prod.snd =
      (t.folder? key k).map listing := by
  induction t with
  | nil => rfl
  | file name' content rest ih => exact ih
  | folder name' sub' rest _ ih =>
    rw [listing, Listing.folders, List.find?_cons, folder?]
    by_cases hk : key name' = k
    · simp [hk]
    · simp [hk, ih]

/-! ### Paths -/

@[simp] theorem folderAt_nil : t.folderAt key [] = some t := rfl

theorem folderAt_cons {ks : List κ} :
    t.folderAt key (k :: ks) = (t.folder? key k).bind (folderAt key ks) := rfl

theorem folderAt_append {ks ks' : List κ} :
    t.folderAt key (ks ++ ks') = (t.folderAt key ks).bind (folderAt key ks') := by
  induction ks generalizing t with
  | nil => rfl
  | cons k ks ih =>
    rw [List.cons_append, folderAt_cons, folderAt_cons]
    cases t.folder? key k with
    | none => rfl
    | some sub => exact ih

/-- Folders lie in folders. -/
theorem isSome_folderAt_above {ks ks' : List κ} (h : ks' <+: ks)
    (hfolder : (t.folderAt key ks).isSome) : (t.folderAt key ks').isSome := by
  obtain ⟨rest, rfl⟩ := h
  rw [folderAt_append] at hfolder
  cases hks : t.folderAt key ks' with
  | none => simp [hks] at hfolder
  | some sub => rfl

end

section

variable [DecidableEq κ] {key : ν → κ} {names : List ν} {content : γ} {t t' : FileTree ν γ}

/-! ### Writing a file -/

/-- A step of writing: into the folder with a name. -/
theorem write_cons_eq_some {name : ν} (hnames : names ≠ []) :
    t.write key (name :: names) content = some t' ↔
      ∃ sub sub', t.folder? key (key name) = some sub ∧ sub.write key names content = some sub' ∧
        t' = t.setFolder key name sub' := by
  cases names with
  | nil => exact absurd rfl hnames
  | cons name' names =>
    rw [write]
    simp only [Option.bind_eq_some_iff, Option.map_eq_some_iff]
    constructor
    · rintro ⟨sub, hsub, sub', hsub', rfl⟩
      exact ⟨sub, sub', hsub, hsub', rfl⟩
    · rintro ⟨sub, sub', hsub, hsub', rfl⟩
      exact ⟨sub, hsub, sub', hsub', rfl⟩

/-- The last step of writing. -/
theorem write_singleton_eq_some {name : ν} :
    t.write key [name] content = some t' ↔
      t.folder? key (key name) = none ∧ t' = t.setFile key name content := by
  rw [write]
  cases t.folder? key (key name) with
  | none => simp [eq_comm]
  | some sub => simp

/-- Afterwards the file has the new content, and all others have theirs. -/
theorem fileAt_write (h : t.write key names content = some t') (q : List κ) :
    t'.fileAt key q = if names.map key = q then some content else t.fileAt key q := by
  induction names generalizing t t' q with
  | nil => cases h
  | cons name names ih =>
    by_cases hnames : names = []
    · subst hnames
      obtain ⟨-, rfl⟩ := write_singleton_eq_some.mp h
      match q with
      | [] => rfl
      | [k] => simp [fileAt, file?_setFile]
      | k :: k' :: ks => simp [fileAt, folder?_setFile]
    · obtain ⟨sub, sub', hsub, hsub', rfl⟩ := (write_cons_eq_some hnames).mp h
      match q with
      | [] => rfl
      | [k] => simp [fileAt, file?_setFolder, hnames]
      | k :: k' :: ks =>
        rw [fileAt, fileAt, folder?_setFolder, List.map_cons]
        by_cases hk : key name = k
        · subst hk
          rw [if_pos rfl, hsub, Option.bind_some, Option.bind_some, ih hsub']
          simp
        · rw [if_neg hk, if_neg (by simp [hk])]

/-- Writing a file leaves all folders in which it does not lie as they are. -/
theorem folderAt_write_elsewhere (h : t.write key names content = some t') {q : List κ}
    (hq : ¬ q <+: names.map key) : t'.folderAt key q = t.folderAt key q := by
  induction names generalizing t t' q with
  | nil => cases h
  | cons name names ih =>
    cases q with
    | nil => exact absurd List.nil_prefix hq
    | cons k ks =>
      rw [folderAt_cons, folderAt_cons]
      by_cases hnames : names = []
      · subst hnames
        obtain ⟨-, rfl⟩ := write_singleton_eq_some.mp h
        rw [folder?_setFile]
      · obtain ⟨sub, sub', hsub, hsub', rfl⟩ := (write_cons_eq_some hnames).mp h
        rw [folder?_setFolder]
        by_cases hk : key name = k
        · subst hk
          rw [if_pos rfl, hsub, Option.bind_some, Option.bind_some]
          refine ih hsub' fun hup => hq ?_
          rw [List.map_cons]
          exact List.cons_prefix_cons.mpr ⟨rfl, hup⟩
        · rw [if_neg hk]

/-- Writing a file makes no folder and removes none. -/
theorem isSome_folderAt_write (h : t.write key names content = some t') (q : List κ) :
    (t'.folderAt key q).isSome = (t.folderAt key q).isSome := by
  induction names generalizing t t' q with
  | nil => cases h
  | cons name names ih =>
    cases q with
    | nil => rfl
    | cons k ks =>
      rw [folderAt_cons, folderAt_cons]
      by_cases hnames : names = []
      · subst hnames
        obtain ⟨-, rfl⟩ := write_singleton_eq_some.mp h
        rw [folder?_setFile]
      · obtain ⟨sub, sub', hsub, hsub', rfl⟩ := (write_cons_eq_some hnames).mp h
        rw [folder?_setFolder]
        by_cases hk : key name = k
        · subst hk
          rw [if_pos rfl, hsub]
          exact ih hsub' ks
        · rw [if_neg hk]

/-- A file can be written where its folder exists and no folder has its name. -/
theorem isSome_write_iff :
    (t.write key names content).isSome ↔
      names ≠ [] ∧ (t.folderAt key (names.dropLast.map key)).isSome ∧
        t.folderAt key (names.map key) = none := by
  induction names generalizing t with
  | nil => simp [write]
  | cons name names ih =>
    cases names with
    | nil =>
      rw [write]
      cases hsub : t.folder? key (key name) with
      | none => simp [folderAt_cons, hsub]
      | some sub => simp [folderAt_cons, hsub]
    | cons name' names =>
      rw [write]
      cases hsub : t.folder? key (key name) with
      | none => simp [folderAt_cons, hsub]
      | some sub =>
        rw [Option.bind_some, Option.isSome_map, ih]
        simp [folderAt_cons, hsub]

/-! ### Creating folders -/

/-- A step of creating folders: into the folder with a name, which is empty if it is new. -/
theorem createFolders_cons_eq_some {name : ν}
    (h : t.createFolders key (name :: names) = some t') :
    ∃ sub', ((t.folder? key (key name)).getD nil).createFolders key names = some sub' ∧
      t' = t.setFolder key name sub' := by
  rw [createFolders] at h
  split at h
  · next sub hsub =>
    obtain ⟨sub', hsub', rfl⟩ := Option.map_eq_some_iff.mp h
    rw [hsub]
    exact ⟨sub', hsub', rfl⟩
  · next hsub =>
    split at h
    · cases h
    · obtain ⟨sub', hsub', rfl⟩ := Option.map_eq_some_iff.mp h
      rw [hsub]
      exact ⟨sub', hsub', rfl⟩

/-- There is nothing in a new folder. -/
theorem fileAt_empty (q : List κ) : (nil : FileTree ν γ).fileAt key q = none := by
  match q with
  | [] => rfl
  | [k] => rfl
  | k :: k' :: ks => rfl

/-- Creating folders changes no file. -/
theorem fileAt_createFolders (h : t.createFolders key names = some t') (q : List κ) :
    t'.fileAt key q = t.fileAt key q := by
  induction names generalizing t t' q with
  | nil =>
    cases h
    rfl
  | cons name names ih =>
    obtain ⟨sub', hsub', rfl⟩ := createFolders_cons_eq_some h
    match q with
    | [] => rfl
    | [k] => exact file?_setFolder
    | k :: k' :: ks =>
      rw [fileAt, fileAt, folder?_setFolder]
      by_cases hk : key name = k
      · subst hk
        rw [if_pos rfl, Option.bind_some, ih hsub']
        cases t.folder? key (key name) with
        | none => exact fileAt_empty _
        | some sub => rfl
      · rw [if_neg hk]

/-- Afterwards the folders on the path exist, and those that have existed. -/
theorem isSome_folderAt_createFolders (h : t.createFolders key names = some t') (q : List κ) :
    (t'.folderAt key q).isSome ↔ (t.folderAt key q).isSome ∨ q <+: names.map key := by
  induction names generalizing t t' q with
  | nil =>
    cases h
    rw [List.map_nil, List.prefix_nil]
    refine ⟨Or.inl, fun hq => hq.elim id fun hnil => ?_⟩
    rw [hnil]
    rfl
  | cons name names ih =>
    obtain ⟨sub', hsub', rfl⟩ := createFolders_cons_eq_some h
    cases q with
    | nil => simp
    | cons k ks =>
      rw [folderAt_cons, folderAt_cons, folder?_setFolder, List.map_cons, List.cons_prefix_cons]
      by_cases hk : key name = k
      · subst hk
        rw [if_pos rfl, Option.bind_some, ih hsub', eq_self, true_and]
        cases t.folder? key (key name) with
        | none =>
          -- in a new folder there is only what is created in it
          cases ks with
          | nil => simp
          | cons k' ks => simp [folderAt_cons, folder?]
        | some sub => rfl
      · rw [if_neg hk]
        simp [Ne.symm hk]

/-- Creating folders leaves all folders in which they do not lie as they are. -/
theorem folderAt_createFolders_elsewhere (h : t.createFolders key names = some t')
    {q : List κ} {sub : FileTree ν γ} (hq : t.folderAt key q = some sub)
    (hup : ¬ q <+: names.map key) : t'.folderAt key q = some sub := by
  induction names generalizing t t' q with
  | nil =>
    cases h
    exact hq
  | cons name names ih =>
    obtain ⟨sub', hsub', rfl⟩ := createFolders_cons_eq_some h
    cases q with
    | nil => exact absurd List.nil_prefix hup
    | cons k ks =>
      rw [folderAt_cons] at hq ⊢
      rw [folder?_setFolder]
      by_cases hk : key name = k
      · subst hk
        obtain ⟨old, hold, hks⟩ := Option.bind_eq_some_iff.mp hq
        rw [if_pos rfl, Option.bind_some]
        rw [hold] at hsub'
        refine ih hsub' hks fun hks => hup ?_
        rw [List.map_cons]
        exact List.cons_prefix_cons.mpr ⟨rfl, hks⟩
      · rw [if_neg hk]
        exact hq

/-- Folders can be created where no file has the name of one. -/
theorem isSome_createFolders (h : ∀ q, q <+: names.map key → t.fileAt key q = none) :
    (t.createFolders key names).isSome := by
  induction names generalizing t with
  | nil => rfl
  | cons name names ih =>
    have hname : t.file? key (key name) = none := h [key name] (by simp)
    have hstep : ∀ q, q <+: names.map key →
        ((t.folder? key (key name)).getD nil).fileAt key q = none := by
      intro q hq
      cases hsub : t.folder? key (key name) with
      | none => exact fileAt_empty q
      | some sub =>
        cases q with
        | nil => rfl
        | cons k ks =>
          have hpath := h (key name :: k :: ks) (List.cons_prefix_cons.mpr ⟨rfl, hq⟩)
          rw [fileAt, hsub] at hpath
          exact hpath
    have hcreated := ih hstep
    rw [createFolders]
    split
    · next sub hsub =>
      rw [hsub] at hcreated
      rwa [Option.isSome_map]
    · next hsub =>
      rw [hsub] at hcreated
      rw [if_neg (by simp [hname]), Option.isSome_map]
      exact hcreated

end

end FileTree
