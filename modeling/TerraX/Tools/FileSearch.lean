import TerraX.Lib.CString
import TerraX.Lib.Listing

/-!
# The tools' searches for files

Two tools list the files of a directory tree. `excel2json` passes the path of a directory down its
recursion and rebuilds it in the loop over the folders, so that the path of a second folder starts
with the first one. `DataPoolBuilder` asks each folder for its own path.

## Main definitions

- `directoryInfo` — the directory that a path leads to
- `Excel2json.doSearchFolders`, `Excel2json.doSearchFiles`, `DataPoolBuilder.doSearch`
- `SearchesRight` — both tools return the tree, and ask only for directories that exist

## Main results

- `searchesRight_iff` — they do exactly if no directory has more than one folder
-/

namespace TerraX

open CString

/-- A string. -/
abbrev Text := List Char

/-- A file or folder name. -/
abbrev EntryName := { s : Text // s ≠ [] ∧ '\\' ∉ s }

/-- A way in which a search fails. -/
inductive SearchFault
  /-- `DirectoryNotFoundException`, or `ArgumentException` for an empty path. -/
  | directoryNotFound (path : Text)
  /-- The calls are nested deeper than the depth given to the model. -/
  | tooDeep
deriving DecidableEq, Repr

/-- The names in a path. -/
def components (path : Text) : List Text := (path.splitOn '\\').filter (· ≠ [])

/-- Names are compared up to case. -/
def sameName (fold : Char → Char) (a b : Text) : Bool := a.map fold == b.map fold

/-- The folder with a name. -/
def subfolder (fold : Char → Char) (folder : Listing EntryName) (name : Text) :
    Option (Listing EntryName) :=
  (folder.folders.find? fun f => sameName fold f.1.val name).map Prod.snd

/-- `new DirectoryInfo(path)`, with what the directory lists. -/
def directoryInfo (fold : Char → Char) (disk : Listing EntryName) (path : Text) :
    Option (Listing EntryName) :=
  if path = [] then none else (components path).foldlM (subfolder fold) disk

/-- `FileInfo.Extension`. -/
def extension (name : EntryName) : Text :=
  match splitLast '.' name.val with
  | some (_, back) => '.' :: back
  | none => []

/-- `Path.GetFileNameWithoutExtension`. -/
def fileNameWithoutExtension (name : EntryName) : Text :=
  match splitLast '.' name.val with
  | some (front, _) => front
  | none => name.val

/-- `file_extension.Equals(".*") || fi.Extension.Equals(file_extension)`. -/
def hasExtension (fileExtension : Text) (name : EntryName) : Bool :=
  fileExtension == ['.', '*'] || extension name == fileExtension

/-- `child_path + di.Name + "\\"`. -/
def joinFolder (childPath : Text) (name : EntryName) : Text := childPath ++ name.val ++ ['\\']

/-- `Exporter.FormatPath` of a folder. -/
def formatPath (path : Text) : Text :=
  if path = [] then path
  else
    let str := path.map fun c => if c = '/' then '\\' else c
    if str.getLast? = some '\\' then str else str ++ ['\\']

section

variable (fold : Char → Char) (disk : Listing EntryName)

namespace Excel2json

/-- The loop over the folders of a directory, in which `child_path` grows. -/
def loopFolders (search : Text → Except SearchFault (List Text)) :
    Text → List EntryName → Except SearchFault (List Text)
  | _, [] => .ok []
  | childPath, name :: names => do
    let childPath := joinFolder childPath name
    let below ← search childPath
    let behind ← loopFolders search childPath names
    .ok (below ++ behind)

/-- `FileSearch.DoSearchFolders`, with a depth for its calls. -/
def doSearchFolders (rootPath : Text) : ℕ → Text → Except SearchFault (List Text)
  | 0, _ => .error .tooDeep
  | depth + 1, childPath =>
    match directoryInfo fold disk (rootPath ++ childPath) with
    | none => .error (.directoryNotFound (rootPath ++ childPath))
    | some folder =>
      loopFolders (fun path => do
        let below ← doSearchFolders rootPath depth path
        .ok (path :: below)) childPath (folder.folders.map Prod.fst)

/-- `FileSearch.DoSearchFiles`, with a depth for its calls. -/
def doSearchFiles (rootPath fileExtension : Text) : ℕ → Text → Except SearchFault (List Text)
  | 0, _ => .error .tooDeep
  | depth + 1, childPath =>
    match directoryInfo fold disk (rootPath ++ childPath) with
    | none => .error (.directoryNotFound (rootPath ++ childPath))
    | some folder => do
      let files := (folder.fileNames.filter (hasExtension fileExtension)).map fun name =>
        childPath ++ fileNameWithoutExtension name
      let below ← loopFolders (doSearchFiles rootPath fileExtension depth) childPath
        (folder.folders.map Prod.fst)
      .ok (files ++ below)

/-- `FileSearch.SearchFoldersInFolder`. -/
def searchFoldersInFolder (depth : ℕ) (rootPath : Text) : Except SearchFault (List Text) :=
  doSearchFolders fold disk rootPath depth []

/-- `FileSearch.SearchFilesInFolder`. -/
def searchFilesInFolder (depth : ℕ) (rootPath fileExtension : Text) :
    Except SearchFault (List Text) :=
  doSearchFiles fold disk rootPath fileExtension depth []

end Excel2json

namespace DataPoolBuilder

/-- `FullName` of an entry of a directory. -/
def fullName (folderPath : Text) (name : EntryName) : Text :=
  if folderPath.getLast? = some '\\' then folderPath ++ name.val
  else folderPath ++ '\\' :: name.val

/-- `FileSearch.DoSearch`, with a depth for its calls. -/
def doSearch (fileExtension : Text) : ℕ → Text → Except SearchFault (List Text)
  | 0, _ => .error .tooDeep
  | depth + 1, folderPath =>
    match directoryInfo fold disk folderPath with
    | none => .error (.directoryNotFound folderPath)
    | some folder => do
      let files := (folder.fileNames.filter (hasExtension fileExtension)).map (fullName folderPath)
      let below ← (folder.folders.map Prod.fst).mapM fun name =>
        doSearch fileExtension depth (fullName folderPath name)
      .ok (files ++ below.flatten)

/-- `FileSearch.SearchFolder`. -/
def searchFolder (depth : ℕ) (folderPath fileExtension : Text) : Except SearchFault (List Text) :=
  doSearch fold disk fileExtension depth folderPath

end DataPoolBuilder

/-- The paths of the folders of a tree, from its root. -/
def folderPaths (tree : Listing EntryName) : List Text := tree.subfolders joinFolder []

/-- The files of a tree with an extension, with the paths of their folders from its root. -/
def filesWith (fileExtension : Text) (childPath : Text) (tree : Listing EntryName) :
    List (Text × EntryName) :=
  (tree.files (fun _ => true) joinFolder childPath).filter fun f => hasExtension fileExtension f.2

/-- Both tools return what is in the tree, each once, and find all directories they ask for. -/
structure SearchesRight (rootPath : Text) (tree : Listing EntryName) : Prop where
  folders : ∃ depth out, Excel2json.searchFoldersInFolder fold disk depth rootPath = .ok out ∧
    out.Perm (folderPaths tree)
  files : ∀ fileExtension, ∃ depth out,
    Excel2json.searchFilesInFolder fold disk depth rootPath fileExtension = .ok out ∧
      out.Perm ((filesWith fileExtension [] tree).map fun f => f.1 ++ fileNameWithoutExtension f.2)
  agree : ∀ fileExtension, ∃ depth out,
    DataPoolBuilder.searchFolder fold disk depth rootPath fileExtension = .ok out ∧
      out.Perm ((filesWith fileExtension [] tree).map fun f => rootPath ++ (f.1 ++ f.2.val))

/-! ### Paths -/

theorem bind_ok_iff {α β : Type} {x : Except SearchFault α} {f : α → Except SearchFault β} {b : β} :
    (x >>= f) = .ok b ↔ ∃ a, x = .ok a ∧ f a = .ok b := by
  cases x with
  | error e => exact iff_of_false (fun h => by cases h) fun ⟨_, h, _⟩ => by cases h
  | ok a => exact ⟨fun h => ⟨a, rfl, h⟩, fun ⟨_, h, hf⟩ => by cases h; exact hf⟩

theorem components_append (a b : Text) :
    components (a ++ '\\' :: b) = components a ++ components b := by
  rw [components, List.splitOn_append_cons_of_beq _ _ (beq_self_eq_true _), List.filter_append]
  rfl

theorem components_nil : components [] = [] := rfl

theorem components_name (name : EntryName) : components name.val = [name.val] := by
  rw [components, List.splitOn_eq_singleton name.property.2, List.filter_singleton]
  simp [name.property.1]

variable {fold disk}

/-- A path with one more name leads to the folder with that name. -/
theorem directoryInfo_extend {path path' : Text} {folder : Listing EntryName} {name : EntryName}
    (h : directoryInfo fold disk path = some folder) (hne : path' ≠ [])
    (hpath : components path' = components path ++ [name.val]) :
    directoryInfo fold disk path' = subfolder fold folder name.val := by
  unfold directoryInfo at h ⊢
  split at h
  · cases h
  · rw [if_neg hne, hpath, List.foldlM_append, h]
    exact bind_pure (subfolder fold folder name.val)

/-- A path that ends with a separator. -/
def Closed (path : Text) : Prop := ∃ base, path = base ++ ['\\']

theorem Closed.joinFolder (rootPath childPath : Text) (name : EntryName) :
    Closed (rootPath ++ joinFolder childPath name) :=
  ⟨rootPath ++ (childPath ++ name.val), by simp [TerraX.joinFolder]⟩

theorem directoryInfo_joinFolder {rootPath childPath : Text} {folder : Listing EntryName}
    (h : directoryInfo fold disk (rootPath ++ childPath) = some folder)
    (hclosed : Closed (rootPath ++ childPath)) (name : EntryName) :
    directoryInfo fold disk (rootPath ++ joinFolder childPath name) =
      subfolder fold folder name.val := by
  obtain ⟨base, hbase⟩ := hclosed
  refine directoryInfo_extend h (by simp [joinFolder]) ?_
  have hpath : rootPath ++ joinFolder childPath name = base ++ '\\' :: (name.val ++ ['\\']) := by
    rw [joinFolder, ← List.append_assoc, ← List.append_assoc, hbase]
    simp
  rw [hpath, hbase, components_append, components_append, components_append, components_name,
    components_nil, List.append_nil, List.append_nil]

theorem directoryInfo_fullName {folderPath : Text} {folder : Listing EntryName}
    (h : directoryInfo fold disk folderPath = some folder) (name : EntryName) :
    directoryInfo fold disk (DataPoolBuilder.fullName folderPath name) =
      subfolder fold folder name.val := by
  have hname := name.property.1
  refine directoryInfo_extend h ?_ ?_
  · rw [DataPoolBuilder.fullName]
    split <;> simp [hname]
  · rw [DataPoolBuilder.fullName]
    split
    · next hlast =>
      obtain ⟨base, rfl⟩ := List.getLast?_eq_some_iff.mp hlast
      rw [List.append_assoc, components_append, List.singleton_append, components_append,
        components_name, components_nil, List.append_nil]
    · rw [components_append, components_name]

/-- Where the names of a directory differ, each leads to its folder. -/
theorem subfolder_eq {folder : Listing EntryName}
    (h : folder.Distinct fun a b => sameName fold a.val b.val = true)
    {f : EntryName × Listing EntryName} (hf : f ∈ folder.folders) :
    subfolder fold folder f.1.val = some f.2 := by
  have hfind := Listing.find?_of_pairwise h.pairwise hf (beq_self_eq_true _)
  exact congrArg (Option.map Prod.snd) hfind

/-- The path of a folder leads to it, where the names differ. -/
theorem directoryInfo_of_mem {rootPath childPath : Text} {tree : Listing EntryName}
    (hdir : directoryInfo fold disk (rootPath ++ childPath) = some tree)
    (hclosed : Closed (rootPath ++ childPath))
    (hdistinct : tree.Distinct fun a b => sameName fold a.val b.val = true)
    {f : EntryName × Listing EntryName} (hf : f ∈ tree.folders) :
    directoryInfo fold disk (rootPath ++ joinFolder childPath f.1) = some f.2 := by
  rw [directoryInfo_joinFolder hdir hclosed, subfolder_eq hdistinct hf]

/-! ### The paths that start with the first folder -/

namespace Excel2json

/-- Everything found in the loop lies in the first folder. -/
theorem loopFolders_prefix {search : Text → Except SearchFault (List Text)}
    (hsearch : ∀ path out, search path = .ok out → ∀ o ∈ out, path <+: o) {childPath : Text}
    {name : EntryName} {names : List EntryName} {out : List Text}
    (h : loopFolders search childPath (name :: names) = .ok out) :
    ∀ o ∈ out, joinFolder childPath name <+: o := by
  induction names generalizing childPath name out with
  | nil =>
    obtain ⟨below, hbelow, h⟩ := bind_ok_iff.mp h
    obtain ⟨behind, hbehind, h⟩ := bind_ok_iff.mp h
    cases hbehind
    cases h
    rw [List.append_nil]
    exact hsearch _ below hbelow
  | cons name' names ih =>
    obtain ⟨below, hbelow, h⟩ := bind_ok_iff.mp h
    obtain ⟨behind, hbehind, h⟩ := bind_ok_iff.mp h
    cases h
    rw [List.forall_mem_append]
    refine ⟨hsearch _ below hbelow, fun o ho => ?_⟩
    -- the path of the second folder was made from that of the first one
    refine List.IsPrefix.trans ?_ (ih hbehind o ho)
    exact ⟨name'.val ++ ['\\'], by simp [joinFolder]⟩

theorem loopFolders_one (search : Text → Except SearchFault (List Text)) (childPath : Text)
    (name : EntryName) : loopFolders search childPath [name] = search (joinFolder childPath name) := by
  rw [loopFolders]
  cases search (joinFolder childPath name) with
  | error fault => rfl
  | ok below => exact congrArg Except.ok (List.append_nil below)

theorem listed_prefix {search : Text → Except SearchFault (List Text)} {path : Text}
    {out : List Text} (h : (do let below ← search path; .ok (path :: below)) = .ok out)
    (hsearch : ∀ below, search path = .ok below → ∀ o ∈ below, path <+: o) :
    ∀ o ∈ out, path <+: o := by
  obtain ⟨below, hbelow, h⟩ := bind_ok_iff.mp h
  cases h
  exact List.forall_mem_cons.mpr ⟨List.prefix_rfl, hsearch below hbelow⟩

/-- What a search below a path finds starts with that path. -/
theorem doSearchFolders_prefix {rootPath childPath : Text} {depth : ℕ} {out : List Text}
    (h : doSearchFolders fold disk rootPath depth childPath = .ok out) :
    ∀ o ∈ out, childPath <+: o := by
  induction depth generalizing childPath out with
  | zero => cases h
  | succ depth ih =>
    rw [doSearchFolders] at h
    split at h
    · cases h
    · next folder _ =>
      cases hnames : folder.folders.map Prod.fst with
      | nil =>
        rw [hnames] at h
        cases h
        simp
      | cons name names =>
        rw [hnames] at h
        have hstarts := loopFolders_prefix (fun path out hout => listed_prefix hout
          fun below hbelow => ih hbelow) h
        intro o ho
        refine List.IsPrefix.trans ?_ (hstarts o ho)
        exact ⟨name.val ++ ['\\'], by simp [joinFolder]⟩

theorem joinFolder_prefix {childPath : Text} {a b : EntryName}
    (h : joinFolder childPath a <+: joinFolder childPath b) : a = b := by
  rw [joinFolder, joinFolder, List.append_assoc, List.append_assoc,
    List.prefix_append_right_inj] at h
  obtain ⟨rest, hrest⟩ := h
  have heq : b.val ++ '\\' :: [] = a.val ++ '\\' :: rest := by
    rw [← hrest]
    simp
  have hsame := (List.append_cons_inj_of_notMem b.property.2 List.not_mem_nil).mp heq
  exact Subtype.ext hsame.1.symm

/-- A search that finds all folders has met no directory with more than one. -/
theorem unbranched_of_perm {rootPath childPath : Text} {tree : Listing EntryName}
    (hdir : directoryInfo fold disk (rootPath ++ childPath) = some tree)
    (hclosed : Closed (rootPath ++ childPath))
    (hdistinct : tree.Distinct fun a b => sameName fold a.val b.val = true) {depth : ℕ}
    {out : List Text} (h : doSearchFolders fold disk rootPath depth childPath = .ok out)
    (hperm : out.Perm (tree.subfolders joinFolder childPath)) : tree.Unbranched := by
  induction tree using Listing.folders_induction generalizing childPath depth out with
  | h tree ih =>
    cases depth with
    | zero => cases h
    | succ depth =>
      rw [doSearchFolders, hdir] at h
      rw [Listing.subfolders_eq] at hperm
      rw [Listing.unbranched_iff]
      have hpairwise := hdistinct.pairwise
      cases hfolders : tree.folders with
      | nil => simp
      | cons f fs =>
        simp only [hfolders, List.map_cons, List.flatMap_cons] at h hperm
        cases fs with
        | nil =>
          have hf : f ∈ tree.folders := by rw [hfolders]; exact List.mem_cons_self
          rw [List.map_nil, loopFolders_one] at h
          obtain ⟨below, hbelow, h⟩ := bind_ok_iff.mp h
          cases h
          rw [List.flatMap_nil, List.append_nil, List.perm_cons] at hperm
          rw [List.forall_mem_singleton]
          have hdir' := directoryInfo_of_mem hdir hclosed hdistinct hf
          exact ⟨le_rfl, ih f hf hdir' (.joinFolder _ _ _) (hdistinct.of_mem hf) hbelow hperm⟩
        | cons f' fs =>
          exfalso
          have hmem : joinFolder childPath f'.1 ∈ out := by
            rw [hperm.mem_iff]
            simp
          have hstarts := loopFolders_prefix (fun path out hout => listed_prefix hout
            fun below hbelow => doSearchFolders_prefix hbelow) h
          have hsame : f.1 = f'.1 := joinFolder_prefix (hstarts _ hmem)
          rw [hfolders] at hpairwise
          refine (List.pairwise_cons.mp hpairwise).1 f' List.mem_cons_self ?_
          rw [hsame]
          exact beq_self_eq_true _

/-! ### Trees without branches -/

/-- Where no directory has more than one folder the path of the loop is that of the folder. -/
theorem doSearchFolders_unbranched {rootPath childPath : Text} {tree : Listing EntryName}
    (hdir : directoryInfo fold disk (rootPath ++ childPath) = some tree)
    (hclosed : Closed (rootPath ++ childPath))
    (hdistinct : tree.Distinct fun a b => sameName fold a.val b.val = true)
    (h : tree.Unbranched) {depth : ℕ} (hdepth : tree.height < depth) :
    doSearchFolders fold disk rootPath depth childPath =
      .ok (tree.subfolders joinFolder childPath) := by
  induction tree, h using Listing.unbranched_induction generalizing childPath depth with
  | last tree _ hfolders =>
    obtain ⟨depth, rfl⟩ : ∃ d, depth = d + 1 := ⟨depth - 1, by omega⟩
    rw [doSearchFolders, hdir, Listing.subfolders_eq]
    simp only [hfolders]
    rfl
  | chain tree f _ _ hfolders ih =>
    obtain ⟨depth, rfl⟩ : ∃ d, depth = d + 1 := ⟨depth - 1, by omega⟩
    have hf : f ∈ tree.folders := by rw [hfolders]; exact List.mem_cons_self
    have hheight : f.2.height < depth := by
      have hlt := Listing.height_lt hf
      omega
    have hbelow := ih (directoryInfo_of_mem hdir hclosed hdistinct hf) (.joinFolder _ _ _)
      (hdistinct.of_mem hf) hheight
    rw [doSearchFolders, hdir, Listing.subfolders_eq]
    simp only [hfolders, List.map_cons, List.map_nil, loopFolders_one, hbelow, List.flatMap_cons,
      List.flatMap_nil, List.append_nil]
    rfl

end Excel2json

/-- The files of a tree are those of the directory and those of its folders. -/
theorem filesWith_perm (fileExtension childPath : Text) (tree : Listing EntryName) :
    (filesWith fileExtension childPath tree).Perm
      ((tree.fileNames.filter (hasExtension fileExtension)).map (fun name => (childPath, name)) ++
        tree.folders.flatMap fun f => filesWith fileExtension (joinFolder childPath f.1) f.2) := by
  have hfiles : (tree.files (fun _ => true) joinFolder childPath).Perm _ :=
    Listing.files_perm childPath tree
  have hperm := hfiles.filter fun f => hasExtension fileExtension f.2
  rw [List.filter_append, List.filter_map, List.filter_flatMap] at hperm
  exact hperm

namespace Excel2json

theorem doSearchFiles_unbranched {rootPath childPath : Text} (fileExtension : Text)
    {tree : Listing EntryName}
    (hdir : directoryInfo fold disk (rootPath ++ childPath) = some tree)
    (hclosed : Closed (rootPath ++ childPath))
    (hdistinct : tree.Distinct fun a b => sameName fold a.val b.val = true)
    (h : tree.Unbranched) {depth : ℕ} (hdepth : tree.height < depth) :
    ∃ out, doSearchFiles fold disk rootPath fileExtension depth childPath = .ok out ∧
      out.Perm ((filesWith fileExtension childPath tree).map fun f =>
        f.1 ++ fileNameWithoutExtension f.2) := by
  induction tree, h using Listing.unbranched_induction generalizing childPath depth with
  | last tree _ hfolders =>
    obtain ⟨depth, rfl⟩ : ∃ d, depth = d + 1 := ⟨depth - 1, by omega⟩
    have hperm := (filesWith_perm fileExtension childPath tree).map fun f =>
      f.1 ++ fileNameWithoutExtension f.2
    rw [List.map_append, List.map_map, hfolders] at hperm
    rw [doSearchFiles, hdir]
    simp only [hfolders]
    exact ⟨_, rfl, hperm.symm⟩
  | chain tree f _ _ hfolders ih =>
    obtain ⟨depth, rfl⟩ : ∃ d, depth = d + 1 := ⟨depth - 1, by omega⟩
    have hf : f ∈ tree.folders := by rw [hfolders]; exact List.mem_cons_self
    have hheight : f.2.height < depth := by
      have hlt := Listing.height_lt hf
      omega
    obtain ⟨below, hbelow, hbelowPerm⟩ := ih (directoryInfo_of_mem hdir hclosed hdistinct hf)
      (.joinFolder _ _ _) (hdistinct.of_mem hf) hheight
    have hperm := (filesWith_perm fileExtension childPath tree).map fun f =>
      f.1 ++ fileNameWithoutExtension f.2
    rw [List.map_append, List.map_map, hfolders, List.flatMap_cons, List.flatMap_nil,
      List.append_nil] at hperm
    rw [doSearchFiles, hdir]
    simp only [hfolders, List.map_cons, List.map_nil, loopFolders_one, hbelow]
    exact ⟨_, rfl, (hbelowPerm.append_left _).trans hperm.symm⟩

end Excel2json

namespace DataPoolBuilder

/-- A loop over folders in which each is searched right. -/
theorem mapM_perm (search : EntryName → Except SearchFault (List Text))
    (g : EntryName × Listing EntryName → List Text) {fs : List (EntryName × Listing EntryName)}
    (h : ∀ f ∈ fs, ∃ out, search f.1 = .ok out ∧ out.Perm (g f)) :
    ∃ outs, (fs.map Prod.fst).mapM search = .ok outs ∧ outs.flatten.Perm (fs.flatMap g) := by
  induction fs with
  | nil => exact ⟨[], rfl, .nil⟩
  | cons f fs ih =>
    obtain ⟨⟨out, hout, hperm⟩, hrest⟩ := List.forall_mem_cons.mp h
    obtain ⟨outs, houts, hperms⟩ := ih hrest
    refine ⟨out :: outs, ?_, ?_⟩
    · rw [List.map_cons, List.mapM_cons, hout, houts]
      rfl
    · rw [List.flatten_cons, List.flatMap_cons]
      exact hperm.append hperms

/-- A search by full names is right for every tree. -/
theorem doSearch_eq {rootPath folderPath childPath : Text} (fileExtension : Text)
    {tree : Listing EntryName} (hdir : directoryInfo fold disk folderPath = some tree)
    (hpath : ∀ name, fullName folderPath name = rootPath ++ (childPath ++ name.val))
    (hdistinct : tree.Distinct fun a b => sameName fold a.val b.val = true) {depth : ℕ}
    (hdepth : tree.height < depth) :
    ∃ out, doSearch fold disk fileExtension depth folderPath = .ok out ∧
      out.Perm ((filesWith fileExtension childPath tree).map fun f =>
        rootPath ++ (f.1 ++ f.2.val)) := by
  induction tree using Listing.folders_induction generalizing folderPath childPath depth with
  | h tree ih =>
    obtain ⟨depth, rfl⟩ : ∃ d, depth = d + 1 := ⟨depth - 1, by omega⟩
    have hperm := (filesWith_perm fileExtension childPath tree).map fun f =>
      rootPath ++ (f.1 ++ f.2.val)
    rw [List.map_append, List.map_map, List.map_flatMap] at hperm
    have hfolder : ∀ f ∈ tree.folders, ∃ out,
        doSearch fold disk fileExtension depth (fullName folderPath f.1) = .ok out ∧
          out.Perm ((filesWith fileExtension (joinFolder childPath f.1) f.2).map fun f' =>
            rootPath ++ (f'.1 ++ f'.2.val)) := by
      intro f hf
      have hlt := Listing.height_lt hf
      refine ih f hf ?_ (fun name => ?_) (hdistinct.of_mem hf) (by omega)
      · rw [directoryInfo_fullName hdir, subfolder_eq hdistinct hf]
      · -- a name is not empty and has no separator, so that its full name is not closed
        have hlast : (fullName folderPath f.1).getLast? ≠ some '\\' := by
          rw [hpath, ← List.append_assoc, List.getLast?_append_of_ne_nil _ f.1.property.1]
          intro heq
          exact f.1.property.2 (List.mem_of_getLast? heq)
        rw [fullName, if_neg hlast, hpath]
        simp [joinFolder]
    obtain ⟨outs, houts, hperms⟩ := mapM_perm
      (fun name => doSearch fold disk fileExtension depth (fullName folderPath name)) _ hfolder
    rw [doSearch, hdir]
    simp only [houts]
    refine ⟨_, rfl, List.Perm.trans ?_ hperm.symm⟩
    rw [funext hpath]
    exact hperms.append_left _

end DataPoolBuilder

/-- A folder's path that is formatted ends with a separator. -/
theorem closed_formatPath {path : Text} (h : formatPath path ≠ []) : Closed (formatPath path) := by
  rw [formatPath] at h ⊢
  split at h
  · contradiction
  · rw [if_neg ‹_›]
    dsimp only
    split
    · next hlast => exact List.getLast?_eq_some_iff.mp hlast
    · exact ⟨_, rfl⟩

/-- From a formatted path both tools search a tree right exactly if no directory of it has more than
one folder. -/
theorem searchesRight_iff {excelPath : Text} {tree : Listing EntryName}
    (hdir : directoryInfo fold disk (formatPath excelPath) = some tree)
    (hdistinct : tree.Distinct fun a b => sameName fold a.val b.val = true) :
    SearchesRight fold disk (formatPath excelPath) tree ↔ tree.Unbranched := by
  have hne : formatPath excelPath ≠ [] := by
    intro hempty
    rw [hempty] at hdir
    cases hdir
  have hclosed := closed_formatPath hne
  rw [← List.append_nil (formatPath excelPath)] at hdir hclosed
  constructor
  · intro h
    obtain ⟨depth, out, hout, hperm⟩ := h.folders
    exact Excel2json.unbranched_of_perm hdir hclosed hdistinct hout hperm
  · intro h
    have hdepth : tree.height < tree.height + 1 := Nat.lt_succ_self _
    refine ⟨⟨_, _, Excel2json.doSearchFolders_unbranched hdir hclosed hdistinct h hdepth, .rfl⟩,
      fun fileExtension => ⟨_, Excel2json.doSearchFiles_unbranched fileExtension hdir hclosed
        hdistinct h hdepth⟩, fun fileExtension => ?_⟩
    rw [List.append_nil] at hdir hclosed
    obtain ⟨base, hbase⟩ := hclosed
    have hpath : ∀ name : EntryName, DataPoolBuilder.fullName (formatPath excelPath) name =
        formatPath excelPath ++ ([] ++ name.val) := by
      intro name
      rw [DataPoolBuilder.fullName, hbase, if_pos List.getLast?_concat, List.nil_append]
    exact ⟨_, DataPoolBuilder.doSearch_eq fileExtension hdir hpath hdistinct hdepth⟩

/-- Two folders side by side, the second with a file in it. -/
def branchedDisk : Listing EntryName :=
  .folder ⟨['a'], by decide⟩ .nil
    (.folder ⟨['b'], by decide⟩ (.file ⟨['x', '.', 'y'], by decide⟩ .nil) .nil)

/-- The second folder is looked for in the first one. -/
theorem second_folder_missed :
    (∀ depth, Excel2json.searchFoldersInFolder id branchedDisk (depth + 2) ['\\'] =
      .error (.directoryNotFound ['\\', 'a', '\\', 'b', '\\'])) ∧
    ¬ SearchesRight id branchedDisk ['\\'] branchedDisk := by
  have hsearch : ∀ depth, Excel2json.searchFoldersInFolder id branchedDisk (depth + 2) ['\\'] =
      .error (.directoryNotFound ['\\', 'a', '\\', 'b', '\\']) := by
    intro depth
    rfl
  refine ⟨hsearch, fun h => ?_⟩
  obtain ⟨depth, out, hout, -⟩ := h.folders
  rcases depth with - | - | depth
  · cases hout
  · cases hout
  · rw [hsearch depth] at hout
    cases hout

/-- A folder in a folder, which both tools find. -/
theorem searchesRight_nested :
    SearchesRight id (.folder ⟨['a'], by decide⟩ (.folder ⟨['b'], by decide⟩ .nil .nil) .nil)
        (formatPath ['/']) (.folder ⟨['a'], by decide⟩ (.folder ⟨['b'], by decide⟩ .nil .nil) .nil) ↔
      Listing.Unbranched
        (.folder (⟨['a'], by decide⟩ : EntryName) (.folder ⟨['b'], by decide⟩ .nil .nil) .nil) :=
  searchesRight_iff rfl ⟨by simp [Listing.folders], ⟨by simp [Listing.folders], trivial, trivial⟩,
    trivial⟩

end

end TerraX
