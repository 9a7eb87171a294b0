import TerraX.Tools.FolderExport

/-!
# Trees that can be exported as a whole

Where no directory of the input has more than one folder, the searches find all of it. If then the
output folder ends with a separator and nothing is in the way, the tool makes the folders that the
files need, and finds all files.

## Main definitions

- `Exporter.Made` — the disk after folders were made
- `Exporter.foldersMade`, `Exporter.outputPath` — the folders that are made, and the paths of outputs
- `Exporter.Clear` — an input tree, and an output folder in which nothing is in the way

## Main results

- `Exporter.forM_ensureDirectory` — the folders are made where no file is in the way
- `Exporter.Clear.prepared` — the folders are made, and then all files of the tree are found
-/

namespace TerraX

namespace Exporter

open JsonExporter Effect

variable {fold : Char → Char} {disk made : Disk} {paths : List Text}

/-! ### Making folders -/

/-- The disk after folders were made. -/
structure Made (fold : Char → Char) (disk : Disk) (paths : List Text) (made : Disk) : Prop where
  files : ∀ q, made.fileAt (nameKey fold) q = disk.fileAt (nameKey fold) q
  folders : ∀ q, (made.folderAt (nameKey fold) q).isSome ↔
    (disk.folderAt (nameKey fold) q).isSome ∨ ∃ path ∈ paths, q <+: pathKey fold path
  others : ∀ q sub, disk.folderAt (nameKey fold) q = some sub →
    (∀ path ∈ paths, ¬ q <+: pathKey fold path) → made.folderAt (nameKey fold) q = some sub

theorem Made.nil (disk : Disk) : Made fold disk [] disk :=
  ⟨fun _ => rfl, fun _ => by simp, fun _ _ h _ => h⟩

theorem Made.sameFiles (h : Made fold disk paths made) : SameFiles fold disk made :=
  ⟨fun q hq => (h.folders q).mpr (.inl hq), h.files⟩

/-- One folder more. -/
theorem ensureDirectory_outcome {done : List Text} (h : Made fold disk done made) {folder : Text}
    (hne : folder ≠ [])
    (hclear : ∀ q, q <+: pathKey fold folder → disk.fileAt (nameKey fold) q = none) :
    ∃ made', (ensureDirectory fold folder).outcome made = (.ok (), made') ∧
      Made fold disk (done ++ [folder]) made' := by
  have hexists : directoryExists fold made folder =
      (made.folderAt (nameKey fold) (pathKey fold folder)).isSome := by
    rw [directoryExists, directoryInfo_listing hne, Option.isSome_map]
  have hadd : ∀ q, (∃ path ∈ done ++ [folder], q <+: pathKey fold path) ↔
      (∃ path ∈ done, q <+: pathKey fold path) ∨ q <+: pathKey fold folder := by
    intro q
    simp only [List.mem_append, List.mem_singleton, or_and_right, exists_or, exists_eq_left]
  rw [ensureDirectory, outcome_bind_of_ok (outcome_get made), hexists]
  split
  · next hfolder =>
    refine ⟨made, rfl, h.files, fun q => ?_, fun q sub hq hnot => ?_⟩
    · rw [hadd, h.folders, ← or_assoc]
      refine ⟨Or.inl, fun hq => hq.elim id fun hup => ?_⟩
      exact (h.folders q).mp (FileTree.isSome_folderAt_above hup hfolder)
    · exact h.others q sub hq fun path hpath => hnot path (List.mem_append_left _ hpath)
  · have hcreate : (made.createFolders (nameKey fold) (entryNames folder)).isSome := by
      refine FileTree.isSome_createFolders fun q hq => ?_
      rw [map_nameKey_entryNames] at hq
      rw [h.files]
      exact hclear q hq
    obtain ⟨made', hmade'⟩ := Option.isSome_iff_exists.mp hcreate
    refine ⟨made', ?_, fun q => ?_, fun q => ?_, fun q sub hq hnot => ?_⟩
    · rw [createDirectory, outcome_bind_of_ok (outcome_get made), hmade']
      rfl
    · rw [FileTree.fileAt_createFolders hmade', h.files]
    · rw [FileTree.isSome_folderAt_createFolders hmade', map_nameKey_entryNames, h.folders, hadd,
        or_assoc]
    · refine FileTree.folderAt_createFolders_elsewhere hmade'
        (h.others q sub hq fun path hpath => hnot path (List.mem_append_left _ hpath)) ?_
      rw [map_nameKey_entryNames]
      exact hnot folder (List.mem_append_right _ (List.mem_singleton_self _))

/-- All folders of a list, where no file is in the way. -/
theorem forM_ensureDirectory (hne : ∀ path ∈ paths, path ≠ [])
    (hclear : ∀ path ∈ paths, ∀ q, q <+: pathKey fold path →
      disk.fileAt (nameKey fold) q = none) :
    ∃ made, (forM paths (ensureDirectory fold)).outcome disk = (.ok (), made) ∧
      Made fold disk paths made := by
  have hstep : ∀ done folder s, folder ∈ paths → Made fold disk done s → True →
      ∃ s', (ensureDirectory fold folder).outcome s = (.ok (), s') ∧
        Made fold disk (done ++ [folder]) s' :=
    fun done folder s hfolder hs _ =>
      ensureDirectory_outcome hs (hne folder hfolder) (hclear folder hfolder)
  have hnever : ∀ (done : List Text) folder s, folder ∈ paths → Made fold disk done s → ¬ True →
      ∃ e, (ensureDirectory fold folder).outcome s = (.error e, s) :=
    fun _ _ _ _ _ hnot => absurd trivial hnot
  obtain ⟨front, made, hmade, -, hend⟩ := forM_outcome hstep hnever (Made.nil disk)
  rcases hend with ⟨rfl, hrun⟩ | ⟨bad, back, e, -, hbad, -⟩
  · exact ⟨made, hrun, hmade⟩
  · exact absurd trivial hbad

/-! ### Paths of outputs -/

theorem pathKey_closed {p : Text} (hclosed : Closed (formatFilePath p)) (t : Text) :
    pathKey fold (formatFilePath (p ++ t)) =
      pathKey fold (formatFilePath p) ++ pathKey fold (formatFilePath t) := by
  obtain ⟨base, hbase⟩ := hclosed
  rw [formatFilePath_append, hbase, List.append_assoc, List.singleton_append, pathKey,
    components_append, pathKey, components_append, components_nil, List.append_nil,
    List.map_append, pathKey]

/-- The name of a file in a folder. -/
theorem pathKey_name {s : Text} (hne : s ≠ []) (hslash : '/' ∉ s) (hsep : '\\' ∉ s) :
    pathKey fold (formatFilePath s) = [s.map fold] := by
  rw [formatFilePath_of_not_mem hslash, pathKey, components_name ⟨s, hne, hsep⟩]
  rfl

/-- A formatted path leads where the path leads. -/
theorem pathKey_formatPath (path : Text) :
    pathKey fold (formatPath path) = pathKey fold (formatFilePath path) := by
  rw [pathKey, components_formatPath, pathKey]

theorem formatPath_ne_nil {path : Text} (h : path ≠ []) : formatPath path ≠ [] := by
  rw [formatPath, if_neg h]
  dsimp only
  split
  · simpa using h
  · simp

/-- A path that ends with a separator still does when it is formatted. -/
theorem closed_formatFilePath {p : Text} (h : Closed p) : Closed (formatFilePath p) := by
  obtain ⟨base, rfl⟩ := h
  exact ⟨formatFilePath base, formatFilePath_append _ _⟩

/-- A name added to a path without separator at its end belongs to its last name. -/
theorem pathKey_side (json : Text) {name : Text} (hne : name ≠ []) (hslash : '/' ∉ name)
    (hsep : '\\' ∉ name) :
    pathKey fold (formatFilePath (json ++ (name ++ ['\\']))) =
      (folderNames (formatFilePath json)).map (List.map fold) ++
        [(lastName (formatFilePath json)).map fold ++ name.map fold] := by
  have hformat : formatFilePath (json ++ (name ++ ['\\'])) =
      formatFilePath json ++ name ++ '\\' :: [] := by
    rw [formatFilePath_append, formatFilePath_append, formatFilePath_of_not_mem hslash,
      ← List.append_assoc]
    rfl
  rw [hformat, pathKey, components_append, components_nil, List.append_nil,
    components_append_ext _ hne hsep, List.map_append, List.map_singleton, List.map_append]

/-- The sides, with their marks in the filter row. -/
def sides : List (Text × String) := [(client, "c"), (server, "s")]

/-- The folders of client and server are different ones. -/
theorem side_of_pathKey_eq (hfold : SmallLettersDiffer fold) {json : Text}
    {side side' : Text × String} (hside : side ∈ sides) (hside' : side' ∈ sides)
    (h : pathKey fold (formatFilePath (json ++ side.1)) =
      pathKey fold (formatFilePath (json ++ side'.1))) : side = side' := by
  have hletters : List.map fold "Client".toList ≠ List.map fold "Server".toList := by
    intro heq
    have hsecond : fold 'l' = fold 'e' := congrArg (fun l : Text => l.getD 1 ' ') heq
    exact absurd (hfold 'l' 'e' (by decide) (by decide) hsecond) (by decide)
  have hne : pathKey fold (formatFilePath (json ++ client)) ≠
      pathKey fold (formatFilePath (json ++ server)) := by
    intro heq
    have hclient := @pathKey_side fold json "Client".toList (by decide) (by decide) (by decide)
    have hserver := @pathKey_side fold json "Server".toList (by decide) (by decide) (by decide)
    rw [show client = "Client".toList ++ ['\\'] by decide, hclient,
      show server = "Server".toList ++ ['\\'] by decide, hserver] at heq
    have hlast := List.singleton_inj.mp (List.append_inj' heq rfl).2
    exact hletters (List.append_cancel_left hlast)
  rw [sides, List.mem_cons, List.mem_singleton] at hside hside'
  rcases hside with rfl | rfl
  · rcases hside' with rfl | rfl
    · rfl
    · exact absurd h hne
  · rcases hside' with rfl | rfl
    · exact absurd h.symm hne
    · rfl

/-- Files with the same name for one extension have it for another one. -/
theorem pathKey_ext_congr {ext ext' : Text} {c c' : Char} (hext : EndsIn ext c)
    (hext' : EndsIn ext' c') {s s' : Text}
    (h : pathKey fold (formatFilePath (s ++ ext)) = pathKey fold (formatFilePath (s' ++ ext))) :
    pathKey fold (formatFilePath (s ++ ext')) = pathKey fold (formatFilePath (s' ++ ext')) := by
  rw [pathKey_ext hext, pathKey_ext hext] at h
  obtain ⟨hfolders, hname⟩ := List.append_inj' h rfl
  rw [pathKey_ext hext', pathKey_ext hext', hfolders,
    List.append_cancel_right (List.singleton_inj.mp hname)]

/-! ### The paths of a tree -/

/-- The folders of a tree's files are its root and its folders. -/
theorem folder_of_mem_files {tree : Listing EntryName} {childPath : Text} {f : Text × EntryName}
    (hf : f ∈ tree.files (fun _ => true) joinFolder childPath) :
    f.1 = childPath ∨ f.1 ∈ tree.subfolders joinFolder childPath := by
  induction tree generalizing childPath with
  | nil => cases hf
  | file name rest ih =>
    rcases List.mem_cons.mp hf with rfl | hf
    · exact .inl rfl
    · exact ih hf
  | folder name sub rest ihsub ihrest =>
    rw [Listing.files_folder, if_pos rfl, List.mem_append] at hf
    rw [Listing.subfolders, List.cons_append, List.mem_cons, List.mem_append]
    rcases hf with hf | hf
    · rcases ihsub hf with hroot | hbelow
      · exact .inr (.inl hroot)
      · exact .inr (.inr (.inl hbelow))
    · rcases ihrest hf with hroot | hbelow
      · exact .inl hroot
      · exact .inr (.inr (.inr hbelow))

/-- The path of a folder ends with a separator. -/
theorem closed_of_mem_subfolders {tree : Listing EntryName} {childPath d : Text}
    (hd : d ∈ tree.subfolders joinFolder childPath) : Closed d := by
  induction tree generalizing childPath with
  | nil => cases hd
  | file name rest ih => exact ih hd
  | folder name sub rest ihsub ihrest =>
    rw [Listing.subfolders, List.cons_append, List.mem_cons, List.mem_append] at hd
    rcases hd with rfl | hd | hd
    · exact ⟨childPath ++ name.val, rfl⟩
    · exact ihsub hd
    · exact ihrest hd

/-- A file that is found, without its extension. -/
def found (f : Text × EntryName) : Text := f.1 ++ fileNameWithoutExtension f.2

/-- A name without its extension has no separator. -/
theorem separator_fileNameWithoutExtension (name : EntryName) :
    '\\' ∉ fileNameWithoutExtension name := by
  rw [fileNameWithoutExtension]
  split
  · next front back hsplit =>
    obtain ⟨heq, -⟩ := CString.splitLast_eq_some_iff.mp hsplit
    intro hmem
    refine name.property.2 ?_
    rw [heq]
    exact List.mem_append_left _ hmem
  · exact name.property.2

section

variable {json : Text} {tree : Listing EntryName} {f : Text × EntryName} {side : Text × String}

/-- The folders that are made for a tree. -/
def foldersMade (json : Text) (tree : Listing EntryName) : List Text :=
  [formatPath json ++ client, formatPath json ++ server] ++
    (folderPaths tree).flatMap fun d =>
      [formatPath (json ++ (client ++ d)), formatPath (json ++ (server ++ d))]

/-- The path of an output. -/
def outputPath (json : Text) (side : Text × String) (f : Text × EntryName) : Text :=
  formatFilePath (json ++ (side.1 ++ found f) ++ ".json".toList)

theorem closed_side (hside : side ∈ sides) : Closed side.1 := by
  rw [sides, List.mem_cons, List.mem_singleton] at hside
  rcases hside with rfl | rfl
  · exact ⟨"Client".toList, rfl⟩
  · exact ⟨"Server".toList, rfl⟩

/-- An output lies in the folder that is made for it. -/
theorem pathKey_outputPath (hside : side ∈ sides)
    (hf : f ∈ filesWith ".xlsx".toList [] tree) (hslash : '/' ∉ fileNameWithoutExtension f.2) :
    pathKey fold (outputPath json side f) =
      pathKey fold (formatFilePath (json ++ (side.1 ++ f.1))) ++
        [(fileNameWithoutExtension f.2 ++ ".json".toList).map fold] := by
  have hfolder := folder_of_mem_files (List.mem_filter.mp hf).1
  have hclosed : Closed (json ++ (side.1 ++ f.1)) := by
    rcases hfolder with hroot | hbelow
    · obtain ⟨base, hbase⟩ := closed_side hside
      exact ⟨json ++ base, by rw [hroot, List.append_nil, hbase, List.append_assoc]⟩
    · obtain ⟨base, hbase⟩ := closed_of_mem_subfolders hbelow
      exact ⟨json ++ (side.1 ++ base), by rw [hbase]; simp⟩
  have hpath : json ++ (side.1 ++ found f) ++ ".json".toList =
      json ++ (side.1 ++ f.1) ++ (fileNameWithoutExtension f.2 ++ ".json".toList) := by
    simp only [found, List.append_assoc]
  have hname := @pathKey_name fold (fileNameWithoutExtension f.2 ++ ".json".toList)
    (List.append_ne_nil_of_right_ne_nil _ (by decide))
    (fun h => (List.mem_append.mp h).elim hslash (by decide))
    (fun h => (List.mem_append.mp h).elim (separator_fileNameWithoutExtension f.2) (by decide))
  rw [outputPath, hpath, pathKey_closed (closed_formatFilePath hclosed), hname]

/-- The folder of an output is one of those that are made. -/
theorem mem_foldersMade (hclosed : Closed (formatFilePath json)) (hside : side ∈ sides)
    (hf : f ∈ filesWith ".xlsx".toList [] tree) :
    ∃ path ∈ foldersMade json tree,
      pathKey fold path = pathKey fold (formatFilePath (json ++ (side.1 ++ f.1))) := by
  have hjson : formatPath json = formatFilePath json := by
    obtain ⟨base, hbase⟩ := hclosed
    have hne : json ≠ [] := by
      rintro rfl
      exact absurd hbase (by simp [formatFilePath])
    rw [formatPath, if_neg hne]
    exact if_pos (List.getLast?_eq_some_iff.mpr ⟨base, hbase⟩)
  have hroot : ∀ side : Text, formatFilePath side = side →
      pathKey fold (formatPath json ++ side) =
        pathKey fold (formatFilePath (json ++ (side ++ []))) := by
    intro side hside
    rw [hjson, List.append_nil, formatFilePath_append, hside]
  rw [sides, List.mem_cons, List.mem_singleton] at hside
  rcases folder_of_mem_files (List.mem_filter.mp hf).1 with hfolder | hfolder
  · rw [hfolder]
    rcases hside with rfl | rfl
    · exact ⟨_, by simp [foldersMade], hroot client (by decide)⟩
    · exact ⟨formatPath json ++ server, by simp [foldersMade], hroot server (by decide)⟩
  · have hmem : ∀ path ∈ [formatPath (json ++ (client ++ f.1)),
        formatPath (json ++ (server ++ f.1))], path ∈ foldersMade json tree := fun path hpath =>
      List.mem_append_right _ (List.mem_flatMap.mpr ⟨f.1, hfolder, hpath⟩)
    rcases hside with rfl | rfl
    · exact ⟨_, hmem _ List.mem_cons_self, pathKey_formatPath _⟩
    · exact ⟨_, hmem _ (List.mem_cons_of_mem _ List.mem_cons_self), pathKey_formatPath _⟩

/-! ### Making the folders and finding the files -/

/-- An input tree whose files are all found, and an output folder for JSON in which nothing is in
    the way: no folder is made in the input, no file has the name of the input or of a folder that
    is made, and no folder that of a file that is written. -/
structure Clear (fold : Char → Char) (o : Options) (json : Text) (disk : Disk)
    (tree : Listing EntryName) : Prop where
  jsonPath : o.jsonPath = some json
  sqlPath : o.sqlPath = none
  closed : Closed (formatFilePath json)
  input : directoryInfo fold disk.listing (formatPath o.excelPath) = some tree
  inputFile : disk.fileAt (nameKey fold) (pathKey fold (formatPath o.excelPath)) = none
  distinct : tree.Distinct fun a b => sameName fold a.val b.val = true
  unbranched : tree.Unbranched
  slash : ∀ f ∈ filesWith ".xlsx".toList [] tree, '/' ∉ fileNameWithoutExtension f.2
  apart : ∀ path ∈ foldersMade json tree,
    ¬ pathKey fold (formatPath o.excelPath) <+: pathKey fold path
  noFile : ∀ path ∈ foldersMade json tree, ∀ q, q <+: pathKey fold path →
    disk.fileAt (nameKey fold) q = none
  noFolder : ∀ f ∈ filesWith ".xlsx".toList [] tree, ∀ side ∈ sides,
    disk.folderAt (nameKey fold) (pathKey fold (outputPath json side f)) = none ∧
      ∀ path ∈ foldersMade json tree,
        ¬ pathKey fold (outputPath json side f) <+: pathKey fold path

variable {o : Options}

theorem Clear.json_ne_nil (h : Clear fold o json disk tree) : json ≠ [] := by
  rintro rfl
  obtain ⟨base, hbase⟩ := h.closed
  exact absurd hbase (by simp [formatFilePath])

theorem Clear.formatPath_ne_nil (h : Clear fold o json disk tree) :
    formatPath o.excelPath ≠ [] := by
  intro hempty
  have hinput := h.input
  rw [hempty] at hinput
  cases hinput

/-- The folders that the tool makes are those of the list. -/
theorem Clear.makeFolders_eq (h : Clear fold o json disk tree) :
    (makeFolders fold o.formatted).outcome disk =
      (forM (foldersMade json tree) (ensureDirectory fold)).outcome disk := by
  have hdepth : tree.height < disk.listing.height + 1 := by
    have hle := height_directoryInfo h.input
    omega
  have hclosed := closed_formatPath h.formatPath_ne_nil
  have hinput := h.input
  rw [← List.append_nil (formatPath o.excelPath)] at hclosed hinput
  have hfound : Excel2json.searchFoldersInFolder fold disk.listing (disk.listing.height + 1)
      o.formatted.excelPath = .ok (folderPaths tree) :=
    Excel2json.doSearchFolders_unbranched hinput hclosed h.distinct h.unbranched hdepth
  have hsearch : (search fun disk depth => Excel2json.searchFoldersInFolder fold disk depth
      o.formatted.excelPath).outcome disk = (.ok (folderPaths tree), disk) := by
    rw [search_outcome, hfound]
  have hsides : makeSides fold o.formatted.jsonPath =
      forM [formatPath json ++ client, formatPath json ++ server] (ensureDirectory fold) := by
    have hjson : o.formatted.jsonPath = some json := h.jsonPath
    rw [hjson, makeSides, if_neg h.json_ne_nil, List.forM_cons, List.forM_cons, List.forM_nil,
      bind_pure_unit]
  have hfolder : makeFolder fold o.formatted = fun d =>
      forM [formatPath (json ++ (client ++ d)), formatPath (json ++ (server ++ d))]
        (ensureDirectory fold) := by
    funext d
    have hjson : o.formatted.jsonPath = some json := h.jsonPath
    have hsql : o.formatted.sqlPath = none := h.sqlPath
    have hensure : ∀ child, createFolders fold (some json) child =
        ensureDirectory fold (formatPath (json ++ child)) := fun child => if_neg h.json_ne_nil
    rw [makeFolder, hjson, hsql, hensure, hensure, List.forM_cons, List.forM_cons, List.forM_nil]
    rfl
  rw [makeFolders, outcome_bind_of_ok hsearch, hsides, hfolder, ← forM_flatMap, foldersMade,
    List.forM_append]

theorem foldersMade_ne_nil (hjson : json ≠ []) : ∀ path ∈ foldersMade json tree, path ≠ [] := by
  intro path hpath
  rw [foldersMade, List.mem_append] at hpath
  rcases hpath with hpath | hpath
  · rw [List.mem_cons, List.mem_singleton] at hpath
    rcases hpath with rfl | rfl
    · exact List.append_ne_nil_of_right_ne_nil _ (by decide)
    · exact List.append_ne_nil_of_right_ne_nil _ (by decide)
  · obtain ⟨d, -, hpath⟩ := List.mem_flatMap.mp hpath
    rw [List.mem_cons, List.mem_singleton] at hpath
    rcases hpath with rfl | rfl
    · exact formatPath_ne_nil (List.append_ne_nil_of_left_ne_nil hjson _)
    · exact formatPath_ne_nil (List.append_ne_nil_of_left_ne_nil hjson _)

/-- The folder of the input. -/
theorem Clear.exists_folder (h : Clear fold o json disk tree) :
    ∃ sub, disk.folderAt (nameKey fold) (pathKey fold (formatPath o.excelPath)) = some sub ∧
      sub.listing = tree := by
  have hinput := h.input
  rw [directoryInfo_listing h.formatPath_ne_nil] at hinput
  exact Option.map_eq_some_iff.mp hinput

/-- The folders are made, and then all files of the tree are found. -/
theorem Clear.prepared (h : Clear fold o json disk tree) :
    ∃ made files, (makeFolders fold o.formatted).outcome disk = (.ok (), made) ∧
      Made fold disk (foldersMade json tree) made ∧
      filesFound fold made o.formatted.excelPath = .ok files ∧
      files.Perm ((filesWith ".xlsx".toList [] tree).map found) := by
  obtain ⟨made, hrun, hmade⟩ := forM_ensureDirectory (foldersMade_ne_nil h.json_ne_nil) h.noFile
  obtain ⟨sub, hsub, rfl⟩ := h.exists_folder
  have hdir : directoryInfo fold made.listing (formatPath o.excelPath) = some sub.listing := by
    rw [directoryInfo_listing h.formatPath_ne_nil, hmade.others _ sub hsub h.apart]
    rfl
  have hdepth : sub.listing.height < made.listing.height + 1 := by
    have hle := height_directoryInfo hdir
    omega
  have hclosed := closed_formatPath h.formatPath_ne_nil
  rw [← List.append_nil (formatPath o.excelPath)] at hclosed hdir
  obtain ⟨files, hfiles, hperm⟩ := Excel2json.doSearchFiles_unbranched ".xlsx".toList hdir hclosed
    h.distinct h.unbranched hdepth
  exact ⟨made, files, h.makeFolders_eq.trans hrun, hmade, hfiles, hperm⟩

/-- Where no other folders were made, none has the name of an output. -/
theorem Clear.folderAt_output (h : Clear fold o json disk tree)
    (hf : f ∈ filesWith ".xlsx".toList [] tree) (hside : side ∈ sides)
    (hfolders : ∀ q, (made.folderAt (nameKey fold) q).isSome ↔
      (disk.folderAt (nameKey fold) q).isSome ∨
        ∃ path ∈ foldersMade json tree, q <+: pathKey fold path) :
    made.folderAt (nameKey fold) (pathKey fold (outputPath json side f)) = none := by
  obtain ⟨hnone, hnot⟩ := h.noFolder f hf side hside
  rw [← Option.not_isSome_iff_eq_none, hfolders]
  rintro (hsome | ⟨path, hpath, hup⟩)
  · rw [hnone] at hsome
    cases hsome
  · exact hnot path hpath hup

end

end Exporter

end TerraX
