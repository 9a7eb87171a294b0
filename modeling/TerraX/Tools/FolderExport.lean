import TerraX.Lib.Run
import TerraX.Tools.Exporter

/-!
# What an export of a folder writes

The workbooks of a folder are exported one after the other, each up to three times. No export writes
to a workbook, so that each of them gives what it would give alone, on the disk as it was when the
files had been found.

## Main definitions

- `Exporter.Job` — an export of a workbook, `Exporter.Job.Good` — it can be done
- `Exporter.Exported` — the disk after exports
- `Exporter.SmallLettersDiffer` — what is asked of the comparison of names

## Main results

- `Exporter.jobs_outcome` — exports that keep each other's workbooks, one after the other
- `Exporter.run_keeps` — what is still there after a run
- `Exporter.run_file` — a single file is never exported
-/

namespace TerraX

namespace Exporter

open JsonExporter Effect

/-- An export: what is made of a sheet, where it is read, and where the result is written. -/
structure Job where
  make : Maker
  source : Option Text
  target : Option Text

namespace Job

variable (fold : Char → Char)

/-- To do it. -/
def run (j : Job) : Export Unit := exportSheet fold j.make j.source j.target

/-- The path to which it writes, if there is one. -/
def path (j : Job) : Option Text :=
  j.target.bind fun target => if target = [] then none else some (formatFilePath target)

/-- What it would write there on a disk. -/
def content (disk : Disk) (j : Job) (path : Text) : Except ExporterFault Content :=
  match readExcel fold j.source disk with
  | .error fault => .error fault
  | .ok dt => (j.make path dt).mapError .exporter

/-- It can be done on a disk. -/
def Good (disk : Disk) (j : Job) : Prop :=
  ∀ path ∈ j.path, (∃ content, j.content fold disk path = .ok content) ∧
    ∀ content, (disk.write (nameKey fold) (entryNames path) content).isSome

/-- What it would write to a file on a disk. -/
def written (disk : Disk) (q : List Text) (j : Job) : Option (Option Content) :=
  j.path.bind fun path =>
    if pathKey fold path = q then some (j.content fold disk path).toOption else none

end Job

/-- The disk after exports: each file holds what the last of them to write to it makes of the disk
    before them, and there are the same folders. -/
structure Exported (fold : Char → Char) (disk : Disk) (done : List Job) (after : Disk) : Prop where
  files : ∀ q, after.fileAt (nameKey fold) q =
    Run.lastWritten (Job.written fold disk q) (disk.fileAt (nameKey fold) q) done
  folders : ∀ q, (after.folderAt (nameKey fold) q).isSome =
    (disk.folderAt (nameKey fold) q).isSome

/-- No export writes to a workbook that one of them reads. -/
def SourcesKept (fold : Char → Char) (jobs : List Job) : Prop :=
  ∀ j ∈ jobs, ∀ source ∈ j.source, ∀ j' ∈ jobs, ∀ path ∈ j'.path,
    pathKey fold path ≠ pathKey fold (formatFilePath source)

variable {fold : Char → Char} {disk after : Disk} {done jobs : List Job} {j : Job} {path : Text}

/-! ### One export -/

/-- What is read from a path depends on the file there. -/
theorem readFile_congr {q : List Text} (hq : pathKey fold path = q)
    (h : after.fileAt (nameKey fold) q = disk.fileAt (nameKey fold) q) :
    readFile fold after path = readFile fold disk path := by
  rw [readFile, readFile, hq, h]

theorem readExcel_congr {source : Option Text}
    (h : ∀ s ∈ source, after.fileAt (nameKey fold) (pathKey fold (formatFilePath s)) =
      disk.fileAt (nameKey fold) (pathKey fold (formatFilePath s))) :
    readExcel fold source after = readExcel fold source disk := by
  cases source with
  | none => rfl
  | some s => rw [readExcel, readExcel, readFile_congr rfl (h s rfl)]

/-- A file can be written if its folder is there and no folder has its name. -/
theorem isSome_write_congr {content content' : Content}
    (h : ∀ q, (after.folderAt (nameKey fold) q).isSome = (disk.folderAt (nameKey fold) q).isSome) :
    (after.write (nameKey fold) (entryNames path) content).isSome ↔
      (disk.write (nameKey fold) (entryNames path) content').isSome := by
  rw [FileTree.isSome_write_iff, FileTree.isSome_write_iff, h, ← Option.not_isSome_iff_eq_none,
    ← Option.not_isSome_iff_eq_none, h]

/-- An export without a path to write to does nothing. -/
theorem Job.run_of_path_eq_none (h : j.path = none) (disk : Disk) :
    (j.run fold).outcome disk = (.ok (), disk) := by
  rw [Job.path] at h
  rw [Job.run]
  cases htarget : j.target with
  | none => rfl
  | some target =>
    rw [htarget, Option.bind_some] at h
    split at h
    · next hempty =>
      rw [hempty]
      rfl
    · cases h

/-- An export that writes: it reads, converts and writes, or fails without a change. -/
theorem Job.run_of_path_eq_some (h : j.path = some path) (disk : Disk) :
    (j.run fold).outcome disk =
      match j.content fold disk path with
      | .error fault => (.error fault, disk)
      | .ok content => (writeFile fold path content).outcome disk := by
  obtain ⟨target, htarget, hpath⟩ := Option.bind_eq_some_iff.mp h
  split at hpath
  · cases hpath
  · next hne =>
    cases hpath
    rw [Job.run, htarget, Job.content]
    unfold exportSheet
    dsimp only
    rw [if_neg hne, outcome_bind_of_ok (outcome_get disk)]
    cases readExcel fold j.source disk with
    | error fault => rfl
    | ok dt =>
      dsimp only
      cases j.make (formatFilePath target) dt with
      | error fault => rfl
      | ok content => rfl

theorem writeFile_outcome (content : Content) (disk : Disk) :
    (writeFile fold path content).outcome disk =
      match disk.write (nameKey fold) (entryNames path) content with
      | some after => (.ok (), after)
      | none => (.error (.notWritable path), disk) := by
  rw [writeFile, outcome_bind_of_ok (outcome_get disk)]
  cases disk.write (nameKey fold) (entryNames path) content with
  | none => rfl
  | some after => rfl

/-! ### Exports one after the other -/

theorem Exported.nil : Exported fold disk [] disk := ⟨fun _ => rfl, fun _ => rfl⟩

/-- What an export reads is as it was before the others. -/
theorem Exported.content_eq (h : Exported fold disk done after) (hdone : ∀ a ∈ done, a ∈ jobs)
    (hsources : SourcesKept fold jobs) (hj : j ∈ jobs) (path : Text) :
    j.content fold after path = j.content fold disk path := by
  have hread : readExcel fold j.source after = readExcel fold j.source disk := by
    refine readExcel_congr fun s hs => ?_
    rw [h.files]
    refine Run.lastWritten_of_forall_none _ fun j' hj' => ?_
    rw [Job.written, Option.bind_eq_none_iff]
    intro path' hpath'
    rw [if_neg (hsources j hj s hs j' (hdone j' hj') path' hpath')]
  rw [Job.content, Job.content, hread]

/-- A good export is done. -/
theorem Exported.step (h : Exported fold disk done after) (hdone : ∀ a ∈ done, a ∈ jobs)
    (hsources : SourcesKept fold jobs) (hj : j ∈ jobs) (hgood : j.Good fold disk) :
    ∃ after', (j.run fold).outcome after = (.ok (), after') ∧
      Exported fold disk (done ++ [j]) after' := by
  cases hpath : j.path with
  | none =>
    refine ⟨after, Job.run_of_path_eq_none hpath after, fun q => ?_, h.folders⟩
    rw [h.files, Run.lastWritten_concat, Job.written, hpath]
    rfl
  | some path =>
    obtain ⟨⟨content, hcontent⟩, hwrite⟩ := hgood path hpath
    obtain ⟨after', hafter'⟩ := Option.isSome_iff_exists.mp
      ((isSome_write_congr h.folders).mpr (hwrite content))
    refine ⟨after', ?_, fun q => ?_, fun q => ?_⟩
    · rw [Job.run_of_path_eq_some hpath, h.content_eq hdone hsources hj, hcontent]
      dsimp only
      rw [writeFile_outcome, hafter']
    · rw [FileTree.fileAt_write hafter', map_nameKey_entryNames, h.files, Run.lastWritten_concat,
        Job.written, hpath, Option.bind_some, hcontent]
      split <;> rfl
    · rw [FileTree.isSome_folderAt_write hafter', h.folders]

/-- Another one fails, and changes nothing. -/
theorem Exported.stop (h : Exported fold disk done after) (hdone : ∀ a ∈ done, a ∈ jobs)
    (hsources : SourcesKept fold jobs) (hj : j ∈ jobs) (hbad : ¬ j.Good fold disk) :
    ∃ fault, (j.run fold).outcome after = (.error fault, after) := by
  cases hpath : j.path with
  | none =>
    refine absurd (fun path hmem => ?_) hbad
    rw [hpath] at hmem
    cases hmem
  | some path =>
    rw [Job.run_of_path_eq_some hpath, h.content_eq hdone hsources hj]
    cases hcontent : j.content fold disk path with
    | error fault => exact ⟨fault, rfl⟩
    | ok content =>
      dsimp only
      rw [writeFile_outcome]
      cases hwrite : after.write (nameKey fold) (entryNames path) content with
      | none => exact ⟨_, rfl⟩
      | some after' =>
        refine absurd (fun path' hmem => ?_) hbad
        rw [hpath] at hmem
        cases hmem
        refine ⟨⟨content, hcontent⟩, fun content' => ?_⟩
        exact (isSome_write_congr h.folders).mp (by rw [hwrite]; rfl)

/-- Exports that keep each other's workbooks are done up to the first that is not good on the disk
    as it was before them all, and that one ends them with an exception. -/
theorem jobs_outcome (hsources : SourcesKept fold jobs) (disk : Disk) :
    ∃ front after, Exported fold disk front after ∧ (∀ j ∈ front, j.Good fold disk) ∧
      ((front = jobs ∧ (forM jobs (Job.run fold)).outcome disk = (.ok (), after)) ∨
        ∃ bad back fault, jobs = front ++ bad :: back ∧ ¬ bad.Good fold disk ∧
          (forM jobs (Job.run fold)).outcome disk = (.error fault, after)) := by
  have hstart : Exported fold disk [] disk ∧ ∀ a ∈ ([] : List Job), a ∈ jobs :=
    ⟨.nil, fun a ha => absurd ha List.not_mem_nil⟩
  have hgood : ∀ done j s, j ∈ jobs → (Exported fold disk done s ∧ ∀ a ∈ done, a ∈ jobs) →
      j.Good fold disk → ∃ s', (j.run fold).outcome s = (.ok (), s') ∧
        Exported fold disk (done ++ [j]) s' ∧ ∀ a ∈ done ++ [j], a ∈ jobs := by
    rintro done j s hj ⟨hexported, hdone⟩ hgood
    obtain ⟨s', hrun, hs'⟩ := hexported.step hdone hsources hj hgood
    refine ⟨s', hrun, hs', fun a ha => ?_⟩
    rcases List.mem_append.mp ha with ha | ha
    · exact hdone a ha
    · rw [List.mem_singleton.mp ha]
      exact hj
  have hbad : ∀ done j s, j ∈ jobs → (Exported fold disk done s ∧ ∀ a ∈ done, a ∈ jobs) →
      ¬ j.Good fold disk → ∃ fault, (j.run fold).outcome s = (.error fault, s) :=
    fun done j s hj ⟨hexported, hdone⟩ hbad => hexported.stop hdone hsources hj hbad
  obtain ⟨front, after, ⟨hexported, -⟩, hfront, hend⟩ := forM_outcome hgood hbad hstart
  exact ⟨front, after, hexported, hfront, hend⟩

/-! ### The exports of a folder -/

/-- Different small letters are the names of different files. -/
def SmallLettersDiffer (fold : Char → Char) : Prop :=
  ∀ a b : Char, a.isLower → b.isLower → fold a = fold b → a = b

section

variable (sys : Platform) (o : Options)

/-- The export of a file to JSON, for a side. -/
def jsonJob (side : Text) (filter : String) (str : Text) : Job where
  make := makeJson sys o filter
  source := generateFileName (some o.excelPath) str ".xlsx".toList
  target := generateFileName o.jsonPath (side ++ str) ".json".toList

/-- The export of a file to SQL, which reads in the folder that it writes to. -/
def sqlJob (str : Text) : Job where
  make := makeSql sys o
  source := generateFileName o.sqlPath str ".xlsx".toList
  target := generateFileName o.sqlPath str ".sql".toList

/-- The exports of a file. -/
def jobsOf (str : Text) : List Job :=
  [jsonJob sys o client "c" str, jsonJob sys o server "s" str, sqlJob sys o str]

theorem exportFile_eq (str : Text) :
    exportFile sys o str = forM (jobsOf sys o str) (Job.run sys.fold) := by
  rw [jobsOf, List.forM_cons, List.forM_cons, List.forM_cons, List.forM_nil, bind_pure_unit]
  rfl

end

/-! ### Which files they read and write -/

/-- An extension that ends in a small letter. -/
structure EndsIn (ext : Text) (c : Char) : Prop where
  slash : '/' ∉ ext
  separator : '\\' ∉ ext
  last : ext.getLast? = some c
  lower : c.isLower

theorem EndsIn.xlsx : EndsIn ".xlsx".toList 'x' := ⟨by decide, by decide, by decide, by decide⟩

theorem EndsIn.json : EndsIn ".json".toList 'n' := ⟨by decide, by decide, by decide, by decide⟩

theorem EndsIn.sql : EndsIn ".sql".toList 'l' := ⟨by decide, by decide, by decide, by decide⟩

theorem formatFilePath_of_not_mem {s : Text} (h : '/' ∉ s) : formatFilePath s = s := by
  have hsame : ∀ c ∈ s, (if c = '/' then '\\' else c) = id c := fun c hc =>
    if_neg fun (heq : c = '/') => h (heq ▸ hc)
  rw [formatFilePath, List.map_congr_left hsame, List.map_id]

/-- The keys of a path with an extension. -/
theorem pathKey_ext {ext : Text} {c : Char} (hext : EndsIn ext c) (p : Text) :
    pathKey fold (formatFilePath (p ++ ext)) =
      (folderNames (formatFilePath p)).map (List.map fold) ++
        [(lastName (formatFilePath p)).map fold ++ ext.map fold] := by
  have hne : ext ≠ [] := fun heq => by
    have hlast := hext.last
    rw [heq] at hlast
    cases hlast
  rw [formatFilePath_append, formatFilePath_of_not_mem hext.slash, pathKey,
    components_append_ext _ hne hext.separator, List.map_append, List.map_singleton,
    List.map_append]

/-- Files with extensions that end differently are different. -/
theorem pathKey_ext_ne (hfold : SmallLettersDiffer fold) {ext ext' : Text} {c c' : Char}
    (hext : EndsIn ext c) (hext' : EndsIn ext' c') (hne : c ≠ c') (p p' : Text) :
    pathKey fold (formatFilePath (p ++ ext)) ≠ pathKey fold (formatFilePath (p' ++ ext')) := by
  intro heq
  rw [pathKey_ext hext, pathKey_ext hext'] at heq
  have hname := (List.append_inj' heq rfl).2
  have hlast := congrArg List.getLast? (List.singleton_inj.mp hname)
  simp only [List.getLast?_append, List.getLast?_map, hext.last, hext'.last] at hlast
  exact hne (hfold c c' hext.lower hext'.lower (Option.some.inj hlast))

section

variable {sys : Platform} {o : Options} {str : Text}

/-- The path to which an export writes, if a folder is given. -/
theorem path_of_target {make : Maker} {source folder : Option Text} {file ext : Text} {c : Char}
    (hext : EndsIn ext c) :
    (Job.mk make source (generateFileName folder file ext)).path =
      folder.map fun folder => formatFilePath (folder ++ file ++ ext) := by
  cases folder with
  | none => rfl
  | some folder =>
    have hne : folder ++ file ++ ext ≠ [] := by
      have hlast := hext.last
      intro heq
      rw [(List.append_eq_nil_iff.mp heq).2] at hlast
      cases hlast
    rw [Job.path, generateFileName, Option.map_some, Option.map_some, Option.bind_some, if_neg hne]

/-- What the exports of files read are workbooks. -/
theorem source_of_mem (hj : j ∈ jobsOf sys o str) {source : Text} (hsource : source ∈ j.source) :
    ∃ p, source = p ++ ".xlsx".toList := by
  rw [jobsOf, List.mem_cons, List.mem_cons, List.mem_singleton] at hj
  rcases hj with rfl | rfl | rfl
  · cases hsource
    exact ⟨_, rfl⟩
  · cases hsource
    exact ⟨_, rfl⟩
  · obtain ⟨folder, -, rfl⟩ := Option.map_eq_some_iff.mp hsource
    exact ⟨_, rfl⟩

/-- What they write to are none. -/
theorem path_of_mem (hj : j ∈ jobsOf sys o str) (hpath : path ∈ j.path) :
    ∃ p ext c, EndsIn ext c ∧ c ≠ 'x' ∧ path = formatFilePath (p ++ ext) := by
  rw [jobsOf, List.mem_cons, List.mem_cons, List.mem_singleton] at hj
  rcases hj with rfl | rfl | rfl
  · rw [jsonJob, path_of_target .json] at hpath
    obtain ⟨folder, -, rfl⟩ := Option.map_eq_some_iff.mp hpath
    exact ⟨_, _, _, .json, by decide, rfl⟩
  · rw [jsonJob, path_of_target .json] at hpath
    obtain ⟨folder, -, rfl⟩ := Option.map_eq_some_iff.mp hpath
    exact ⟨_, _, _, .json, by decide, rfl⟩
  · rw [sqlJob, path_of_target .sql] at hpath
    obtain ⟨folder, -, rfl⟩ := Option.map_eq_some_iff.mp hpath
    exact ⟨_, _, _, .sql, by decide, rfl⟩

/-- No export writes to a workbook. -/
theorem pathKey_ne_xlsx (hfold : SmallLettersDiffer fold) (hj : j ∈ jobsOf sys o str)
    (hpath : path ∈ j.path) (p : Text) :
    pathKey fold path ≠ pathKey fold (formatFilePath (p ++ ".xlsx".toList)) := by
  obtain ⟨p', ext, c, hext, hc, rfl⟩ := path_of_mem hj hpath
  exact pathKey_ext_ne hfold hext .xlsx hc p' p

theorem sourcesKept_jobsOf (hfold : SmallLettersDiffer fold) (files : List Text) :
    SourcesKept fold (files.flatMap (jobsOf sys o)) := by
  intro j hj source hsource j' hj' path hpath
  obtain ⟨str, -, hj⟩ := List.mem_flatMap.mp hj
  obtain ⟨str', -, hj'⟩ := List.mem_flatMap.mp hj'
  obtain ⟨p, rfl⟩ := source_of_mem hj hsource
  exact pathKey_ne_xlsx hfold hj' hpath p

/-- The loop over the files is one over their exports. -/
theorem forM_exportFile (files : List Text) :
    forM files (exportFile sys o) = forM (files.flatMap (jobsOf sys o)) (Job.run sys.fold) := by
  rw [forM_flatMap]
  exact congrArg _ (funext (exportFile_eq sys o))

/-! ### The searches -/

theorem search_outcome (find : Listing EntryName → ℕ → Except SearchFault (List Text))
    (disk : Disk) : (search find).outcome disk =
      match find disk.listing (disk.listing.height + 1) with
      | .ok paths => (.ok paths, disk)
      | .error fault => (.error (.search fault), disk) := by
  rw [search, outcome_bind_of_ok (outcome_get disk)]
  cases find disk.listing (disk.listing.height + 1) with
  | error fault => rfl
  | ok paths => rfl

/-- The files that are found. -/
def filesFound (fold : Char → Char) (disk : Disk) (excelPath : Text) :
    Except SearchFault (List Text) :=
  Excel2json.searchFilesInFolder fold disk.listing (disk.listing.height + 1) excelPath
    ".xlsx".toList

/-- When the folders are made and the files found, the exports of the files are what is left to do.
    -/
theorem exportTree_outcome_eq {disk made : Disk} {files : List Text}
    (hmade : (makeFolders sys.fold o).outcome disk = (.ok (), made))
    (hfiles : filesFound sys.fold made o.excelPath = .ok files) :
    (exportTree sys o).outcome disk =
      (forM (files.flatMap (jobsOf sys o)) (Job.run sys.fold)).outcome made := by
  have hsearch : (search fun disk depth => Excel2json.searchFilesInFolder sys.fold disk depth
      o.excelPath ".xlsx".toList).outcome made = (.ok files, made) := by
    rw [filesFound] at hfiles
    rw [search_outcome, hfiles]
  rw [exportTree, outcome_bind_of_ok hmade, outcome_bind_of_ok hsearch, forM_exportFile]

/-- They are done up to the first that is not good on the disk as it is then. -/
theorem exportTree_outcome (hfold : SmallLettersDiffer sys.fold) {disk made : Disk}
    {files : List Text} (hmade : (makeFolders sys.fold o).outcome disk = (.ok (), made))
    (hfiles : filesFound sys.fold made o.excelPath = .ok files) :
    ∃ front after, Exported sys.fold made front after ∧ (∀ j ∈ front, j.Good sys.fold made) ∧
      ((front = files.flatMap (jobsOf sys o) ∧ (exportTree sys o).outcome disk = (.ok (), after)) ∨
        ∃ bad back fault, files.flatMap (jobsOf sys o) = front ++ bad :: back ∧
          ¬ bad.Good sys.fold made ∧ (exportTree sys o).outcome disk = (.error fault, after)) := by
  rw [exportTree_outcome_eq hmade hfiles]
  exact jobs_outcome (sourcesKept_jobsOf hfold files) made

/-- When no files are found, the folders are all that was done. -/
theorem exportTree_outcome_of_error {disk made : Disk} {fault : SearchFault}
    (hmade : (makeFolders sys.fold o).outcome disk = (.ok (), made))
    (hfiles : filesFound sys.fold made o.excelPath = .error fault) :
    (exportTree sys o).outcome disk = (.error (.search fault), made) := by
  have hsearch : (search fun disk depth => Excel2json.searchFilesInFolder sys.fold disk depth
      o.excelPath ".xlsx".toList).outcome made = (.error (.search fault), made) := by
    rw [filesFound] at hfiles
    rw [search_outcome, hfiles]
  rw [exportTree, outcome_bind_of_ok hmade, outcome_bind_of_error hsearch]

end

/-! ### What a run leaves as it is -/

/-- The folders of a disk are still there, and its files are as they were. -/
structure SameFiles (fold : Char → Char) (disk after : Disk) : Prop where
  folders : ∀ q, (disk.folderAt (nameKey fold) q).isSome → (after.folderAt (nameKey fold) q).isSome
  files : ∀ q, after.fileAt (nameKey fold) q = disk.fileAt (nameKey fold) q

theorem SameFiles.refl (disk : Disk) : SameFiles fold disk disk := ⟨fun _ h => h, fun _ => rfl⟩

/-- The exceptions but for calls that are nested too deep. -/
def Ending (fault : ExporterFault) : Prop := fault ≠ .search .tooDeep

theorem keeps_ensureDirectory (folder : Text) :
    Keeps (SameFiles fold disk) Ending (ensureDirectory fold folder) := by
  refine Keeps.bind Keeps.get fun s => ?_
  split
  · exact Keeps.pure _
  · intro s hs
    rw [createDirectory, outcome_bind_of_ok (outcome_get s)]
    cases hmade : s.createFolders (nameKey fold) (entryNames folder) with
    | none => exact ⟨hs, fun e he => by cases he; exact fun h => by cases h⟩
    | some made =>
      refine ⟨⟨fun q hq => ?_, fun q => ?_⟩, fun e he => by cases he⟩
      · exact (FileTree.isSome_folderAt_createFolders hmade q).mpr (.inl (hs.folders q hq))
      · exact (FileTree.fileAt_createFolders hmade q).trans (hs.files q)

theorem keeps_createFolders (root : Option Text) (child : Text) :
    Keeps (SameFiles fold disk) Ending (createFolders fold root child) := by
  cases root with
  | none => exact Keeps.pure _
  | some root =>
    rw [createFolders]
    split
    · exact Keeps.pure _
    · exact keeps_ensureDirectory _

theorem keeps_makeSides (jsonPath : Option Text) :
    Keeps (SameFiles fold disk) Ending (makeSides fold jsonPath) := by
  cases jsonPath with
  | none => exact Keeps.pure _
  | some jsonPath =>
    rw [makeSides]
    split
    · exact Keeps.pure _
    · exact Keeps.bind (keeps_ensureDirectory _) fun _ => keeps_ensureDirectory _

theorem keeps_search {P : Disk → Prop}
    {find : Listing EntryName → ℕ → Except SearchFault (List Text)}
    (h : ∀ tree : Listing EntryName, find tree (tree.height + 1) ≠ .error .tooDeep) :
    Keeps P Ending (search find) := by
  intro s hs
  have hs' := h s.listing
  rw [search_outcome]
  cases hfind : find s.listing (s.listing.height + 1) with
  | ok paths => exact ⟨hs, fun e he => by cases he⟩
  | error fault =>
    rw [hfind] at hs'
    refine ⟨hs, fun e he heq => hs' ?_⟩
    cases he
    cases heq
    rfl

theorem keeps_makeFolders (o : Options) :
    Keeps (SameFiles fold disk) Ending (makeFolders fold o.formatted) := by
  have hsearch : ∀ tree : Listing EntryName, Excel2json.searchFoldersInFolder fold tree
      (tree.height + 1) o.formatted.excelPath ≠ .error .tooDeep :=
    fun tree => (@search_ne_tooDeep fold tree o.excelPath []).1
  exact Keeps.bind (keeps_search hsearch) fun _ => Keeps.bind (keeps_makeSides _) fun _ =>
    Keeps.forM fun _ _ => Keeps.bind (keeps_createFolders _ _) fun _ =>
      Keeps.bind (keeps_createFolders _ _) fun _ => keeps_createFolders _ _

/-- An export of a sheet fails with an exception of its own. -/
theorem ending_exportSheet (make : Maker) (source target : Option Text) :
    Keeps (fun _ => True) Ending (exportSheet fold make source target) := by
  have hread : ∀ s fault, readExcel fold source s = .error fault → Ending fault := by
    intro s fault h heq
    subst heq
    cases source with
    | none => cases h
    | some path =>
      rw [readExcel] at h
      unfold sheetOf at h
      split at h
      · cases h
      · cases h
      · split at h <;> cases h
      · cases h
  unfold exportSheet
  cases target with
  | none => exact Keeps.pure _
  | some target =>
    dsimp only
    split
    · exact Keeps.pure _
    · refine Keeps.bind Keeps.get fun s => ?_
      split
      · next fault hfault => exact Keeps.throw (hread s fault hfault)
      split
      · exact Keeps.throw fun h => by cases h
      · intro s _
        rw [writeFile_outcome]
        split
        · exact ⟨trivial, fun e he => by cases he⟩
        · exact ⟨trivial, fun e he => by cases he; exact fun h => by cases h⟩

/-- A path with a separator at its end is not that of a file. -/
theorem readFile_formatPath (excelPath : Text) (disk : Disk) :
    readFile fold disk (formatFilePath (formatPath excelPath)) = none := by
  by_cases hne : formatPath excelPath = []
  · rw [hne]
    rfl
  · obtain ⟨base, hbase⟩ := closed_formatPath hne
    have hlast : (formatFilePath (formatPath excelPath)).getLast? = some '\\' := by
      rw [hbase, formatFilePath_append]
      exact List.getLast?_concat
    rw [readFile, if_pos hlast]

section

variable {sys : Platform} {o : Options}

/-- An output for which no path is given. -/
def Unasked (target : Option Text) : Prop := target = none ∨ target = some []

instance (target : Option Text) : Decidable (Unasked target) :=
  inferInstanceAs (Decidable (_ ∨ _))

/-- With the path of a folder no sheet is read. -/
theorem exportSheet_formatPath (make : Maker) (excelPath : Text) (target : Option Text)
    (disk : Disk) :
    (exportSheet fold make (some (formatPath excelPath)) target).outcome disk =
      (if Unasked target then .ok ()
        else .error (.notFound (formatFilePath (formatPath excelPath))), disk) := by
  cases target with
  | none => rfl
  | some target =>
    unfold exportSheet
    dsimp only
    split
    · next hempty =>
      have hunasked : Unasked (some target) := .inr (congrArg some hempty)
      rw [if_pos hunasked]
      rfl
    · next hempty =>
      have hasked : ¬ Unasked (some target) := by
        rintro (hnone | hsome)
        · cases hnone
        · exact hempty (Option.some.inj hsome)
      rw [outcome_bind_of_ok (outcome_get disk), readExcel, readFile_formatPath, if_neg hasked]
      rfl

/-- The export of a single file never reads its workbook, since it takes the file for a folder. -/
theorem export2File_outcome (disk : Disk) :
    (export2File sys o).outcome disk =
      (if Unasked o.jsonPath ∧ Unasked o.sqlPath then .ok ()
        else .error (.notFound (formatFilePath (formatPath o.excelPath))), disk) := by
  have hjson := fun filter =>
    @exportSheet_formatPath sys.fold (makeJson sys o.formatted filter) o.excelPath o.jsonPath disk
  have hsql := @exportSheet_formatPath sys.fold (makeSql sys o.formatted) o.excelPath o.sqlPath disk
  unfold export2File
  by_cases hunasked : Unasked o.jsonPath
  · rw [if_pos hunasked] at hjson
    refine (outcome_bind_of_ok (hjson "c")).trans ?_
    refine (outcome_bind_of_ok (hjson "s")).trans ?_
    simp only [hunasked, true_and]
    exact hsql
  · rw [if_neg hunasked] at hjson
    rw [if_neg fun h => hunasked h.1]
    exact outcome_bind_of_error (hjson "c")

theorem keeps_export2File {P : Disk → Prop} : Keeps P Ending (export2File sys o) := by
  intro s hs
  rw [export2File_outcome]
  refine ⟨hs, fun e he => ?_⟩
  split at he
  · cases he
  · cases he
    exact fun h => by cases h

theorem ending_export2Folder : Keeps (fun _ => True) Ending (export2Folder sys o) := by
  have hmake : Keeps (fun _ => True) Ending (makeFolders sys.fold o.formatted) :=
    fun s _ => ⟨trivial, (keeps_makeFolders o s (.refl s)).2⟩
  exact Keeps.bind hmake fun _ => Keeps.bind (keeps_search fun tree => search_ne_tooDeep.2) fun _ =>
    Keeps.forM fun _ _ => Keeps.bind (ending_exportSheet _ _ _) fun _ =>
      Keeps.bind (ending_exportSheet _ _ _) fun _ => ending_exportSheet _ _ _

variable (sys o) in
/-- What is kept: the folders, and the files but for those that hold an export now, of a workbook
    that was on the disk. -/
structure Kept (disk after : Disk) : Prop where
  folders : ∀ q, (disk.folderAt (nameKey sys.fold) q).isSome →
    (after.folderAt (nameKey sys.fold) q).isSome
  files : ∀ q, after.fileAt (nameKey sys.fold) q = disk.fileAt (nameKey sys.fold) q ∨
    ∃ str, ∃ j ∈ jobsOf sys o.formatted str, ∃ path ∈ j.path, ∃ content,
      pathKey sys.fold path = q ∧ j.content sys.fold disk path = .ok content ∧
        after.fileAt (nameKey sys.fold) q = some content

theorem SameFiles.content_eq {made : Disk} (h : SameFiles fold disk made) (j : Job) (path : Text) :
    j.content fold made path = j.content fold disk path := by
  rw [Job.content, Job.content, readExcel_congr fun s _ => h.files _]

/-- Exports on a disk with the same files keep what they should. -/
theorem SameFiles.kept {made : Disk} (hsame : SameFiles sys.fold disk made) {front : List Job}
    (h : Exported sys.fold made front after) (hgood : ∀ j ∈ front, j.Good sys.fold made)
    (hfront : ∀ j ∈ front, ∃ str, j ∈ jobsOf sys o.formatted str) : Kept sys o disk after := by
  refine ⟨fun q hq => ?_, fun q => ?_⟩
  · rw [h.folders]
    exact hsame.folders q hq
  · rw [h.files]
    rcases Run.lastWritten_cases (Job.written sys.fold made q) (made.fileAt (nameKey sys.fold) q)
      front with hlast | ⟨j, hj, hwritten⟩
    · rw [hlast]
      exact .inl (hsame.files q)
    · obtain ⟨path, hpath, hkey⟩ := Option.bind_eq_some_iff.mp hwritten
      split at hkey
      · next hq =>
        obtain ⟨content, hcontent⟩ := (hgood j hj path hpath).1
        obtain ⟨str, hstr⟩ := hfront j hj
        rw [hcontent] at hkey
        rw [hsame.content_eq] at hcontent
        exact .inr ⟨str, j, hstr, path, hpath, content, hq, hcontent, (Option.some.inj hkey).symm⟩
      · cases hkey

theorem kept_export2Folder (hfold : SmallLettersDiffer sys.fold) (disk : Disk) :
    Kept sys o disk ((export2Folder sys o).outcome disk).2 := by
  have hsame := (keeps_makeFolders o disk (@SameFiles.refl sys.fold disk)).1
  rcases hmade : (makeFolders sys.fold o.formatted).outcome disk with ⟨fault | _, made⟩
  · rw [hmade] at hsame
    rw [export2Folder, exportTree, outcome_bind_of_error hmade]
    exact hsame.kept .nil (fun j hj => absurd hj List.not_mem_nil)
      fun j hj => absurd hj List.not_mem_nil
  · rw [hmade] at hsame
    cases hfiles : filesFound sys.fold made o.formatted.excelPath with
    | error fault =>
      rw [export2Folder, exportTree_outcome_of_error hmade hfiles]
      exact hsame.kept .nil (fun j hj => absurd hj List.not_mem_nil)
        fun j hj => absurd hj List.not_mem_nil
    | ok files =>
      obtain ⟨front, after, hexported, hgood, hend⟩ := exportTree_outcome hfold hmade hfiles
      have hfront : ∀ j ∈ front, ∃ str, j ∈ jobsOf sys o.formatted str := by
        intro j hj
        have hmem : j ∈ files.flatMap (jobsOf sys o.formatted) := by
          rcases hend with ⟨rfl, -⟩ | ⟨bad, back, fault, heq, -⟩
          · exact hj
          · rw [heq]
            exact List.mem_append_left _ hj
        obtain ⟨str, -, hstr⟩ := List.mem_flatMap.mp hmem
        exact ⟨str, hstr⟩
      have hkept : Kept sys o disk after := hsame.kept hexported hgood hfront
      rw [export2Folder]
      rcases hend with ⟨-, hrun⟩ | ⟨bad, back, fault, -, -, hrun⟩
      · rw [hrun]
        exact hkept
      · rw [hrun]
        exact hkept

end

/-- Small letters stay as they are when letters become small. -/
theorem smallLettersDiffer_toLower : SmallLettersDiffer Char.toLower := by
  have hlower : ∀ a : Char, a.isLower → a.toLower = a := by
    intro a ha
    refine dif_neg ?_
    rintro ⟨-, hupper⟩
    have hfirst : 'a'.val ≤ a.val := of_decide_eq_true (Bool.and_eq_true_iff.mp ha).1
    exact absurd (UInt32.le_trans hfirst hupper) (by decide)
  intro a b ha hb h
  rw [← hlower a ha, ← hlower b hb, h]

/-- However a run of the tool ends, and it does end: no folder is gone, each file is as it was or
    holds an export of a workbook, and all workbooks are as they were. -/
theorem run_keeps (sys : Platform) (hfold : SmallLettersDiffer sys.fold) (o : Options)
    (disk : Disk) {result : Except ExporterFault Unit} {after : Disk}
    (h : (run sys o).outcome disk = (result, after)) :
    result ≠ .error (.search .tooDeep) ∧ Kept sys o disk after ∧
      ∀ p,
        after.fileAt (nameKey sys.fold) (pathKey sys.fold (formatFilePath (p ++ ".xlsx".toList))) =
          disk.fileAt (nameKey sys.fold)
            (pathKey sys.fold (formatFilePath (p ++ ".xlsx".toList))) := by
  have hfile : ∀ P, Keeps P Ending (runFile sys o) := by
    refine fun P => Keeps.bind Keeps.get fun s => ?_
    split
    · exact keeps_export2File
    · exact Keeps.pure _
  have hending : Keeps (fun _ => True) Ending (run sys o) := by
    refine Keeps.bind (Keeps.bind Keeps.get fun s => ?_) fun _ => hfile _
    split
    · exact ending_export2Folder
    · exact Keeps.pure _
  have hfolder : Kept sys o disk ((runFolder sys o).outcome disk).2 := by
    rw [runFolder, outcome_bind_of_ok (outcome_get disk)]
    split
    · exact kept_export2Folder hfold disk
    · exact ⟨fun _ hq => hq, fun _ => .inl rfl⟩
  have hkept : Kept sys o disk after := by
    have hafter := congrArg Prod.snd h
    rw [run, outcome_bind] at hafter
    rcases hrun : (runFolder sys o).outcome disk with ⟨fault | _, made⟩
    · rw [hrun] at hafter hfolder
      have hmade : made = after := hafter
      exact hmade ▸ hfolder
    · rw [hrun] at hafter hfolder
      have hmade : ((runFile sys o).outcome made).2 = after := hafter
      exact hmade ▸ (hfile (Kept sys o disk) made hfolder).1
  refine ⟨fun heq => ?_, hkept, fun p => ?_⟩
  · have hfault := (hending disk trivial).2
    rw [h] at hfault
    exact hfault _ heq rfl
  · rcases hkept.files (pathKey sys.fold (formatFilePath (p ++ ".xlsx".toList))) with
      heq | ⟨str, j, hj, path, hpath, content, hkey, -⟩
    · exact heq
    · exact absurd hkey (pathKey_ne_xlsx hfold hj hpath p)

/-- A platform on which large and small letters are the same in names. -/
def plainPlatform : Platform where
  fold := Char.toLower
  toLower := Char.toLower
  format := fun _ => ""
  encodings := []

/-- A folder with a workbook. -/
def monsterDisk : Disk :=
  .folder ⟨['i', 'n'], by decide⟩
    (.file ⟨['a', '.', 'x', 'l', 's', 'x'], by decide⟩ (.workbook [monsterSheet (1 / 2)]) .nil) .nil

theorem monsterDisk_file : monsterDisk.fileAt (nameKey Char.toLower)
    [['i', 'n'], ['a', '.', 'x', 'l', 's', 'x']] = some (.workbook [monsterSheet (1 / 2)]) := by
  simp [monsterDisk, FileTree.fileAt, FileTree.folder?, FileTree.file?, nameKey]

theorem monster_localPaths : LocalPath ['i', 'n'] ∧
    (∀ path ∈ some ['o', 'u', 't', '/'], LocalPath path) ∧
      ∀ path ∈ (none : Option Text), LocalPath path := by
  refine ⟨⟨by decide, by decide⟩, fun path hpath => ?_, nofun⟩
  cases hpath
  exact ⟨by decide, by decide⟩

/-- To export it to another folder. -/
def monsterOptions : Options where
  excelPath := ['i', 'n']
  jsonPath := some ['o', 'u', 't', '/']
  sqlPath := none
  headerRows := 3
  encoding := "utf8-nobom".toList
  lowcase := false
  localPaths := monster_localPaths

/-- The workbook is still there afterwards. -/
theorem run_keeps_monster :
    ((run plainPlatform monsterOptions).outcome monsterDisk).2.fileAt (nameKey Char.toLower)
      [['i', 'n'], ['a', '.', 'x', 'l', 's', 'x']] = some (.workbook [monsterSheet (1 / 2)]) := by
  have hkey : pathKey Char.toLower (formatFilePath (['i', 'n', '/', 'a'] ++ ".xlsx".toList)) =
      [['i', 'n'], ['a', '.', 'x', 'l', 's', 'x']] := by decide
  obtain ⟨-, -, hsame⟩ := run_keeps plainPlatform smallLettersDiffer_toLower monsterOptions
    monsterDisk Prod.mk.eta.symm
  have hkept := hsame ['i', 'n', '/', 'a']
  change _ = monsterDisk.fileAt (nameKey Char.toLower)
    (pathKey Char.toLower (formatFilePath (['i', 'n', '/', 'a'] ++ ".xlsx".toList))) at hkept
  rw [hkey, monsterDisk_file] at hkept
  exact hkept

/-- A single file is never exported: where an output is asked for, the tool says that the file is
    not there. -/
theorem run_file (sys : Platform) (o : Options) (disk : Disk)
    (hfile : fileExists sys.fold disk (formatFilePath o.excelPath) = true)
    (hfolder : directoryExists sys.fold disk (formatFilePath o.excelPath) = false) :
    (run sys o).outcome disk =
      (if Unasked o.jsonPath ∧ Unasked o.sqlPath then .ok ()
        else .error (.notFound (formatFilePath (formatPath o.excelPath))), disk) := by
  have hfirst : (runFolder sys o).outcome disk = (.ok (), disk) := by
    rw [runFolder, outcome_bind_of_ok (outcome_get disk), hfolder]
    rfl
  rw [run, outcome_bind_of_ok hfirst, runFile, outcome_bind_of_ok (outcome_get disk), hfile,
    if_pos rfl, export2File_outcome]

theorem workbook_localPath : LocalPath "a.xlsx".toList := ⟨by decide, by decide⟩

/-- To export a single workbook. -/
def workbookOptions : Options :=
  { monsterOptions with
    excelPath := "a.xlsx".toList
    localPaths := ⟨workbook_localPath, monsterOptions.localPaths.2⟩ }

/-- A workbook beside the tool. -/
def workbookDisk : Disk :=
  .file ⟨['a', '.', 'x', 'l', 's', 'x'], by decide⟩ (.workbook [monsterSheet (1 / 2)]) .nil

/-- It is not found. -/
theorem run_file_monster :
    (run plainPlatform workbookOptions).outcome workbookDisk =
      (.error (.notFound "a.xlsx\\".toList), workbookDisk) := by
  have hfile : fileExists Char.toLower workbookDisk "a.xlsx".toList = true := by decide
  have hfolder : directoryExists Char.toLower workbookDisk "a.xlsx".toList = false := by decide
  exact run_file plainPlatform workbookOptions workbookDisk hfile hfolder

end Exporter

end TerraX
