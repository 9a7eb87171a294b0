import TerraX.Tools.ClearTree

/-!
# The export of a whole tree

A run over a clear tree that ends well has written two files for each workbook. Nothing is in the way
of another run then, and it writes the same.

## Main definitions

- `Exporter.Exportable` — a workbook that can be exported
- `Exporter.TreeExported` — the disk after the export of a tree

## Main results

- `Exporter.tree_exported` — when a tree is exported, and what is on the disk then
- `Exporter.export_twice` — the export of what has been exported changes nothing
-/

namespace TerraX

namespace Exporter

open JsonExporter Effect

section

variable {fold : Char → Char} {disk made : Disk} {json : Text} {tree : Listing EntryName}
  {f : Text × EntryName} {side : Text × String} {o : Options}

/-! ### The exports of a tree -/

/-- A workbook can be exported: its sheet can be read, and has columns and the rows of the header
    but for the last. -/
def Exportable (sys : Platform) (o : Options) (disk : Disk) (f : Text × EntryName) : Prop :=
  ∃ sheet, readExcel sys.fold (some (formatPath o.excelPath ++ found f ++ ".xlsx".toList)) disk =
      .ok sheet ∧ 0 < sheet.columns.length ∧ 2 ≤ o.headerRows.toInt ∧
    o.headerRows.toInt - 2 < sheet.rows.length

/-- What is written for a side: the data of a sheet that was read. -/
def Holds (sys : Platform) (o : Options) (disk : Disk) (side : Text × String)
    (f : Text × EntryName) (content : Content) : Prop :=
  ∃ sheet data,
    readExcel sys.fold (some (formatPath o.excelPath ++ found f ++ ".xlsx".toList)) disk =
      .ok sheet ∧
    JsonExporter.export2Json sys.toLower sys.format sheet o.headerRows.toInt o.lowcase side.2 =
      .ok data ∧
    content = .json (getEncoding sys.encodings o.encoding) data

theorem export2Json_ok_iff {toLower : Char → Char} {format : ℚ → String} {sheet : Sheet}
    {headerRows : ℤ} {lowcase : Bool} {filter : String} :
    (∃ d, JsonExporter.export2Json toLower format sheet headerRows lowcase filter = .ok d) ↔
      0 < sheet.columns.length ∧ 2 ≤ headerRows ∧ headerRows - 2 < sheet.rows.length := by
  constructor
  · rintro ⟨d, hd⟩
    obtain ⟨hcolumns, rowFilter, hfilter, -⟩ := export2Json_eq_ok_iff.mp hd
    obtain ⟨hpos, hlt⟩ := rowAt_ok_iff.mp ⟨rowFilter, hfilter⟩
    exact ⟨hcolumns, by omega, hlt⟩
  · rintro ⟨hcolumns, htwo, hlt⟩
    obtain ⟨rowFilter, hfilter⟩ := rowAt_ok_iff.mpr ⟨by omega, hlt⟩
    exact ⟨_, export2Json_eq_ok_iff.mpr ⟨hcolumns, rowFilter, hfilter, rfl⟩⟩

variable {sys : Platform}

/-- The export of a file for a side. -/
def sideJob (sys : Platform) (o : Options) (side : Text × String) (f : Text × EntryName) : Job :=
  jsonJob sys o.formatted side.1 side.2 (found f)

theorem Clear.path_sideJob (h : Clear fold o json disk tree) (side : Text × String)
    (f : Text × EntryName) : (sideJob sys o side f).path = some (outputPath json side f) := by
  have hjson : o.formatted.jsonPath = some json := h.jsonPath
  rw [sideJob, jsonJob, path_of_target .json, hjson]
  rfl

theorem content_sideJob {path : Text} {content : Content} :
    (sideJob sys o side f).content sys.fold disk path = .ok content ↔
      Holds sys o disk side f content := by
  rw [Job.content, Holds]
  have hsource : (sideJob sys o side f).source =
      some (formatPath o.excelPath ++ found f ++ ".xlsx".toList) := rfl
  rw [hsource]
  cases hread :
    readExcel sys.fold (some (formatPath o.excelPath ++ found f ++ ".xlsx".toList)) disk with
  | error fault =>
    constructor
    · intro h
      cases h
    · rintro ⟨sheet, data, h, -, -⟩
      cases h
  | ok sheet =>
    have hmake : (sideJob sys o side f).make path sheet =
        (JsonExporter.export2Json sys.toLower sys.format sheet o.headerRows.toInt o.lowcase
          side.2).map (.json (getEncoding sys.encodings o.encoding)) := rfl
    dsimp only
    rw [hmake]
    cases hdata :
      JsonExporter.export2Json sys.toLower sys.format sheet o.headerRows.toInt o.lowcase side.2 with
    | error fault =>
      constructor
      · intro h
        cases h
      · rintro ⟨sheet', data, hsheet, hexport, -⟩
        cases hsheet
        rw [hdata] at hexport
        cases hexport
    | ok data =>
      constructor
      · intro h
        exact ⟨sheet, data, rfl, hdata, (Except.ok.inj h).symm⟩
      · rintro ⟨sheet', data', hsheet, hexport, rfl⟩
        cases hsheet
        rw [hdata] at hexport
        cases hexport
        rfl

theorem exists_holds_iff :
    (∃ content, Holds sys o disk side f content) ↔ Exportable sys o disk f := by
  constructor
  · rintro ⟨content, sheet, data, hread, hexport, -⟩
    exact ⟨sheet, hread, export2Json_ok_iff.mp ⟨data, hexport⟩⟩
  · rintro ⟨sheet, hread, hsheet⟩
    obtain ⟨data, hdata⟩ := export2Json_ok_iff.mpr hsheet
    exact ⟨_, sheet, data, hread, hdata, rfl⟩

/-- Where the folders are made an export can be done if its workbook can be exported. -/
theorem Clear.good_iff (h : Clear sys.fold o json disk tree)
    (hmade : Made sys.fold disk (foldersMade json tree) made) (hside : side ∈ sides)
    (hf : f ∈ filesWith ".xlsx".toList [] tree) :
    (sideJob sys o side f).Good sys.fold made ↔ Exportable sys o disk f := by
  have hsame := hmade.sameFiles
  have hkey := @pathKey_outputPath sys.fold json tree f side hside hf (h.slash f hf)
  have hwrite : ∀ content,
      (made.write (nameKey sys.fold) (entryNames (outputPath json side f)) content).isSome := by
    intro content
    have hnames := @map_nameKey_entryNames sys.fold (outputPath json side f)
    refine FileTree.isSome_write_iff.mpr ⟨fun hnil => ?_, ?_, ?_⟩
    · rw [hnil, hkey] at hnames
      exact absurd hnames (by simp)
    · rw [List.map_dropLast, hnames, hkey, List.dropLast_concat, hmade.folders]
      obtain ⟨path, hpath, heq⟩ := @mem_foldersMade sys.fold json tree f side h.closed hside hf
      exact .inr ⟨path, hpath, by rw [heq]⟩
    · rw [hnames]
      exact h.folderAt_output hf hside hmade.folders
  rw [Job.Good, h.path_sideJob, ← @exists_holds_iff disk f side o sys]
  constructor
  · intro hgood
    obtain ⟨⟨content, hcontent⟩, -⟩ := hgood _ rfl
    rw [hsame.content_eq] at hcontent
    exact ⟨content, content_sideJob.mp hcontent⟩
  · rintro ⟨content, hcontent⟩ path hpath
    cases hpath
    refine ⟨⟨content, ?_⟩, hwrite⟩
    rw [hsame.content_eq]
    exact content_sideJob.mpr hcontent

/-- The exports of the files that were found are those of the tree, and some that write nothing. -/
theorem Clear.mem_jobs (h : Clear fold o json disk tree) {files : List Text}
    (hfiles : files.Perm ((filesWith ".xlsx".toList [] tree).map found)) {j : Job}
    (hj : j ∈ files.flatMap (jobsOf sys o.formatted)) :
    (∃ f ∈ filesWith ".xlsx".toList [] tree, ∃ side ∈ sides, j = sideJob sys o side f) ∨
      j.path = none := by
  obtain ⟨str, hstr, hj⟩ := List.mem_flatMap.mp hj
  obtain ⟨f, hf, rfl⟩ := List.mem_map.mp (hfiles.mem_iff.mp hstr)
  rw [jobsOf, List.mem_cons, List.mem_cons, List.mem_singleton] at hj
  rcases hj with rfl | rfl | rfl
  · exact .inl ⟨f, hf, (client, "c"), List.mem_cons_self, rfl⟩
  · exact .inl ⟨f, hf, (server, "s"), List.mem_cons_of_mem _ List.mem_cons_self, rfl⟩
  · have hsql : o.formatted.sqlPath = none := h.sqlPath
    rw [sqlJob, path_of_target .sql, hsql]
    exact .inr rfl

theorem sideJob_mem {files : List Text}
    (hfiles : files.Perm ((filesWith ".xlsx".toList [] tree).map found)) (hside : side ∈ sides)
    (hf : f ∈ filesWith ".xlsx".toList [] tree) :
    sideJob sys o side f ∈ files.flatMap (jobsOf sys o.formatted) := by
  refine List.mem_flatMap.mpr ⟨found f, hfiles.mem_iff.mpr (List.mem_map_of_mem hf), ?_⟩
  rw [sides, List.mem_cons, List.mem_singleton] at hside
  rcases hside with rfl | rfl
  · exact List.mem_cons_self
  · exact List.mem_cons_of_mem _ List.mem_cons_self

/-- A sheet is what is read from a file, by whichever path. -/
theorem readExcel_ok_congr {s s' : Text}
    (hkey : pathKey fold (formatFilePath (s ++ ".xlsx".toList)) =
      pathKey fold (formatFilePath (s' ++ ".xlsx".toList))) {sheet : Sheet}
    (h : readExcel fold (some (s ++ ".xlsx".toList)) disk = .ok sheet) :
    readExcel fold (some (s' ++ ".xlsx".toList)) disk = .ok sheet := by
  have hlast : ∀ s : Text, (formatFilePath (s ++ ".xlsx".toList)).getLast? ≠ some '\\' := by
    intro s
    rw [formatFilePath_append, List.getLast?_append_of_ne_nil _ (by decide)]
    decide
  have hread : readFile fold disk (formatFilePath (s ++ ".xlsx".toList)) =
      readFile fold disk (formatFilePath (s' ++ ".xlsx".toList)) := by
    rw [readFile, readFile, if_neg (hlast s), if_neg (hlast s'), hkey]
  rw [readExcel, hread] at h
  rw [readExcel]
  unfold sheetOf at h ⊢
  split at h
  · cases h
  · cases h
  · split at h
    · cases h
    · next hrows => rw [if_neg hrows, h]
  · cases h

/-- Two exports to the same file write the same. -/
theorem Clear.holds_congr (hfold : SmallLettersDiffer sys.fold)
    (h : Clear sys.fold o json disk tree) {side' : Text × String} {f' : Text × EntryName}
    (hside : side ∈ sides) (hside' : side' ∈ sides)
    (hkey : pathKey sys.fold (outputPath json side f) = pathKey sys.fold (outputPath json side' f'))
    {content : Content} (hholds : Holds sys o disk side f content) :
    Holds sys o disk side' f' content := by
  have hpath : ∀ side ∈ sides, ∀ f, pathKey sys.fold (outputPath json side f) =
      pathKey sys.fold (formatFilePath (json ++ side.1)) ++
        pathKey sys.fold (formatFilePath (found f ++ ".json".toList)) := by
    intro side hside f
    obtain ⟨base, hbase⟩ := closed_side hside
    have hclosed : Closed (json ++ side.1) := ⟨json ++ base, by rw [hbase, List.append_assoc]⟩
    rw [outputPath, ← List.append_assoc, List.append_assoc,
      pathKey_closed (closed_formatFilePath hclosed)]
  have hlength : ∀ side ∈ sides, (pathKey sys.fold (formatFilePath (json ++ side.1))).length =
      (folderNames (formatFilePath json)).length + 1 := by
    intro side hside
    rw [sides, List.mem_cons, List.mem_singleton] at hside
    rcases hside with rfl | rfl
    · have hclient :=
        @pathKey_side sys.fold json "Client".toList (by decide) (by decide) (by decide)
      rw [show client = "Client".toList ++ ['\\'] by decide, hclient, List.length_append,
        List.length_map, List.length_singleton]
    · have hserver :=
        @pathKey_side sys.fold json "Server".toList (by decide) (by decide) (by decide)
      rw [show server = "Server".toList ++ ['\\'] by decide, hserver, List.length_append,
        List.length_map, List.length_singleton]
  rw [hpath side hside, hpath side' hside'] at hkey
  obtain ⟨hsides, hfiles⟩ := List.append_inj hkey (by rw [hlength side hside, hlength side' hside'])
  obtain rfl := side_of_pathKey_eq hfold hside hside' hsides
  have hworkbook := pathKey_ext_congr .json .xlsx hfiles
  have hclosed := closed_formatFilePath (closed_formatPath h.formatPath_ne_nil)
  obtain ⟨sheet, data, hread, hexport, rfl⟩ := hholds
  refine ⟨sheet, data, readExcel_ok_congr ?_ hread, hexport, rfl⟩
  rw [List.append_assoc, List.append_assoc, pathKey_closed hclosed, pathKey_closed hclosed,
    hworkbook]

/-! ### The disk afterwards -/

/-- A folder in which an export does not write stays as it is. -/
theorem Job.keeps_folderAt {j : Job} {q : List Text} {sub : Disk}
    (h : ∀ path ∈ j.path, ¬ q <+: pathKey fold path) :
    Keeps (fun s => s.folderAt (nameKey fold) q = some sub) (fun _ => True) (j.run fold) := by
  intro s hs
  refine ⟨?_, fun _ _ => trivial⟩
  cases hpath : j.path with
  | none =>
    rw [Job.run_of_path_eq_none hpath]
    exact hs
  | some path =>
    rw [Job.run_of_path_eq_some hpath]
    split
    · exact hs
    · rw [writeFile_outcome]
      split
      · next hwrite =>
        have hup := h path hpath
        rw [← map_nameKey_entryNames] at hup
        exact (FileTree.folderAt_write_elsewhere hwrite hup).trans hs
      · exact hs

/-- No output lies in the input. -/
theorem Clear.output_apart (h : Clear fold o json disk tree)
    (hf : f ∈ filesWith ".xlsx".toList [] tree) (hside : side ∈ sides) :
    ¬ pathKey fold (formatPath o.excelPath) <+: pathKey fold (outputPath json side f) := by
  intro hup
  have hkey := @pathKey_outputPath fold json tree f side hside hf (h.slash f hf)
  rw [hkey, List.prefix_concat_iff, ← hkey] at hup
  rcases hup with heq | hup
  · obtain ⟨sub, hsub, -⟩ := h.exists_folder
    rw [heq, (h.noFolder f hf side hside).1] at hsub
    cases hsub
  · obtain ⟨path, hpath, heq⟩ := @mem_foldersMade fold json tree f side h.closed hside hf
    exact h.apart path hpath (by rw [heq]; exact hup)

/-- What is written for a side is one content. -/
theorem Holds.unique {content content' : Content} (h : Holds sys o disk side f content)
    (h' : Holds sys o disk side f content') : content = content' := by
  obtain ⟨sheet, data, hread, hexport, rfl⟩ := h
  obtain ⟨sheet', data', hread', hexport', rfl⟩ := h'
  rw [hread] at hread'
  cases hread'
  rw [hexport] at hexport'
  cases hexport'
  rfl

variable (disk json tree o sys) in
/-- The disk after the export of a tree. -/
structure TreeExported (after : Disk) : Prop where
  outputs : ∀ f ∈ filesWith ".xlsx".toList [] tree, ∀ side ∈ sides, ∃ content,
    Holds sys o disk side f content ∧
      after.fileAt (nameKey sys.fold) (pathKey sys.fold (outputPath json side f)) = some content
  others : ∀ q, (∀ f ∈ filesWith ".xlsx".toList [] tree, ∀ side ∈ sides,
      pathKey sys.fold (outputPath json side f) ≠ q) →
    after.fileAt (nameKey sys.fold) q = disk.fileAt (nameKey sys.fold) q
  folders : ∀ q, (after.folderAt (nameKey sys.fold) q).isSome ↔
    (disk.folderAt (nameKey sys.fold) q).isSome ∨
      ∃ path ∈ foldersMade json tree, q <+: pathKey sys.fold path
  input : after.folderAt (nameKey sys.fold) (pathKey sys.fold (formatPath o.excelPath)) =
    disk.folderAt (nameKey sys.fold) (pathKey sys.fold (formatPath o.excelPath))

/-- All workbooks of a tree are exported if each of them can be. -/
theorem Clear.ok_iff (hfold : SmallLettersDiffer sys.fold) (h : Clear sys.fold o json disk tree) :
    ((export2Folder sys o).outcome disk).1 = .ok () ↔
      ∀ f ∈ filesWith ".xlsx".toList [] tree, Exportable sys o disk f := by
  obtain ⟨made, files, hmade, hfolders, hfiles, hperm⟩ := h.prepared
  have hclient : (client, "c") ∈ sides := List.mem_cons_self
  obtain ⟨front, after, hexported, hgood, hend⟩ := exportTree_outcome hfold hmade hfiles
  rcases hend with ⟨rfl, hrun⟩ | ⟨bad, back, fault, hjobs, hbad, hrun⟩
  · rw [export2Folder, hrun]
    refine iff_of_true rfl fun f hf => ?_
    exact (h.good_iff hfolders hclient hf).mp (hgood _ (sideJob_mem hperm hclient hf))
  · rw [export2Folder, hrun]
    refine iff_of_false (fun hok => by cases hok) fun hall => hbad ?_
    have hmem : bad ∈ files.flatMap (jobsOf sys o.formatted) := by
      rw [hjobs]
      exact List.mem_append_right _ List.mem_cons_self
    rcases h.mem_jobs hperm hmem with ⟨f, hf, side, hside, rfl⟩ | hnone
    · exact (h.good_iff hfolders hside hf).mpr (hall f hf)
    · intro path hpath
      rw [hnone] at hpath
      cases hpath

/-- Whatever is written to the file of an output is the content of that output. -/
theorem Clear.written_eq (hfold : SmallLettersDiffer sys.fold) (h : Clear sys.fold o json disk tree)
    (hsame : SameFiles sys.fold disk made) {files : List Text}
    (hperm : files.Perm ((filesWith ".xlsx".toList [] tree).map found)) (hside : side ∈ sides)
    {content : Content} (hholds : Holds sys o disk side f content) {j : Job}
    (hj : j ∈ files.flatMap (jobsOf sys o.formatted)) {b : Option Content}
    (hb : j.written sys.fold made (pathKey sys.fold (outputPath json side f)) = some b) :
    b = some content := by
  rcases h.mem_jobs hperm hj with ⟨f', hf', side', hside', rfl⟩ | hnone
  · rw [Job.written, h.path_sideJob, Option.bind_some] at hb
    split at hb
    · next hkey =>
      have hother := h.holds_congr hfold hside hside' hkey.symm hholds
      rw [hsame.content_eq, content_sideJob.mpr hother] at hb
      exact (Option.some.inj hb).symm
    · cases hb
  · rw [Job.written, hnone] at hb
    cases hb

/-- No export writes into the input. -/
theorem Clear.job_apart (h : Clear sys.fold o json disk tree) {files : List Text}
    (hperm : files.Perm ((filesWith ".xlsx".toList [] tree).map found)) {j : Job}
    (hj : j ∈ files.flatMap (jobsOf sys o.formatted)) {path : Text} (hpath : path ∈ j.path) :
    ¬ pathKey sys.fold (formatPath o.excelPath) <+: pathKey sys.fold path := by
  rcases h.mem_jobs hperm hj with ⟨f, hf, side, hside, rfl⟩ | hnone
  · rw [h.path_sideJob] at hpath
    cases hpath
    exact h.output_apart hf hside
  · rw [hnone] at hpath
    cases hpath

/-- What is on the disk when they are. -/
theorem Clear.exported (hfold : SmallLettersDiffer sys.fold) (h : Clear sys.fold o json disk tree)
    {after : Disk} (hrun : (export2Folder sys o).outcome disk = (.ok (), after)) :
    TreeExported disk json tree o sys after := by
  obtain ⟨made, files, hmade, hfolders, hfiles, hperm⟩ := h.prepared
  have hsame := hfolders.sameFiles
  obtain ⟨front, after', hexported, hgood, hend⟩ := exportTree_outcome hfold hmade hfiles
  rw [export2Folder] at hrun
  rcases hend with ⟨rfl, hrun'⟩ | ⟨bad, back, fault, -, -, hrun'⟩
  · rw [hrun] at hrun'
    cases hrun'
    refine ⟨fun f hf side hside => ?_, fun q hq => ?_, fun q => ?_, ?_⟩
    · have hjob : sideJob sys o side f ∈ files.flatMap (jobsOf sys o.formatted) :=
        sideJob_mem hperm hside hf
      obtain ⟨⟨content, hcontent⟩, -⟩ := hgood _ hjob _ (h.path_sideJob side f)
      have hholds := hcontent
      rw [hsame.content_eq, content_sideJob] at hholds
      refine ⟨content, hholds, ?_⟩
      rw [hexported.files]
      refine Run.lastWritten_eq_of_forall _ hjob ?_ fun j hj b hb =>
        h.written_eq hfold hsame hperm hside hholds hj hb
      rw [Job.written, h.path_sideJob, Option.bind_some, if_pos rfl]
      exact Option.some_ne_none _
    · rw [hexported.files, Run.lastWritten_of_forall_none _ fun j hj => ?_, hfolders.files]
      rcases h.mem_jobs hperm hj with ⟨f, hf, side, hside, rfl⟩ | hnone
      · rw [Job.written, h.path_sideJob, Option.bind_some, if_neg (hq f hf side hside)]
      · rw [Job.written, hnone]
        rfl
    · rw [hexported.folders, hfolders.folders]
    · obtain ⟨sub, hsub, -⟩ := h.exists_folder
      rw [exportTree_outcome_eq hmade hfiles] at hrun
      have hkeeps := Keeps.forM fun j hj =>
        @Job.keeps_folderAt sys.fold j _ sub fun path hpath => h.job_apart hperm hj hpath
      have hkept := (hkeeps made (hfolders.others _ sub hsub h.apart)).1
      rw [hrun] at hkept
      rw [hsub]
      exact hkept
  · rw [hrun] at hrun'
    cases hrun'

/-- The path of the input is that of no output. -/
theorem Clear.output_ne_input (h : Clear fold o json disk tree)
    (hf : f ∈ filesWith ".xlsx".toList [] tree) (hside : side ∈ sides) :
    pathKey fold (outputPath json side f) ≠ pathKey fold (formatPath o.excelPath) :=
  fun heq => h.output_apart hf hside (heq ▸ List.prefix_rfl)

/-- A run finds a folder at the path of the input, and no file. -/
theorem Clear.run_eq (hfold : SmallLettersDiffer sys.fold) (h : Clear sys.fold o json disk tree) :
    (run sys o).outcome disk = (export2Folder sys o).outcome disk := by
  have hne : formatFilePath o.excelPath ≠ [] := by
    intro hempty
    refine h.formatPath_ne_nil ?_
    rw [List.map_eq_nil_iff.mp hempty]
    rfl
  have hexists : directoryExists sys.fold disk (formatFilePath o.excelPath) = true := by
    rw [directoryExists, directoryInfo_listing hne, ← pathKey_formatPath,
      ← directoryInfo_listing h.formatPath_ne_nil, h.input]
    rfl
  have hfolder : (runFolder sys o).outcome disk = (export2Folder sys o).outcome disk := by
    rw [runFolder, outcome_bind_of_ok (outcome_get disk), if_pos hexists]
  rw [run]
  rcases hrun : (export2Folder sys o).outcome disk with ⟨fault | _, after⟩
  · rw [outcome_bind_of_error (hfolder.trans hrun)]
  · have hinput := (h.exported hfold hrun).others _ fun f hf side => h.output_ne_input hf
    have hfile : fileExists sys.fold after (formatFilePath o.excelPath) = false := by
      rw [fileExists, readFile, ← pathKey_formatPath, hinput, h.inputFile, ite_self]
      rfl
    rw [outcome_bind_of_ok (hfolder.trans hrun), runFile, outcome_bind_of_ok (outcome_get after),
      hfile]
    rfl

/-- The workbooks are as they were. -/
theorem TreeExported.readExcel_eq (hfold : SmallLettersDiffer sys.fold) {after : Disk}
    (h : TreeExported disk json tree o sys after) (s : Text) :
    readExcel sys.fold (some (s ++ ".xlsx".toList)) after =
      readExcel sys.fold (some (s ++ ".xlsx".toList)) disk := by
  refine readExcel_congr fun source hsource => ?_
  cases hsource
  exact h.others _ fun f _ side _ => pathKey_ext_ne hfold .json .xlsx (by decide) _ _

/-- Nothing is in the way of another export. -/
theorem Clear.again (h : Clear sys.fold o json disk tree) {after : Disk}
    (hafter : TreeExported disk json tree o sys after) : Clear sys.fold o json after tree := by
  refine { h with input := ?_, inputFile := ?_, noFile := ?_, noFolder := ?_ }
  · rw [directoryInfo_listing h.formatPath_ne_nil, hafter.input,
      ← directoryInfo_listing h.formatPath_ne_nil]
    exact h.input
  · rw [hafter.others _ fun f hf side => h.output_ne_input hf, h.inputFile]
  · intro path hpath q hup
    rw [hafter.others q fun f hf side hside heq => ?_]
    · exact h.noFile path hpath q hup
    · exact (h.noFolder f hf side hside).2 path hpath (by rw [heq]; exact hup)
  · intro f hf side hside
    exact ⟨h.folderAt_output hf hside hafter.folders, (h.noFolder f hf side hside).2⟩

end

/-- A run over a clear tree ends well exactly if all of its workbooks can be exported. Then there is a
    file for each workbook and each side, with the data of its sheet, and all other files are as
    they were. -/
theorem tree_exported (sys : Platform) (hfold : SmallLettersDiffer sys.fold) {o : Options}
    {json : Text} {disk : Disk} {tree : Listing EntryName} (h : Clear sys.fold o json disk tree) :
    (((run sys o).outcome disk).1 = .ok () ↔
      ∀ f ∈ filesWith ".xlsx".toList [] tree, Exportable sys o disk f) ∧
    ∀ after, (run sys o).outcome disk = (.ok (), after) →
      (∀ f ∈ filesWith ".xlsx".toList [] tree, ∀ side ∈ sides, ∃ content,
        Holds sys o disk side f content ∧
          after.fileAt (nameKey sys.fold) (pathKey sys.fold (outputPath json side f)) =
            some content) ∧
      ∀ q, (∀ f ∈ filesWith ".xlsx".toList [] tree, ∀ side ∈ sides,
          pathKey sys.fold (outputPath json side f) ≠ q) →
        after.fileAt (nameKey sys.fold) q = disk.fileAt (nameKey sys.fold) q := by
  rw [h.run_eq hfold]
  exact ⟨h.ok_iff hfold,
    fun _ hrun => ⟨(h.exported hfold hrun).outputs, (h.exported hfold hrun).others⟩⟩

theorem monster_name :
    ['a', '.', 'x', 'l', 's', 'x'] ≠ [] ∧ '\\' ∉ ['a', '.', 'x', 'l', 's', 'x'] := by
  decide

/-- The folder with a workbook, without its contents. -/
def monsterTree : Listing EntryName := .file ⟨['a', '.', 'x', 'l', 's', 'x'], monster_name⟩ .nil

theorem monster_input :
    pathKey Char.toLower (formatPath monsterOptions.excelPath) = [['i', 'n']] := by
  decide

theorem monster_clear :
    Clear Char.toLower monsterOptions ['o', 'u', 't', '/'] monsterDisk monsterTree where
  jsonPath := rfl
  sqlPath := rfl
  closed := ⟨['o', 'u', 't'], by decide⟩
  input := by
    rw [directoryInfo_listing (by decide), monster_input]
    simp [monsterDisk, FileTree.folderAt, FileTree.folder?, nameKey, FileTree.listing, monsterTree]
  inputFile := by
    rw [monster_input]
    rfl
  distinct := by simp [monsterTree, Listing.Distinct]
  unbranched := by simp [monsterTree, Listing.Unbranched]
  slash := by decide
  apart := by decide
  noFile := by
    have hnone : ∀ path ∈ foldersMade ['o', 'u', 't', '/'] monsterTree,
        ∀ q ∈ (pathKey Char.toLower path).inits,
          (monsterDisk.fileAt (nameKey Char.toLower) q).isNone = true := by decide
    exact fun path hpath q hq =>
      Option.isNone_iff_eq_none.mp (hnone path hpath q ((List.mem_inits _ _).mpr hq))
  noFolder := by
    have hnone : ∀ f ∈ filesWith ".xlsx".toList [] monsterTree, ∀ side ∈ sides,
        (monsterDisk.folderAt (nameKey Char.toLower)
          (pathKey Char.toLower (outputPath ['o', 'u', 't', '/'] side f))).isNone = true ∧
        ∀ path ∈ foldersMade ['o', 'u', 't', '/'] monsterTree,
          ¬ pathKey Char.toLower (outputPath ['o', 'u', 't', '/'] side f) <+:
            pathKey Char.toLower path := by decide
    exact fun f hf side hside =>
      ⟨Option.isNone_iff_eq_none.mp (hnone f hf side hside).1, (hnone f hf side hside).2⟩

theorem monster_exportable : ∀ f ∈ filesWith ".xlsx".toList [] monsterTree,
    Exportable plainPlatform monsterOptions monsterDisk f := by
  have hfound : ∀ f ∈ filesWith ".xlsx".toList [] monsterTree,
      pathKey Char.toLower
        (formatFilePath (formatPath monsterOptions.excelPath ++ found f ++ ".xlsx".toList)) =
          [['i', 'n'], ['a', '.', 'x', 'l', 's', 'x']] := by decide
  have hlast : ∀ f ∈ filesWith ".xlsx".toList [] monsterTree,
      (formatFilePath (formatPath monsterOptions.excelPath ++ found f ++ ".xlsx".toList)).getLast? ≠
        some '\\' := by decide
  intro f hf
  refine ⟨monsterSheet (1 / 2), ?_, by decide, by decide, by decide⟩
  have hread : readFile Char.toLower monsterDisk
      (formatFilePath (formatPath monsterOptions.excelPath ++ found f ++ ".xlsx".toList)) =
        some (.workbook [monsterSheet (1 / 2)]) := by
    rw [readFile, if_neg (hlast f hf), hfound f hf, monsterDisk_file]
  change sheetOf _ (readFile Char.toLower monsterDisk _) = _
  rw [hread]
  rfl

/-- The workbook is exported. -/
theorem tree_exported_monster :
    Clear Char.toLower monsterOptions ['o', 'u', 't', '/'] monsterDisk monsterTree ∧
      ((run plainPlatform monsterOptions).outcome monsterDisk).1 = .ok () := by
  have hexported := tree_exported plainPlatform smallLettersDiffer_toLower monster_clear
  exact ⟨monster_clear, hexported.1.mpr monster_exportable⟩

/-- What has been exported can be exported again, and that changes no file and makes no folder. -/
theorem export_twice (sys : Platform) (hfold : SmallLettersDiffer sys.fold) {o : Options}
    {json : Text} {disk : Disk} {tree : Listing EntryName} (h : Clear sys.fold o json disk tree)
    {after : Disk} (hrun : (run sys o).outcome disk = (.ok (), after)) :
    ∃ again, (run sys o).outcome after = (.ok (), again) ∧
      ∀ q, again.fileAt (nameKey sys.fold) q = after.fileAt (nameKey sys.fold) q ∧
        (again.folderAt (nameKey sys.fold) q).isSome =
          (after.folderAt (nameKey sys.fold) q).isSome := by
  rw [h.run_eq hfold] at hrun
  have hafter := h.exported hfold hrun
  have hclear := h.again hafter
  have hexportable : ∀ f ∈ filesWith ".xlsx".toList [] tree, Exportable sys o disk f :=
    (h.ok_iff hfold).mp (by rw [hrun])
  have hok : ((export2Folder sys o).outcome after).1 = .ok () := by
    refine (hclear.ok_iff hfold).mpr fun f hf => ?_
    obtain ⟨sheet, hread, hsheet⟩ := hexportable f hf
    exact ⟨sheet, (hafter.readExcel_eq hfold _).trans hread, hsheet⟩
  obtain ⟨again, hagain⟩ := exists_outcome_of_ok hok
  have htwice := hclear.exported hfold hagain
  refine ⟨again, (hclear.run_eq hfold).trans hagain, fun q => ⟨?_, ?_⟩⟩
  · by_cases hq : ∃ f ∈ filesWith ".xlsx".toList [] tree, ∃ side ∈ sides,
        pathKey sys.fold (outputPath json side f) = q
    · obtain ⟨f, hf, side, hside, rfl⟩ := hq
      obtain ⟨content, hholds, hfile⟩ := hafter.outputs f hf side hside
      obtain ⟨content', ⟨sheet, data, hread, hexport, hcontent⟩, hfile'⟩ :=
        htwice.outputs f hf side hside
      rw [hafter.readExcel_eq hfold] at hread
      rw [hfile, hfile', hholds.unique ⟨sheet, data, hread, hexport, hcontent⟩]
    · exact htwice.others q fun f hf side hside heq => hq ⟨f, hf, side, hside, heq⟩
  · rw [Bool.eq_iff_iff, htwice.folders, hafter.folders, or_assoc, or_self]

/-- The workbook can be exported twice. -/
theorem export_twice_monster : ∃ after again,
    (run plainPlatform monsterOptions).outcome monsterDisk = (.ok (), after) ∧
      (run plainPlatform monsterOptions).outcome after = (.ok (), again) := by
  have hok : ((run plainPlatform monsterOptions).outcome monsterDisk).1 = .ok () := by
    rw [monster_clear.run_eq smallLettersDiffer_toLower]
    exact (monster_clear.ok_iff smallLettersDiffer_toLower).mpr monster_exportable
  obtain ⟨after, hafter⟩ := exists_outcome_of_ok hok
  obtain ⟨again, hagain, -⟩ := export_twice plainPlatform smallLettersDiffer_toLower monster_clear
    hafter
  exact ⟨after, again, hafter, hagain⟩

end Exporter

end TerraX
