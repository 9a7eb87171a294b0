import TerraX.Lib.Effect
import TerraX.Lib.FileTree
import TerraX.Tools.SqlExporter

/-!
# The export of a folder

`excel2json` makes the output folders, looks for the `.xlsx` files in the tree of the input folder,
and exports each of them, to JSON for the client, to JSON for the server, and to SQL. The first
exception ends it, and what has been written by then stays.

## Main definitions

- `Exporter.Content`, `Exporter.Disk` — the files of the disk
- `Exporter.LocalPath` — the paths that lead to something on it
- `Exporter.Platform`, `Exporter.Options` — the system, and what the tool is asked for
- `Exporter.export2Folder`, `Exporter.export2File`, `Exporter.run` — the tool

## Main results

- `Exporter.directoryInfo_listing` — a path leads a search to where it leads on the disk
- `Exporter.search_ne_tooDeep` — the calls of a search end
-/

namespace TerraX

namespace Exporter

open JsonExporter Effect

/-- What a file holds: the sheets of a workbook, what was exported with an encoding, or bytes that
    are no workbook. -/
inductive Content
  | workbook (tables : List Sheet)
  | json (encoding : Option Text) (data : Data)
  | sql (encoding : Option Text) (script : Text)
  | other (bytes : List UInt8)

/-- The files and folders, as seen from the folder in which the tool runs. -/
abbrev Disk := FileTree EntryName Content

/-- The exceptions of the tool. -/
inductive ExporterFault
  /-- A search for files or folders failed. -/
  | search (fault : SearchFault)
  /-- `ArgumentNullException`. -/
  | argumentNull
  /-- There is no such file to read, or it cannot be opened. -/
  | notFound (path : Text)
  /-- There is no such folder to write to, or a folder has the name of the file. -/
  | notWritable (path : Text)
  /-- A file has the name of a folder on the path. -/
  | notCreated (path : Text)
  /-- A file that is no workbook: the reader returns no book. -/
  | nullReference
  /-- An exception with a message. -/
  | message (text : Text)
  /-- An exporter failed. -/
  | exporter (fault : ExportFault)

/-- What the tool does to the disk. -/
abbrev Export (α : Type) := Effect Disk ExporterFault α

/-- A name, where a part of a path is one. -/
def entryName (s : Text) : Option EntryName :=
  if h : s ≠ [] ∧ '\\' ∉ s then some ⟨s, h⟩ else none

/-- The names in a path. -/
def entryNames (path : Text) : List EntryName := (path.splitOn '\\').filterMap entryName

/-- Names are compared up to case. -/
def nameKey (fold : Char → Char) (name : EntryName) : Text := name.val.map fold

/-- The keys of the names in a path from the folder in which the tool runs. -/
def pathKey (fold : Char → Char) (path : Text) : List Text := (components path).map (List.map fold)

/-- `Exporter.FormatPath` of a file. -/
def formatFilePath (path : Text) : Text := path.map fun c => if c = '/' then '\\' else c

theorem formatFilePath_append (s t : Text) :
    formatFilePath (s ++ t) = formatFilePath s ++ formatFilePath t :=
  List.map_append

/-- Formatting a path a second time changes nothing. -/
theorem formatFilePath_idem (path : Text) :
    formatFilePath (formatFilePath path) = formatFilePath path := by
  rw [formatFilePath, formatFilePath, List.map_map]
  refine List.map_congr_left fun c _ => ?_
  by_cases hc : c = '/'
  · simp [hc]
  · simp [hc]

theorem formatPath_eq (path : Text) : formatPath path = formatFilePath path ∨
    formatPath path = formatFilePath path ++ ['\\'] := by
  rw [formatPath]
  split
  · next hempty =>
    rw [hempty]
    exact .inl rfl
  · dsimp only
    split
    · exact .inl rfl
    · exact .inr rfl

/-- The path of a folder has the same names when it is formatted. -/
theorem components_formatPath (path : Text) :
    components (formatPath path) = components (formatFilePath path) := by
  rcases formatPath_eq path with heq | heq
  · rw [heq]
  · rw [heq, components_append, components_nil, List.append_nil]

/-- A path from the folder in which the tool runs, on which each name is that of a file or folder:
    it has no root and no drive, and no `.` or `..`, nor another name that ends with a dot or a
    space, which the system drops. -/
structure LocalPath (path : Text) : Prop where
  relative : path.head? ≠ some '/' ∧ path.head? ≠ some '\\' ∧ ':' ∉ path
  names : ∀ name ∈ components (formatFilePath path),
    name.getLast? ≠ some '.' ∧ name.getLast? ≠ some ' '

/-- Formatting a path replaces separators by others. -/
theorem mem_formatFilePath {path : Text} {c : Char} (hc : c ≠ '\\') (h : c ∈ formatFilePath path) :
    c ∈ path := by
  obtain ⟨c', hc', rfl⟩ := List.mem_map.mp h
  split at hc
  · exact absurd rfl hc
  · next hslash =>
    rw [if_neg hslash]
    exact hc'

/-- The path of a folder is still one when it is formatted. -/
theorem LocalPath.formatPath {path : Text} (h : LocalPath path) : LocalPath (formatPath path) := by
  obtain ⟨⟨hslash, hroot, hdrive⟩, hnames⟩ := h
  have hcolon : ':' ∉ TerraX.formatPath path := by
    rcases formatPath_eq path with heq | heq
    · rw [heq]
      exact fun hmem => hdrive (mem_formatFilePath (by decide) hmem)
    · rw [heq, List.mem_append, List.mem_singleton]
      exact fun hmem => hmem.elim (fun hmem => hdrive (mem_formatFilePath (by decide) hmem))
        (by decide)
  have hhead : (TerraX.formatPath path).head? = path.head? := by
    cases path with
    | nil => rfl
    | cons c path =>
      have hc : c ≠ '/' := fun heq => hslash (congrArg some heq)
      rcases formatPath_eq (c :: path) with heq | heq
      · rw [heq, formatFilePath, List.map_cons, if_neg hc]
        rfl
      · rw [heq, formatFilePath, List.map_cons, if_neg hc]
        rfl
  have hformatted : formatFilePath (TerraX.formatPath path) = TerraX.formatPath path := by
    rcases formatPath_eq path with heq | heq
    · rw [heq, formatFilePath_idem]
    · rw [heq, formatFilePath_append, formatFilePath_idem]
      rfl
  refine ⟨?_, ?_⟩
  · rw [hhead]
    exact ⟨hslash, hroot, hcolon⟩
  · rw [hformatted, components_formatPath]
    exact hnames

/-- `Exporter.GenerateFileName`, with a file name and an extension that are there. -/
def generateFileName (folder : Option Text) (file ext : Text) : Option Text :=
  folder.map fun folder => folder ++ file ++ ext

/-- `Exporter.GetEncoding`: the encoding of the system with that name, or UTF-8 without a mark. -/
def getEncoding (encodings : List Text) (encoding : Text) : Option Text :=
  if encoding ≠ "utf8-nobom".toList then encodings.find? (· = encoding) else none

section

variable (fold : Char → Char)

/-- The content of the file at a path, where there is one. -/
def readFile (disk : Disk) (path : Text) : Option Content :=
  if path.getLast? = some '\\' then none else disk.fileAt (nameKey fold) (pathKey fold path)

/-- `Directory.Exists`. -/
def directoryExists (disk : Disk) (path : Text) : Bool :=
  (directoryInfo fold disk.listing path).isSome

/-- `File.Exists`. -/
def fileExists (disk : Disk) (path : Text) : Bool := (readFile fold disk path).isSome

/-- `Directory.CreateDirectory`. -/
def createDirectory (path : Text) : Export Unit := do
  let disk ← get
  match disk.createFolders (nameKey fold) (entryNames path) with
  | some disk => set disk
  | none => throw (.notCreated path)

/-- `if (!Directory.Exists(folder)) Directory.CreateDirectory(folder)`. -/
def ensureDirectory (folder : Text) : Export Unit := do
  let disk ← get
  if directoryExists fold disk folder then pure () else createDirectory fold folder

/-- `new FileStream(path, FileMode.Create, FileAccess.Write)`, and the writing. -/
def writeFile (path : Text) (content : Content) : Export Unit := do
  let disk ← get
  match disk.write (nameKey fold) (entryNames path) content with
  | some disk => set disk
  | none => throw (.notWritable path)

/-- A search: no path leads deeper than the disk is. -/
def search (find : Listing EntryName → ℕ → Except SearchFault (List Text)) :
    Export (List Text) := do
  let disk ← get
  match find disk.listing (disk.listing.height + 1) with
  | .ok paths => pure paths
  | .error fault => throw (.search fault)

/-- `Exporter.CreateFolders`. -/
def createFolders (root : Option Text) (child : Text) : Export Unit :=
  match root with
  | none => pure ()
  | some root => if root = [] then pure () else ensureDirectory fold (formatPath (root ++ child))

/-- `Exporter.ReadExcel`, of what is at a path. -/
def sheetOf (path : Text) (content : Option Content) : Except ExporterFault Sheet :=
  match content with
  | none => .error (.notFound path)
  | some (.workbook []) => .error (.message ("Excel文件中没有找到Sheet: ".toList ++ path))
  | some (.workbook (sheet :: _)) =>
    if sheet.rows.length ≤ 0 then .error (.message ("Excel Sheet中没有数据: ".toList ++ path))
    else .ok sheet
  | some _ => .error .nullReference

/-- `Exporter.ReadExcel`. -/
def readExcel (path : Option Text) (disk : Disk) : Except ExporterFault Sheet :=
  match path with
  | none => .error .argumentNull
  | some path => sheetOf (formatFilePath path) (readFile fold disk (formatFilePath path))

/-- An exporter: what it makes of a sheet, for the path it is written to. -/
abbrev Maker := Text → Sheet → Except ExportFault Content

/-- What `Exporter.Export2Json` and `Exporter.Export2Sql` share: nothing without a path to write to,
    else the sheet is read, converted and written. -/
def exportSheet (make : Maker) (excelPath target : Option Text) : Export Unit :=
  match target with
  | none => pure ()
  | some target =>
    if target = [] then pure ()
    else do
      let disk ← get
      match readExcel fold excelPath disk with
      | .error fault => throw fault
      | .ok dt =>
        match make (formatFilePath target) dt with
        | .error fault => throw (.exporter fault)
        | .ok content => writeFile fold (formatFilePath target) content

end

/-- What the tool finds on its system: which names are the same, how letters become small ones and
    numbers texts, and the encodings. -/
structure Platform where
  fold : Char → Char
  toLower : Char → Char
  format : ℚ → String
  encodings : List Text

/-- `Program.Options`, with paths that can be told without the folders around the one in which the
    tool runs. -/
structure Options where
  excelPath : Text
  jsonPath : Option Text
  sqlPath : Option Text
  headerRows : Int32
  encoding : Text
  lowcase : Bool
  localPaths : LocalPath excelPath ∧ (∀ path ∈ jsonPath, LocalPath path) ∧
    ∀ path ∈ sqlPath, LocalPath path

section Tool

variable (sys : Platform)

/-- The JSON of a sheet. -/
def makeJson (o : Options) (filter : String) : Maker := fun _ dt =>
  (JsonExporter.export2Json sys.toLower sys.format dt o.headerRows.toInt o.lowcase filter).map
    (.json (getEncoding sys.encodings o.encoding))

/-- The SQL of a sheet. -/
def makeSql (o : Options) : Maker := fun path dt =>
  (SqlExporter.saveToFile sys.format dt o.headerRows path).map
    (.sql (getEncoding sys.encodings o.encoding))

/-- `Exporter.Export2Json`. -/
def export2Json (o : Options) (excelPath jsonPath : Option Text) (filter : String) : Export Unit :=
  exportSheet sys.fold (makeJson sys o filter) excelPath jsonPath

/-- `Exporter.Export2Sql`. -/
def export2Sql (o : Options) (excelPath sqlPath : Option Text) : Export Unit :=
  exportSheet sys.fold (makeSql sys o) excelPath sqlPath

/-- `Client\`. -/
def client : Text := "Client\\".toList

/-- `Server\`. -/
def server : Text := "Server\\".toList

/-- `Exporter.Export2Folder`, the folders of client and server. -/
def makeSides (fold : Char → Char) (jsonPath : Option Text) : Export Unit :=
  match jsonPath with
  | none => pure ()
  | some jsonPath =>
    if jsonPath = [] then pure ()
    else do
      let jsonFolder := formatPath jsonPath
      ensureDirectory fold (jsonFolder ++ client)
      ensureDirectory fold (jsonFolder ++ server)

/-- `Exporter.Export2Folder`, the loop over the folders: one turn. -/
def makeFolder (fold : Char → Char) (o : Options) (str : Text) : Export Unit := do
  createFolders fold o.jsonPath (client ++ str)
  createFolders fold o.jsonPath (server ++ str)
  createFolders fold o.sqlPath str

/-- `Exporter.Export2Folder`, before the search for files. -/
def makeFolders (fold : Char → Char) (o : Options) : Export Unit := do
  let folders ← search fun disk depth =>
    Excel2json.searchFoldersInFolder fold disk depth o.excelPath
  makeSides fold o.jsonPath
  forM folders (makeFolder fold o)

/-- `Exporter.Export2Folder`, the loop over the files: one turn. -/
def exportFile (o : Options) (str : Text) : Export Unit := do
  export2Json sys o (generateFileName (some o.excelPath) str ".xlsx".toList)
    (generateFileName o.jsonPath (client ++ str) ".json".toList) "c"
  export2Json sys o (generateFileName (some o.excelPath) str ".xlsx".toList)
    (generateFileName o.jsonPath (server ++ str) ".json".toList) "s"
  export2Sql sys o (generateFileName o.sqlPath str ".xlsx".toList)
    (generateFileName o.sqlPath str ".sql".toList)

/-- `Exporter.Export2Folder`, with a formatted path. -/
def exportTree (o : Options) : Export Unit := do
  makeFolders sys.fold o
  let files ← search fun disk depth =>
    Excel2json.searchFilesInFolder sys.fold disk depth o.excelPath ".xlsx".toList
  forM files (exportFile sys o)

/-- `excelPath = FormatPath(excelPath, true)`. -/
def Options.formatted (o : Options) : Options :=
  { o with
    excelPath := formatPath o.excelPath
    localPaths := o.localPaths.imp_left LocalPath.formatPath }

/-- `Exporter.Export2Folder`. -/
def export2Folder (o : Options) : Export Unit := exportTree sys o.formatted

/-- `Exporter.Export2File`. -/
def export2File (o : Options) : Export Unit := do
  let o := o.formatted
  export2Json sys o (some o.excelPath) o.jsonPath "c"
  export2Json sys o (some o.excelPath) o.jsonPath "s"
  export2Sql sys o (some o.excelPath) o.sqlPath

/-- `Program.Run`, where the path is that of a folder. -/
def runFolder (o : Options) : Export Unit := do
  let disk ← get
  if directoryExists sys.fold disk (formatFilePath o.excelPath) then export2Folder sys o
  else pure ()

/-- `Program.Run`, where it is that of a file. -/
def runFile (o : Options) : Export Unit := do
  let disk ← get
  if fileExists sys.fold disk (formatFilePath o.excelPath) then export2File sys o else pure ()

/-- `Program.Run`. -/
def run (o : Options) : Export Unit := do
  runFolder sys o
  runFile sys o

end Tool

/-! ### Paths -/

theorem not_mem_of_mem_splitOn {path s : Text} (h : s ∈ path.splitOn '\\') : '\\' ∉ s := by
  induction path generalizing s with
  | nil =>
    rw [List.splitOn_nil, List.mem_singleton] at h
    subst h
    exact List.not_mem_nil
  | cons c path ih =>
    rw [List.splitOn_cons_eq_if_modifyHead] at h
    split at h
    · rcases List.mem_cons.mp h with rfl | h
      · exact List.not_mem_nil
      · exact ih h
    · next hc =>
      cases hsplit : path.splitOn '\\' with
      | nil => exact absurd hsplit (List.splitOn_ne_nil _ _)
      | cons first rest =>
        rw [hsplit, List.modifyHead_cons] at h
        rcases List.mem_cons.mp h with rfl | h
        · have hfirst := ih (s := first) (by rw [hsplit]; exact List.mem_cons_self)
          have hne : '\\' ≠ c := fun heq => hc (by rw [heq]; exact beq_self_eq_true c)
          exact fun hmem => (List.mem_cons.mp hmem).elim hne hfirst
        · exact ih (by rw [hsplit]; exact List.mem_cons_of_mem _ h)

/-- The names in a path are the parts that are not empty. -/
theorem map_val_entryNames (path : Text) : (entryNames path).map Subtype.val = components path := by
  have hparts : ∀ parts : List Text, (∀ s ∈ parts, '\\' ∉ s) →
      (parts.filterMap entryName).map Subtype.val = parts.filter (· ≠ []) := by
    intro parts hplain
    induction parts with
    | nil => rfl
    | cons s parts ih =>
      obtain ⟨hs, hplain⟩ := List.forall_mem_cons.mp hplain
      rw [List.filterMap_cons, entryName]
      by_cases hne : s = []
      · simp [hne, ih hplain]
      · simp [hne, hs, ih hplain]
  exact hparts _ fun s hs => not_mem_of_mem_splitOn hs

variable {fold : Char → Char}

theorem map_nameKey_entryNames (path : Text) :
    (entryNames path).map (nameKey fold) = pathKey fold path := by
  rw [pathKey, ← map_val_entryNames, List.map_map]
  rfl

/-- A folder of a directory, as the searches find it. -/
theorem subfolder_listing (t : Disk) (name : Text) :
    subfolder fold t.listing name =
      (t.folder? (nameKey fold) (name.map fold)).map FileTree.listing := by
  have hsame : (fun f : EntryName × Listing EntryName => sameName fold f.1.val name) =
      fun f => decide (nameKey fold f.1 = name.map fold) := by
    funext f
    rw [Bool.eq_iff_iff, decide_eq_true_iff]
    exact beq_iff_eq
  rw [← FileTree.find?_folders_listing, subfolder, hsame]

/-- A path leads a search to where it leads on the disk. -/
theorem directoryInfo_listing {path : Text} (h : path ≠ []) (disk : Disk) :
    directoryInfo fold disk.listing path =
      (disk.folderAt (nameKey fold) (pathKey fold path)).map FileTree.listing := by
  rw [directoryInfo, if_neg h, pathKey]
  generalize components path = names
  induction names generalizing disk with
  | nil => rfl
  | cons name names ih =>
    rw [List.foldlM_cons, subfolder_listing, List.map_cons, FileTree.folderAt_cons]
    cases disk.folder? (nameKey fold) (name.map fold) with
    | none => rfl
    | some sub => exact ih sub

/-! ### The depth of a search -/

section

variable {disk : Listing EntryName}

theorem height_subfolder {folder sub : Listing EntryName} {name : Text}
    (h : subfolder fold folder name = some sub) : sub.height < folder.height := by
  obtain ⟨f, hfind, rfl⟩ := Option.map_eq_some_iff.mp h
  exact Listing.height_lt (List.mem_of_find?_eq_some hfind)

/-- A path leads up into a tree. -/
theorem height_directoryInfo {path : Text} {tree : Listing EntryName}
    (h : directoryInfo fold disk path = some tree) : tree.height ≤ disk.height := by
  rw [directoryInfo] at h
  split at h
  · cases h
  · generalize components path = names at h
    induction names generalizing disk with
    | nil =>
      cases h
      exact le_rfl
    | cons name names ih =>
      obtain ⟨sub, hsub, h⟩ := Option.bind_eq_some_iff.mp ((List.foldlM_cons ..).symm.trans h)
      exact (ih h).trans (height_subfolder hsub).le

/-- A loop over folders does not go deeper than the directory is, though its path grows. -/
theorem loopFolders_ne_tooDeep {search : Text → Except SearchFault (List Text)} {rootPath : Text}
    {depth : ℕ}
    (hsearch : ∀ path, Closed (rootPath ++ path) →
      (∀ f, directoryInfo fold disk (rootPath ++ path) = some f → f.height < depth) →
        search path ≠ .error .tooDeep)
    (hfound : ∀ path out, search path = .ok out →
      ∃ f, directoryInfo fold disk (rootPath ++ path) = some f)
    {names : List EntryName} {childPath : Text} {folder : Listing EntryName}
    (hclosed : Closed (rootPath ++ childPath))
    (hdir : directoryInfo fold disk (rootPath ++ childPath) = some folder)
    (hheight : folder.height ≤ depth) :
    Excel2json.loopFolders search childPath names ≠ .error .tooDeep := by
  induction names generalizing childPath folder with
  | nil => exact fun h => by cases h
  | cons name names ih =>
    have hsub : ∀ f, directoryInfo fold disk (rootPath ++ joinFolder childPath name) = some f →
        f.height < folder.height := by
      intro f hf
      rw [directoryInfo_joinFolder hdir hclosed] at hf
      exact height_subfolder hf
    have hnext := Closed.joinFolder rootPath childPath name
    have hfirst := hsearch (joinFolder childPath name) hnext
      fun f hf => Nat.lt_of_lt_of_le (hsub f hf) hheight
    rw [Excel2json.loopFolders]
    cases hbelow : search (joinFolder childPath name) with
    | error fault =>
      rw [hbelow] at hfirst
      exact hfirst
    | ok below =>
      obtain ⟨f, hf⟩ := hfound _ below hbelow
      have hrest := ih hnext hf ((hsub f hf).le.trans hheight)
      dsimp only [Bind.bind, Except.bind]
      cases hbehind : Excel2json.loopFolders search (joinFolder childPath name) names with
      | error fault =>
        rw [hbehind] at hrest
        exact hrest
      | ok behind => exact fun h => by cases h

/-- A loop over the folders of a directory, with a depth for the calls that is at least its height.
    -/
theorem loopFolders_folders_ne_tooDeep {search : Text → Except SearchFault (List Text)}
    {rootPath childPath : Text} {depth : ℕ} {folder : Listing EntryName}
    (hsearch : 0 < depth → ∀ path, Closed (rootPath ++ path) →
      (∀ f, directoryInfo fold disk (rootPath ++ path) = some f → f.height < depth) →
        search path ≠ .error .tooDeep)
    (hfound : ∀ path out, search path = .ok out →
      ∃ f, directoryInfo fold disk (rootPath ++ path) = some f)
    (hclosed : Closed (rootPath ++ childPath))
    (hdir : directoryInfo fold disk (rootPath ++ childPath) = some folder)
    (hheight : folder.height ≤ depth) :
    Excel2json.loopFolders search childPath (folder.folders.map Prod.fst) ≠ .error .tooDeep := by
  cases hfolders : folder.folders with
  | nil => exact fun h => by cases h
  | cons f fs =>
    have hf : f ∈ folder.folders := by rw [hfolders]; exact List.mem_cons_self
    have hlt := Listing.height_lt hf
    exact loopFolders_ne_tooDeep (hsearch (by omega)) hfound hclosed hdir hheight

theorem directoryInfo_of_doSearchFolders {rootPath childPath : Text} {depth : ℕ} {out : List Text}
    (h : Excel2json.doSearchFolders fold disk rootPath depth childPath = .ok out) :
    ∃ f, directoryInfo fold disk (rootPath ++ childPath) = some f := by
  cases depth with
  | zero => cases h
  | succ depth =>
    rw [Excel2json.doSearchFolders] at h
    split at h
    · cases h
    · next f hf => exact ⟨f, hf⟩

theorem directoryInfo_of_doSearchFiles {rootPath fileExtension childPath : Text} {depth : ℕ}
    {out : List Text}
    (h : Excel2json.doSearchFiles fold disk rootPath fileExtension depth childPath = .ok out) :
    ∃ f, directoryInfo fold disk (rootPath ++ childPath) = some f := by
  cases depth with
  | zero => cases h
  | succ depth =>
    rw [Excel2json.doSearchFiles] at h
    split at h
    · cases h
    · next f hf => exact ⟨f, hf⟩

theorem doSearchFolders_ne_tooDeep {rootPath childPath : Text} {depth : ℕ} (hdepth : 0 < depth)
    (hclosed : Closed (rootPath ++ childPath))
    (h : ∀ f, directoryInfo fold disk (rootPath ++ childPath) = some f → f.height < depth) :
    Excel2json.doSearchFolders fold disk rootPath depth childPath ≠ .error .tooDeep := by
  induction depth generalizing childPath with
  | zero => exact absurd hdepth (Nat.lt_irrefl 0)
  | succ depth ih =>
    rw [Excel2json.doSearchFolders]
    split
    · exact fun h => by cases h
    · next folder hfolder =>
      refine loopFolders_folders_ne_tooDeep (fun hpos path hpath hlow => ?_)
        (fun path out hout => ?_)
        hclosed hfolder (Nat.le_of_lt_succ (h folder hfolder))
      · have hbelow := ih hpos hpath hlow
        cases hcall : Excel2json.doSearchFolders fold disk rootPath depth path with
        | error fault =>
          rw [hcall] at hbelow
          exact hbelow
        | ok below => exact fun h => by cases h
      · obtain ⟨below, hbelow, -⟩ := bind_ok_iff.mp hout
        exact directoryInfo_of_doSearchFolders hbelow

theorem doSearchFiles_ne_tooDeep {rootPath fileExtension childPath : Text} {depth : ℕ}
    (hdepth : 0 < depth) (hclosed : Closed (rootPath ++ childPath))
    (h : ∀ f, directoryInfo fold disk (rootPath ++ childPath) = some f → f.height < depth) :
    Excel2json.doSearchFiles fold disk rootPath fileExtension depth childPath ≠
      .error .tooDeep := by
  induction depth generalizing childPath with
  | zero => exact absurd hdepth (Nat.lt_irrefl 0)
  | succ depth ih =>
    rw [Excel2json.doSearchFiles]
    split
    · exact fun h => by cases h
    · next folder hfolder =>
      have hloop := loopFolders_folders_ne_tooDeep (fun hpos path hpath hlow => ih hpos hpath hlow)
        (fun path out hout => directoryInfo_of_doSearchFiles hout) hclosed hfolder
        (Nat.le_of_lt_succ (h folder hfolder))
      dsimp only [Bind.bind, Except.bind]
      cases hcall : Excel2json.loopFolders
          (Excel2json.doSearchFiles fold disk rootPath fileExtension depth) childPath
          (folder.folders.map Prod.fst) with
      | error fault =>
        rw [hcall] at hloop
        exact hloop
      | ok below => exact fun h => by cases h

/-- Searches from a formatted path never use up a depth greater than that of the disk. -/
theorem search_ne_tooDeep {excelPath fileExtension : Text} :
    Excel2json.searchFoldersInFolder fold disk (disk.height + 1) (formatPath excelPath) ≠
        .error .tooDeep ∧
      Excel2json.searchFilesInFolder fold disk (disk.height + 1) (formatPath excelPath)
        fileExtension ≠ .error .tooDeep := by
  have hlow : ∀ f, directoryInfo fold disk (formatPath excelPath ++ []) = some f →
      f.height < disk.height + 1 := fun f hf => Nat.lt_succ_of_le (height_directoryInfo hf)
  by_cases hne : formatPath excelPath = []
  · rw [hne]
    constructor
    · exact fun h => by cases h
    · exact fun h => by cases h
  · have hclosed := closed_formatPath hne
    rw [← List.append_nil (formatPath excelPath)] at hclosed
    exact ⟨doSearchFolders_ne_tooDeep (Nat.succ_pos _) hclosed hlow,
      doSearchFiles_ne_tooDeep (Nat.succ_pos _) hclosed hlow⟩

end

/-- The folders in a path to which more is added. -/
def folderNames (path : Text) : List Text :=
  match CString.splitLast '\\' path with
  | some (front, _) => components front
  | none => []

/-- The name with which a path ends. -/
def lastName (path : Text) : Text :=
  match CString.splitLast '\\' path with
  | some (_, name) => name
  | none => path

/-- A path with an extension. -/
theorem components_append_ext (path : Text) {ext : Text} (hext : ext ≠ []) (hplain : '\\' ∉ ext) :
    components (path ++ ext) = folderNames path ++ [lastName path ++ ext] := by
  have hname : ∀ name : Text, '\\' ∉ name → components (name ++ ext) = [name ++ ext] := by
    intro name hname
    have hboth : '\\' ∉ name ++ ext := fun h => (List.mem_append.mp h).elim hname hplain
    exact components_name ⟨name ++ ext, by simp [hext], hboth⟩
  rw [folderNames, lastName]
  cases hsplit : CString.splitLast '\\' path with
  | none => exact hname path (CString.splitLast_eq_none_iff.mp hsplit)
  | some parts =>
    obtain ⟨front, name⟩ := parts
    obtain ⟨rfl, hmem⟩ := CString.splitLast_eq_some_iff.mp hsplit
    rw [List.append_assoc, List.cons_append, components_append, hname name hmem]

end Exporter

end TerraX
