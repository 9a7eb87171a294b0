import TerraX.Lib.Literals
import TerraX.Lib.Outcome
import TerraX.Tools.FileSearch
import TerraX.Tools.JsonExporter
import Mathlib.Algebra.Order.BigOperators.Group.List

/-!
# The export of a sheet to SQL

`excel2json` also writes a sheet as a script that makes a table and inserts the rows. It puts the
text of each cell between quotes as it is.

## Main definitions

- `SqlExporter.getTabelStructSQL`, `SqlExporter.getTableContentSQL`, `SqlExporter.saveToFile`
- `SqlExporter.readScript` — what SQL reads in a script
- `SqlExporter.cells` — what a script should say

## Main results

- `SqlExporter.readScript_eq_iff` — when it says that
-/

namespace TerraX

namespace SqlExporter

open JsonExporter Literals

/-- `Environment.NewLine`. -/
def newLine : Text := ['\r', '\n']

/-- The quote. -/
def quote : Char := '\x27'

/-- `Path.GetFileNameWithoutExtension`, of a path. -/
def fileNameOf (filePath : Text) : Text :=
  let name := match CString.splitLast '\\' filePath with
    | some (_, name) => name
    | none => filePath
  match CString.splitLast '.' name with
  | some (front, _) => front
  | none => name

section Export

variable (format : ℚ → String)

/-- `row[column].ToString()`. -/
def cellText (row : List CellValue) (j : ℕ) : Text := ((cellAt row j).text format).toList

/-- `column.ToString()`. -/
def columnName (sheet : Sheet) (j : ℕ) : Text := (sheet.columns.getD j "").toList

/-- `SQLExporter::GetTabelStructSQL`, the loop over the columns: one turn. -/
def columnSQL (sheet : Sheet) (typeRow : List CellValue) (j : ℕ) : Text :=
  let filedName := columnName sheet j
  let filedType := cellText format typeRow j
  "`".toList ++ filedName ++ "` ".toList ++ filedType ++
    if filedType = "varchar".toList then "(64),".toList
    else if filedType = "text".toList then "(256),".toList
    else ",".toList

/-- `SQLExporter::GetTabelStructSQL`. -/
def getTabelStructSQL (sheet : Sheet) (tabelName : Text) : Except ExportFault Text := do
  let typeRow ← rowAt sheet 0
  let sb := "DROP TABLE IF EXISTS `".toList ++ tabelName ++ "`;\n".toList ++
    ("CREATE TABLE `".toList ++ tabelName ++ "` (\n".toList) ++
    (List.range sheet.columns.length).flatMap (columnSQL format sheet typeRow)
  if sheet.columns.length ≤ 0 then .error .indexOutOfRange
  else .ok (sb ++ ("PRIMARY KEY (`".toList ++ columnName sheet 0 ++ "`) ".toList) ++
    ("\n) DEFAULT CHARSET=utf8;".toList ++ newLine))

/-- `SQLExporter::GetTableContentSQL`, the loop over the columns: one turn. -/
def appendValue (row : List CellValue) (sbValues : Text) (j : ℕ) : Text :=
  (if sbValues.length > 0 then sbValues ++ ", ".toList else sbValues) ++
    quoted quote (cellText format row j)

/-- The values of a row. -/
def values (sheet : Sheet) (row : List CellValue) : Text :=
  (List.range sheet.columns.length).foldl (appendValue format row) []

/-- `SQLExporter::GetTableContentSQL`, the loop over the rows: one turn. -/
def insertSQL (sheet : Sheet) (tabelName : Text) (row : List CellValue) : Text :=
  "INSERT INTO `".toList ++ tabelName ++ "` VALUES(".toList ++ values format sheet row ++
    ");\n".toList

/-- The rows from `firstDataRow` on. The subtraction wraps: for the smallest header there is no such
    row. -/
def contentRows (sheet : Sheet) (headerRows : Int32) : List (List CellValue) :=
  sheet.rows.drop (headerRows - 1).toNatClampNeg

/-- `SQLExporter::GetTableContentSQL`. -/
def getTableContentSQL (sheet : Sheet) (headerRows : Int32) (tabelName : Text) :
    Except ExportFault Text :=
  let firstDataRow := headerRows - 1
  if firstDataRow < 0 then .error .indexOutOfRange
  else .ok ((contentRows sheet headerRows).flatMap (insertSQL format sheet tabelName))

/-- `SQLExporter::SaveToFile`: what is written. -/
def saveToFile (sheet : Sheet) (headerRows : Int32) (filePath : Text) :
    Except ExportFault Text := do
  let tableName := fileNameOf filePath
  let tabelStruct ← getTabelStructSQL format sheet tableName
  let tabelContent ← getTableContentSQL format sheet headerRows tableName
  .ok (tabelStruct ++ newLine ++ tabelContent)

/-! ### What a script says -/

/-- The texts in the statements of a script. -/
def readScript (script : Text) : List (List Text) := statements quote ';' script

/-- The texts of a row. -/
def rowTexts (sheet : Sheet) (row : List CellValue) : List Text :=
  (List.range sheet.columns.length).map (cellText format row)

/-- No text in the two statements that make the table, and the texts of a row in each other. -/
def cells (sheet : Sheet) (headerRows : Int32) : List (List Text) :=
  [] :: [] :: (contentRows sheet headerRows).map (rowTexts format sheet)

/-- The names and types of a table do without quotes and semicolons. -/
structure PlainNames (sheet : Sheet) (filePath : Text) : Prop where
  table : Plain quote ';' (fileNameOf filePath)
  column : ∀ j < sheet.columns.length, Plain quote ';' (columnName sheet j)
  type : ∀ row, rowAt sheet 0 = .ok row →
    ∀ j < sheet.columns.length, Plain quote ';' (cellText format row j)

variable {format} {sheet : Sheet} {headerRows : Int32} {filePath tabelName script : Text}
  {row : List CellValue}

/-! ### Texts without quotes -/

theorem plain_columnSQL {typeRow : List CellValue} {j : ℕ}
    (hcolumn : Plain quote ';' (columnName sheet j))
    (htype : Plain quote ';' (cellText format typeRow j)) :
    Plain quote ';' (columnSQL format sheet typeRow j) := by
  have hsizes : ∀ t : Text, Plain quote ';' (if t = "varchar".toList then "(64),".toList
      else if t = "text".toList then "(256),".toList else ",".toList) := by
    intro t
    split
    · exact ⟨by decide, by decide⟩
    split
    · exact ⟨by decide, by decide⟩
    · exact ⟨by decide, by decide⟩
  have htick : Plain quote ';' "`".toList := ⟨by decide, by decide⟩
  have hspace : Plain quote ';' "` ".toList := ⟨by decide, by decide⟩
  simp only [columnSQL, plain_append]
  exact ⟨⟨⟨⟨htick, hcolumn⟩, hspace⟩, htype⟩, hsizes _⟩

theorem plain_columns {typeRow : List CellValue}
    (hcolumn : ∀ j < sheet.columns.length, Plain quote ';' (columnName sheet j))
    (htype : ∀ j < sheet.columns.length, Plain quote ';' (cellText format typeRow j)) :
    Plain quote ';' ((List.range sheet.columns.length).flatMap (columnSQL format sheet typeRow)) :=
  plain_flatMap fun j hj =>
    plain_columnSQL (hcolumn j (List.mem_range.mp hj)) (htype j (List.mem_range.mp hj))

/-- A statement without texts. -/
theorem foldl_statement {front back : Text} {read : List (List Text)} (h : Plain quote ';' front) :
    (front ++ ';' :: back).foldl (step quote ';') ⟨.outside, [], read⟩ =
      back.foldl (step quote ';') ⟨.outside, [], read ++ [[]]⟩ := by
  rw [List.foldl_append, foldl_plain h, List.foldl_cons, step_stop (by decide)]

/-- When there is a script for the table. -/
theorem getTabelStructSQL_eq_ok_iff : getTabelStructSQL format sheet tabelName = .ok script ↔
    ∃ typeRow, rowAt sheet 0 = .ok typeRow ∧ 0 < sheet.columns.length ∧
      script = "DROP TABLE IF EXISTS `".toList ++ tabelName ++ "`;\n".toList ++
        ("CREATE TABLE `".toList ++ tabelName ++ "` (\n".toList) ++
        (List.range sheet.columns.length).flatMap (columnSQL format sheet typeRow) ++
        ("PRIMARY KEY (`".toList ++ columnName sheet 0 ++ "`) ".toList) ++
        ("\n) DEFAULT CHARSET=utf8;".toList ++ newLine) := by
  rw [getTabelStructSQL, Outcome.bind_eq_ok_iff]
  refine exists_congr fun typeRow => and_congr_right fun _ => ?_
  dsimp only
  split
  · exact iff_of_false (fun h => by cases h) fun h => by omega
  · next hwidth =>
    rw [and_iff_right (by omega), Except.ok.injEq]
    exact eq_comm

/-- It consists of two statements, and has no quotes. -/
theorem getTabelStructSQL_parts (hnames : PlainNames format sheet filePath)
    (h : getTabelStructSQL format sheet (fileNameOf filePath) = .ok script) :
    ∃ drop create, Plain quote ';' drop ∧ Plain quote ';' create ∧
      script = drop ++ ';' :: (create ++ ';' :: newLine) := by
  obtain ⟨typeRow, hrow, hwidth, rfl⟩ := getTabelStructSQL_eq_ok_iff.mp h
  have hdrop : Plain quote ';' "DROP TABLE IF EXISTS `".toList := ⟨by decide, by decide⟩
  have htick : Plain quote ';' "`".toList := ⟨by decide, by decide⟩
  have hcreate : Plain quote ';' "\nCREATE TABLE `".toList := ⟨by decide, by decide⟩
  have hopen : Plain quote ';' "` (\n".toList := ⟨by decide, by decide⟩
  have hkey : Plain quote ';' "PRIMARY KEY (`".toList := ⟨by decide, by decide⟩
  have hclose : Plain quote ';' "`) \n) DEFAULT CHARSET=utf8".toList := ⟨by decide, by decide⟩
  refine ⟨"DROP TABLE IF EXISTS `".toList ++ fileNameOf filePath ++ "`".toList,
    "\nCREATE TABLE `".toList ++ fileNameOf filePath ++ "` (\n".toList ++
      (List.range sheet.columns.length).flatMap (columnSQL format sheet typeRow) ++
      "PRIMARY KEY (`".toList ++ columnName sheet 0 ++ "`) \n) DEFAULT CHARSET=utf8".toList,
    ?_, ?_, by simp⟩
  · simp only [plain_append]
    exact ⟨⟨hdrop, hnames.table⟩, htick⟩
  · have hcolumns := plain_columns hnames.column (hnames.type typeRow hrow)
    simp only [plain_append]
    exact ⟨⟨⟨⟨⟨⟨hcreate, hnames.table⟩, hopen⟩, hcolumns⟩, hkey⟩, hnames.column 0 hwidth⟩, hclose⟩

/-! ### The values of a row -/

/-- The quotes in the values of a row. -/
theorem count_values (js : List ℕ) (sbValues : Text) :
    (js.foldl (appendValue format row) sbValues).count quote =
      sbValues.count quote + (js.map fun j => 2 + (cellText format row j).count quote).sum := by
  induction js generalizing sbValues with
  | nil => rfl
  | cons j js ih =>
    have hseparator : (", ".toList).count quote = 0 := by decide
    rw [List.foldl_cons, ih, appendValue, List.map_cons, List.sum_cons]
    simp only [quoted, List.count_append, List.count_cons_self, List.count_nil, List.cons_append]
    split
    · rw [List.count_append, hseparator]
      omega
    · omega

/-- Values that are added to others, where no text has a quote. -/
theorem foldl_values {js : List ℕ} (hjs : ∀ j ∈ js, quote ∉ cellText format row j)
    {sbValues : Text} (hvalues : sbValues ≠ []) {literal : Text} {literals : List Text}
    {read : List (List Text)} {r : Reader Char}
    (h : sbValues.foldl (step quote ';') r = ⟨.closing literal, literals, read⟩) :
    ∃ literal' literals', (js.foldl (appendValue format row) sbValues).foldl (step quote ';') r =
        ⟨.closing literal', literals', read⟩ ∧
      literals' ++ [literal'] = literals ++ [literal] ++ js.map (cellText format row) := by
  induction js generalizing sbValues literal literals with
  | nil => exact ⟨literal, literals, h, (List.append_nil _).symm⟩
  | cons j js ih =>
    obtain ⟨hj, hjs⟩ := List.forall_mem_cons.mp hjs
    have hadded : appendValue format row sbValues j =
        sbValues ++ (", ".toList ++ quoted quote (cellText format row j)) := by
      rw [appendValue, if_pos (List.length_pos_iff.mpr hvalues), List.append_assoc]
    have hread : (appendValue format row sbValues j).foldl (step quote ';') r =
        ⟨.closing (cellText format row j), literals ++ [literal], read⟩ := by
      have hseparator : Plain quote ';' [',', ' '] := ⟨by decide, by decide⟩
      have htext : ", ".toList = [',', ' '] := by decide
      rw [hadded, List.foldl_append, h, List.foldl_append, htext, foldl_closing hseparator]
      exact foldl_quoted hj
    obtain ⟨literal', literals', hrun, heq⟩ := ih hjs (by simp [hadded, quoted]) hread
    refine ⟨literal', literals', hrun, ?_⟩
    rw [heq, List.map_cons]
    simp

/-- Around its values the statement of a row has no quotes. -/
theorem insertSQL_eq (htable : Plain quote ';' tabelName) (row : List CellValue) :
    ∃ into, Plain quote ';' into ∧ insertSQL format sheet tabelName row =
      into ++ (values format sheet row ++ ([')'] ++ ';' :: ['\n'])) := by
  have hinsert : Plain quote ';' "INSERT INTO `".toList := ⟨by decide, by decide⟩
  have hopen : Plain quote ';' "` VALUES(".toList := ⟨by decide, by decide⟩
  exact ⟨_, plain_append.mpr ⟨plain_append.mpr ⟨hinsert, htable⟩, hopen⟩,
    List.append_assoc _ _ _⟩

/-- An inserted row without quotes is read as its texts. -/
theorem foldl_insertSQL (htable : Plain quote ';' tabelName) (hwidth : 0 < sheet.columns.length)
    (h : ∀ text ∈ rowTexts format sheet row, quote ∉ text) (read : List (List Text)) :
    (insertSQL format sheet tabelName row).foldl (step quote ';') ⟨.outside, [], read⟩ =
      ⟨.outside, [], read ++ [rowTexts format sheet row]⟩ := by
  have hclose : Plain quote ';' [')'] := ⟨by decide, by decide⟩
  have hline : Plain quote ';' ['\n'] := ⟨by decide, by decide⟩
  obtain ⟨width, hwidth'⟩ : ∃ width, sheet.columns.length = width + 1 :=
    ⟨sheet.columns.length - 1, by omega⟩
  rw [rowTexts, hwidth', List.range_succ_eq_map, List.map_cons] at h ⊢
  obtain ⟨hfirst, hothers⟩ := List.forall_mem_cons.mp h
  have hvalues : values format sheet row =
      (List.map Nat.succ (List.range width)).foldl (appendValue format row)
        (quoted quote (cellText format row 0)) := by
    rw [values, hwidth', List.range_succ_eq_map]
    rfl
  obtain ⟨literal, literals, hrun, heq⟩ := foldl_values
    (fun j hj => hothers _ (List.mem_map_of_mem hj)) (by simp [quoted])
    (@foldl_quoted Char _ quote ';' [] read _ hfirst)
  obtain ⟨into, hinto, htext⟩ := insertSQL_eq htable row
  rw [htext, List.foldl_append, foldl_plain hinto, List.foldl_append, hvalues, hrun,
    List.foldl_append, foldl_closing hclose, heq, List.foldl_cons, step_stop (by decide)]
  exact foldl_plain hline

theorem foldl_content (htable : Plain quote ';' tabelName) (hwidth : 0 < sheet.columns.length)
    {rows : List (List CellValue)}
    (h : ∀ row ∈ rows, ∀ text ∈ rowTexts format sheet row, quote ∉ text)
    (read : List (List Text)) :
    (rows.flatMap (insertSQL format sheet tabelName)).foldl (step quote ';') ⟨.outside, [], read⟩ =
      ⟨.outside, [], read ++ rows.map (rowTexts format sheet)⟩ := by
  induction rows generalizing read with
  | nil => rw [List.map_nil, List.append_nil]; rfl
  | cons row rows ih =>
    obtain ⟨hrow, hrows⟩ := List.forall_mem_cons.mp h
    rw [List.flatMap_cons, List.foldl_append, foldl_insertSQL htable hwidth hrow, ih hrows,
      List.map_cons, List.append_assoc]
    rfl

/-! ### Counting the quotes of a script -/

theorem count_plain {text : Text} (h : Plain quote ';' text) : text.count quote = 0 :=
  List.count_eq_zero.mpr h.1

theorem count_content (htable : Plain quote ';' tabelName) (rows : List (List CellValue)) :
    (rows.flatMap (insertSQL format sheet tabelName)).count quote =
      ((rows.flatMap (rowTexts format sheet)).map fun text => 2 + text.count quote).sum := by
  induction rows with
  | nil => rfl
  | cons row rows ih =>
    obtain ⟨into, hinto, htext⟩ := insertSQL_eq htable row
    have hend : ([')'] ++ ';' :: ['\n']).count quote = 0 := by decide
    have hvalues : (values format sheet row).count quote =
        ((rowTexts format sheet row).map fun text => 2 + text.count quote).sum := by
      rw [values, count_values, rowTexts, List.map_map]
      exact Nat.zero_add _
    rw [List.flatMap_cons, List.flatMap_cons, List.count_append, ih, htext, List.count_append,
      List.count_append, count_plain hinto, hend, hvalues, List.map_append, List.sum_append]
    omega

/-- The quotes that the texts of the rows need. -/
theorem sum_quotesOf (rows : List (List CellValue)) :
    ((rows.map (rowTexts format sheet)).map (quotesOf quote)).sum =
      ((rows.flatMap (rowTexts format sheet)).map (quotes quote)).sum := by
  induction rows with
  | nil => rfl
  | cons row rows ih =>
    rw [List.map_cons, List.map_cons, List.sum_cons, ih, List.flatMap_cons, List.map_append,
      List.sum_append, quotesOf]

/-- If texts need no more quotes than they got, none has a quote of its own. -/
theorem no_quotes {texts : List Text}
    (h : (texts.map (quotes quote)).sum ≤ (texts.map fun text => 2 + text.count quote).sum) :
    ∀ text ∈ texts, quote ∉ text := by
  intro text htext hmem
  have hpos := List.count_pos_iff.mpr hmem
  have hle : ∀ t ∈ texts, 2 + t.count quote ≤ quotes quote t := fun t _ => by
    rw [quotes]
    omega
  have hlt : 2 + text.count quote < quotes quote text := by
    rw [quotes]
    omega
  exact absurd h (Nat.not_le_of_lt (List.sum_lt_sum _ _ hle ⟨text, htext, hlt⟩))

/-- A header leads to a row, or wraps to a number that is greater than that of any row. -/
theorem firstDataRow_nonneg_iff :
    ¬ headerRows - 1 < 0 ↔ 1 ≤ headerRows ∨ headerRows = Int32.minValue := by
  have hone : (1 : Int32).toInt = 1 := rfl
  have hle := headerRows.le_toInt
  have hlt := headerRows.toInt_lt
  rw [Int32.lt_iff_toInt_lt, Int32.le_iff_toInt_le, ← Int32.toInt_inj, Int32.toInt_sub, hone,
    Int32.toInt_zero, Int32.toInt_minValue, Int.bmod_def]
  omega

/-- What a script consists of. -/
theorem saveToFile_eq_ok_iff : saveToFile format sheet headerRows filePath = .ok script ↔
    ∃ tabelStruct, getTabelStructSQL format sheet (fileNameOf filePath) = .ok tabelStruct ∧
      (1 ≤ headerRows ∨ headerRows = Int32.minValue) ∧ script = tabelStruct ++ newLine ++
        (contentRows sheet headerRows).flatMap (insertSQL format sheet (fileNameOf filePath)) := by
  rw [saveToFile, Outcome.bind_eq_ok_iff]
  refine exists_congr fun tabelStruct => and_congr_right fun _ => ?_
  rw [getTableContentSQL, Outcome.bind_eq_ok_iff]
  split
  · next hheader =>
    exact iff_of_false (fun ⟨_, h, _⟩ => by cases h)
      fun h => firstDataRow_nonneg_iff.mpr h.1 hheader
  · next hheader =>
    rw [and_iff_right (firstDataRow_nonneg_iff.mp hheader)]
    constructor
    · rintro ⟨_, ⟨rfl⟩, ⟨rfl⟩⟩
      rfl
    · rintro rfl
      exact ⟨_, rfl, rfl⟩

end Export

/-! ### Scripts that can be read -/

/-- There is a script for each sheet with columns and rows and each header with a row, and for the
    smallest header, with which the number of the first row wraps. It says what is in the rows
    exactly if no cell of theirs has a quote: with one anywhere the rows that SQL reads are
    others. -/
theorem readScript_eq_iff (format : ℚ → String) (sheet : Sheet) (headerRows : Int32)
    (filePath : Text) :
    ((∃ script, saveToFile format sheet headerRows filePath = .ok script) ↔
      0 < sheet.rows.length ∧ 0 < sheet.columns.length ∧
        (1 ≤ headerRows ∨ headerRows = Int32.minValue)) ∧
    (PlainNames format sheet filePath →
      ∀ script, saveToFile format sheet headerRows filePath = .ok script →
        (readScript script = cells format sheet headerRows ↔
          ∀ row ∈ contentRows sheet headerRows, ∀ text ∈ rowTexts format sheet row, quote ∉ text)) := by
  constructor
  · constructor
    · rintro ⟨script, hscript⟩
      obtain ⟨tabelStruct, hstruct, hheader, -⟩ := saveToFile_eq_ok_iff.mp hscript
      obtain ⟨typeRow, hrow, hwidth, -⟩ := getTabelStructSQL_eq_ok_iff.mp hstruct
      have hrows := (rowAt_ok_iff.mp ⟨typeRow, hrow⟩).2
      exact ⟨by omega, hwidth, hheader⟩
    · rintro ⟨hrows, hwidth, hheader⟩
      obtain ⟨typeRow, hrow⟩ := (@rowAt_ok_iff sheet 0).mpr ⟨le_rfl, by omega⟩
      have hstruct : getTabelStructSQL format sheet (fileNameOf filePath) = .ok _ :=
        getTabelStructSQL_eq_ok_iff.mpr ⟨typeRow, hrow, hwidth, rfl⟩
      exact ⟨_, saveToFile_eq_ok_iff.mpr ⟨_, hstruct, hheader, rfl⟩⟩
  · intro hnames script hscript
    obtain ⟨tabelStruct, hstruct, -, rfl⟩ := saveToFile_eq_ok_iff.mp hscript
    obtain ⟨drop, create, hdrop, hcreate, rfl⟩ := getTabelStructSQL_parts hnames hstruct
    obtain ⟨-, -, hwidth, -⟩ := getTabelStructSQL_eq_ok_iff.mp hstruct
    have hline : Plain quote ';' (newLine ++ newLine) := ⟨by decide, by decide⟩
    have hscript : drop ++ ';' :: (create ++ ';' :: newLine) ++ newLine ++
        (contentRows sheet headerRows).flatMap (insertSQL format sheet (fileNameOf filePath)) =
          drop ++ ';' :: (create ++ ';' :: (newLine ++ newLine ++
            (contentRows sheet headerRows).flatMap (insertSQL format sheet (fileNameOf filePath)))) := by
      simp
    rw [hscript]
    constructor
    · intro hread
      -- each text needs two quotes and two for each of its own, and got only two and its own
      have hneed := @quotes_le Char _ quote ';' (drop ++ ';' :: (create ++ ';' :: (newLine ++ newLine ++
        (contentRows sheet headerRows).flatMap (insertSQL format sheet (fileNameOf filePath)))))
      rw [readScript] at hread
      rw [hread, cells, List.map_cons, List.map_cons, List.sum_cons, List.sum_cons, sum_quotesOf,
        List.count_append, count_plain hdrop, List.count_cons_of_ne (by decide), List.count_append,
        count_plain hcreate, List.count_cons_of_ne (by decide), List.count_append,
        count_plain hline, count_content hnames.table] at hneed
      refine List.forall_mem_flatMap.mp (no_quotes ?_)
      simpa [quotesOf] using hneed
    · intro hcells
      rw [readScript, statements, start, foldl_statement hdrop, foldl_statement hcreate,
        List.foldl_append, foldl_plain hline, foldl_content hnames.table hwidth hcells]
      rfl

/-- A sheet with a quote in a cell. -/
def talkSheet : Sheet where
  columns := ["ID", "Text"]
  rows := [[.string "int", .string "text"], [.string "1", .string "it\x27s me"]]
  width := by simp

/-- Its script does not say what is in it. -/
theorem readScript_eq_iff_talk : ∃ script,
    saveToFile (fun _ => "") talkSheet 2 ['t', '.', 's', 'q', 'l'] = .ok script ∧
      readScript script ≠ cells (fun _ => "") talkSheet 2 := by
  obtain ⟨hscript, hread⟩ := readScript_eq_iff (fun _ => "") talkSheet 2 ['t', '.', 's', 'q', 'l']
  have hnames : PlainNames (fun _ => "") talkSheet ['t', '.', 's', 'q', 'l'] := by
    refine ⟨⟨by decide, by decide⟩, fun j hj => ?_, fun row hrow j hj => ?_⟩
    · obtain rfl | rfl : j = 0 ∨ j = 1 := by
        have : j < 2 := hj
        omega
      · exact ⟨by decide, by decide⟩
      · exact ⟨by decide, by decide⟩
    · obtain rfl : [CellValue.string "int", .string "text"] = row := Except.ok.inj hrow
      obtain rfl | rfl : j = 0 ∨ j = 1 := by
        have : j < 2 := hj
        omega
      · exact ⟨by decide, by decide⟩
      · exact ⟨by decide, by decide⟩
  obtain ⟨script, hsaved⟩ := hscript.mpr ⟨by decide, by decide, .inl (by decide)⟩
  refine ⟨script, hsaved, fun heq => ?_⟩
  have hquote := (hread hnames script hsaved).mp heq
    [CellValue.string "1", .string "it\x27s me"] List.mem_cons_self "it\x27s me".toList
    (List.mem_cons_of_mem _ List.mem_cons_self)
  exact hquote (by decide)

end SqlExporter

end TerraX
