import TerraX.Lib.OrderedDict
import TerraX.Lib.SignedInt
import Mathlib.Data.List.Infix
import Mathlib.Data.Rat.Defs

/-!
# The export of a sheet

`excel2json` turns a sheet into a dictionary from IDs to rows, once with the columns of the client
and once with those of the server. No entry is ever removed from the dictionaries, so that they
are written in the order in which their keys were added. What a number is written as, and how a
culture turns letters into small ones, are parameters.

## Main definitions

- `CellValue`, `Sheet` — what is read of an `.xlsx` file
- `JsonExporter.jsonExporter`, `JsonExporter.saveToFile` — the data that is written
- `JsonExporter.ids`, `JsonExporter.lastRow` — the IDs of a sheet, and the row that an ID stands for
- `JsonExporter.Shown` — the columns that are written

## Main results

- `JsonExporter.exports_aligned` — what client and server are given
- `JsonExporter.export_eq_iff` — what can be told from an export
-/

namespace TerraX

open SignedInt

/-- What a cell holds: nothing, a text, a number, a truth value, or a date by the texts that
    `ToString` and the serializer make of it. -/
inductive CellValue
  | null
  | string (s : String)
  | double (num : ℚ)
  | int (i : Int32)
  | bool (b : Bool)
  | dateTime (text json : String)
deriving DecidableEq

namespace CellValue

/-- `ToString`. -/
def text (format : ℚ → String) : CellValue → String
  | null => ""
  | string s => s
  | double num => format num
  | int i => toString i.toInt
  | bool b => if b then "True" else "False"
  | dateTime text _ => text

/-- A number without fraction that is an `int` becomes one: any other differs from what the cast
    makes of it. -/
def trimmed : CellValue → CellValue
  | double num =>
    if num.den = 1 ∧ SignedInt.Fits num.num then int (Int32.ofInt num.num) else double num
  | value => value

end CellValue

/-- A sheet: the names of its columns, and its other rows. -/
structure Sheet where
  columns : List String
  rows : List (List CellValue)
  width : ∀ row ∈ rows, row.length = columns.length

namespace JsonExporter

/-- What is written for an ID. -/
abbrev RowData := OrderedDict String CellValue

/-- What is written for a sheet. -/
abbrev Data := OrderedDict String RowData

/-- The exceptions: there is no such row, or no data. -/
inductive ExportFault
  | indexOutOfRange
  | noData
deriving DecidableEq, Repr

section Export

variable (toLower : Char → Char) (format : ℚ → String)

/-- `strFilter.Contains(filter)`, for the cell of a column in the filter row. -/
def contains (filter : String) (cell : CellValue) : Bool :=
  decide (filter.toList <:+: (cell.text format).toList.map toLower)

/-- `row[column]`. -/
def cellAt (row : List CellValue) (j : ℕ) : CellValue := row.getD j .null

/-- The field name of a column. -/
def fieldName (sheet : Sheet) (lowcase : Bool) (j : ℕ) : String :=
  let column := sheet.columns.getD j ""
  if lowcase then String.ofList (column.toList.map toLower) else column

/-- The loop over the columns: one turn. -/
def column (sheet : Sheet) (rowFilter row : List CellValue) (lowcase : Bool) (filter : String)
    (rowData : RowData) (j : ℕ) : RowData :=
  if ¬ contains toLower format filter (cellAt rowFilter j) then rowData
  else
    let value := (cellAt row j).trimmed
    let fieldName := fieldName toLower sheet lowcase j
    if fieldName ≠ "" then rowData.set fieldName value else rowData

/-- The data of a row. -/
def rowData (sheet : Sheet) (rowFilter row : List CellValue) (lowcase : Bool) (filter : String) :
    RowData :=
  (List.range sheet.columns.length).foldl (column toLower format sheet rowFilter row lowcase filter)
    .empty

/-- The ID of a row. -/
def idOf (row : List CellValue) : String := (cellAt row 0).text format

/-- The loop over the rows: one turn. -/
def dataRow (sheet : Sheet) (rowFilter : List CellValue) (lowcase : Bool) (filter : String)
    (m_data : Data) (row : List CellValue) : Data :=
  if idOf format row = "" then m_data
  else m_data.set (idOf format row) (rowData toLower format sheet rowFilter row lowcase filter)

/-- `sheet.Rows[i]`. -/
def rowAt (sheet : Sheet) (i : ℤ) : Except ExportFault (List CellValue) :=
  if i < 0 then .error .indexOutOfRange
  else match sheet.rows[i.toNat]? with
    | some row => .ok row
    | none => .error .indexOutOfRange

/-- The rows from `firstDataRow` on. -/
def dataRows (sheet : Sheet) (headerRows : ℤ) : List (List CellValue) :=
  sheet.rows.drop (headerRows - 1).toNat

/-- `JsonExporter::JsonExporter`. -/
def jsonExporter (sheet : Sheet) (headerRows : ℤ) (lowcase : Bool) (filter : String) :
    Except ExportFault (Option Data) :=
  if sheet.columns.length ≤ 0 then .ok none
  else if sheet.rows.length ≤ 0 then .ok none
  else do
    let rowFilter ← rowAt sheet (headerRows - 2)
    return some ((dataRows sheet headerRows).foldl
      (dataRow toLower format sheet rowFilter lowcase filter) .empty)

/-- `JsonExporter::SaveToFile`: what is written. -/
def saveToFile : Option Data → Except ExportFault Data
  | none => .error .noData
  | some m_data => .ok m_data

/-- `Exporter.Export2Json`, of a sheet that was read. -/
def export2Json (sheet : Sheet) (headerRows : ℤ) (lowcase : Bool) (filter : String) :
    Except ExportFault Data :=
  jsonExporter toLower format sheet headerRows lowcase filter >>= saveToFile

/-! ### What an export holds -/

/-- The rows with an ID, and their IDs. -/
def idRows (sheet : Sheet) (headerRows : ℤ) : List (String × List CellValue) :=
  ((dataRows sheet headerRows).map fun row => (idOf format row, row)).filter (·.1 ≠ "")

/-- The IDs of a sheet. -/
def ids (sheet : Sheet) (headerRows : ℤ) : List String :=
  ((idRows format sheet headerRows).map Prod.fst).eraseDups

/-- The last row with an ID. -/
def lastRow (sheet : Sheet) (headerRows : ℤ) (id : String) : Option (List CellValue) :=
  ((idRows format sheet headerRows).reverse.find? fun idRow => idRow.1 = id).map Prod.snd

/-- The columns that are marked for a filter and have a name. -/
def marked (sheet : Sheet) (rowFilter : List CellValue) (lowcase : Bool) (filter : String) : List ℕ :=
  (List.range sheet.columns.length).filter fun j =>
    contains toLower format filter (cellAt rowFilter j) ∧ fieldName toLower sheet lowcase j ≠ ""

/-- A column is written: it is marked, and no marked one behind it has its name. -/
def Shown (sheet : Sheet) (rowFilter : List CellValue) (lowcase : Bool) (filter : String) (j : ℕ) :
    Prop :=
  OrderedDict.IsLast (fieldName toLower sheet lowcase)
    (marked toLower format sheet rowFilter lowcase filter) j

/-! ### The loops -/

variable {toLower : Char → Char} {format : ℚ → String} {sheet : Sheet} {headerRows : ℤ}
  {lowcase : Bool} {filter : String} {rowFilter row : List CellValue}

/-- A row's data are the settings of its marked columns. -/
theorem rowData_eq : rowData toLower format sheet rowFilter row lowcase filter =
    .ofList ((marked toLower format sheet rowFilter lowcase filter).map fun j =>
      (fieldName toLower sheet lowcase j, (cellAt row j).trimmed)) := by
  rw [rowData, marked]
  generalize List.range sheet.columns.length = js
  induction js using List.reverseRecOn with
  | nil => rfl
  | append_singleton js j ih =>
    rw [List.foldl_append, ih, List.foldl_cons, List.foldl_nil, column, List.filter_append,
      List.map_append]
    by_cases hcontains : contains toLower format filter (cellAt rowFilter j) = true
    · by_cases hname : fieldName toLower sheet lowcase j = ""
      · simp [hcontains, hname]
      · simp [hcontains, hname, OrderedDict.ofList_concat]
    · simp [hcontains]

/-- The data of a sheet are the settings of its rows with IDs. -/
theorem foldl_dataRow : (dataRows sheet headerRows).foldl
    (dataRow toLower format sheet rowFilter lowcase filter) .empty =
      .ofList ((idRows format sheet headerRows).map fun idRow =>
        (idRow.1, rowData toLower format sheet rowFilter idRow.2 lowcase filter)) := by
  rw [idRows]
  generalize dataRows sheet headerRows = rows
  induction rows using List.reverseRecOn with
  | nil => rfl
  | append_singleton rows row ih =>
    rw [List.foldl_append, ih, List.foldl_cons, List.foldl_nil, dataRow, List.map_append,
      List.filter_append, List.map_append]
    by_cases hid : idOf format row = ""
    · simp [hid]
    · simp [hid, OrderedDict.ofList_concat]

/-- When an export is written, and what. -/
theorem export2Json_eq_ok_iff {d : Data} :
    export2Json toLower format sheet headerRows lowcase filter = .ok d ↔
      0 < sheet.columns.length ∧ ∃ rowFilter, rowAt sheet (headerRows - 2) = .ok rowFilter ∧
        d = .ofList ((idRows format sheet headerRows).map fun idRow =>
          (idRow.1, rowData toLower format sheet rowFilter idRow.2 lowcase filter)) := by
  rw [export2Json, jsonExporter]
  split
  · next hcolumns =>
    refine iff_of_false (fun h => ?_) fun h => absurd h.1 (by omega)
    cases h
  split
  · next hcolumns hrows =>
    have hnone : sheet.rows = [] := List.length_eq_zero_iff.mp (by omega)
    refine iff_of_false (fun h => ?_) fun ⟨_, rowFilter, hrow, _⟩ => ?_
    · cases h
    · simp [rowAt, hnone] at hrow
  · next hcolumns hrows =>
    rw [and_iff_right (by omega)]
    cases hrow : rowAt sheet (headerRows - 2) with
    | error fault =>
      refine iff_of_false (fun h => ?_) fun ⟨_, h, _⟩ => ?_
      · cases h
      · cases h
    | ok rowFilter =>
      change Except.ok (List.foldl _ OrderedDict.empty _) = .ok d ↔ _
      rw [foldl_dataRow, Except.ok.injEq]
      constructor
      · rintro rfl
        exact ⟨rowFilter, rfl, rfl⟩
      · rintro ⟨_, ⟨rfl⟩, rfl⟩
        rfl

variable {d d' : Data}

/-- There is a filter row exactly if the header has two rows at least and the sheet has its last but
    one. -/
theorem rowAt_ok_iff {i : ℤ} : (∃ row, rowAt sheet i = .ok row) ↔ 0 ≤ i ∧ i < sheet.rows.length := by
  rw [rowAt]
  split
  · next hneg => exact iff_of_false (fun ⟨_, h⟩ => by cases h) fun h => by omega
  · next hpos =>
    cases hrow : sheet.rows[i.toNat]? with
    | none =>
      have hlen := List.getElem?_eq_none_iff.mp hrow
      refine iff_of_false (fun ⟨_, h⟩ => ?_) fun h => by omega
      cases h
    | some row =>
      have hlt := (List.getElem?_eq_some_iff.mp hrow).1
      exact iff_of_true ⟨row, rfl⟩ ⟨by omega, by omega⟩

/-- The IDs of an export. -/
theorem keys_export (h : export2Json toLower format sheet headerRows lowcase filter = .ok d) :
    d.keys = ids format sheet headerRows := by
  obtain ⟨-, rowFilter, -, rfl⟩ := export2Json_eq_ok_iff.mp h
  rw [OrderedDict.keys_ofList, ids, List.map_map]
  rfl

/-- What is written for an ID. -/
theorem get?_export (h : export2Json toLower format sheet headerRows lowcase filter = .ok d)
    (hfilter : rowAt sheet (headerRows - 2) = .ok rowFilter) (id : String) :
    d.get? id = (lastRow format sheet headerRows id).map fun row =>
      rowData toLower format sheet rowFilter row lowcase filter := by
  obtain ⟨-, _, hrow, rfl⟩ := export2Json_eq_ok_iff.mp h
  cases hfilter.symm.trans hrow
  rw [lastRow, Option.map_map]
  exact OrderedDict.get?_ofList_map_snd
    (fun row => rowData toLower format sheet rowFilter row lowcase filter) (idRows format sheet headerRows)
    id

/-- What is written for a field. -/
theorem get?_rowData {name : String} {value : CellValue} :
    (rowData toLower format sheet rowFilter row lowcase filter).get? name = some value ↔
      ∃ j, Shown toLower format sheet rowFilter lowcase filter j ∧
        fieldName toLower sheet lowcase j = name ∧ (cellAt row j).trimmed = value := by
  rw [rowData_eq]
  exact OrderedDict.get?_ofList_map_eq_some_iff

end Export

/-! ### Exports of a sheet -/

/-- The export for the client and that for the server are written or not together, with the same IDs
    in the same order. An ID stands for its last row, and a field for the last column with its name
    that is marked. -/
theorem exports_aligned (toLower : Char → Char) (format : ℚ → String) (sheet : Sheet)
    (headerRows : ℤ) (lowcase : Bool) (filter : String) :
    ((∃ d, export2Json toLower format sheet headerRows lowcase filter = .ok d) ↔
      0 < sheet.columns.length ∧ 2 ≤ headerRows ∧ headerRows - 2 < sheet.rows.length) ∧
    ∀ d, export2Json toLower format sheet headerRows lowcase filter = .ok d →
      d.keys = ids format sheet headerRows ∧
      ∀ id name value, (∃ fields, d.get? id = some fields ∧ fields.get? name = some value) ↔
        ∃ rowFilter row j, rowAt sheet (headerRows - 2) = .ok rowFilter ∧
          lastRow format sheet headerRows id = some row ∧
          Shown toLower format sheet rowFilter lowcase filter j ∧
          fieldName toLower sheet lowcase j = name ∧ (cellAt row j).trimmed = value := by
  constructor
  · have hrow := @rowAt_ok_iff sheet (headerRows - 2)
    constructor
    · rintro ⟨d, hd⟩
      obtain ⟨hcolumns, rowFilter, hfilter, -⟩ := export2Json_eq_ok_iff.mp hd
      obtain ⟨hpos, hlt⟩ := hrow.mp ⟨rowFilter, hfilter⟩
      exact ⟨hcolumns, by omega, hlt⟩
    · rintro ⟨hcolumns, htwo, hlt⟩
      obtain ⟨rowFilter, hfilter⟩ := hrow.mpr ⟨by omega, hlt⟩
      exact ⟨_, export2Json_eq_ok_iff.mpr ⟨hcolumns, rowFilter, hfilter, rfl⟩⟩
  · intro d hd
    obtain ⟨-, rowFilter, hfilter, -⟩ := export2Json_eq_ok_iff.mp hd
    refine ⟨keys_export hd, fun id name value => ?_⟩
    rw [get?_export hd hfilter]
    constructor
    · rintro ⟨_, hfields, hvalue⟩
      obtain ⟨row, hrow, rfl⟩ := Option.map_eq_some_iff.mp hfields
      obtain ⟨j, hshown, hname, hcell⟩ := get?_rowData.mp hvalue
      exact ⟨rowFilter, row, j, hfilter, hrow, hshown, hname, hcell⟩
    · rintro ⟨rowFilter', row, j, hfilter', hrow, hshown, hname, hcell⟩
      cases hfilter.symm.trans hfilter'
      exact ⟨_, Option.map_eq_some_iff.mpr ⟨row, hrow, rfl⟩,
        get?_rowData.mpr ⟨j, hshown, hname, hcell⟩⟩

/-- Two sheets with the same header have the same export exactly if they have the same IDs in the
    same order and the cells of these agree in the columns that are written. So an export tells
    nothing about the cells in the other columns. -/
theorem export_eq_iff (toLower : Char → Char) (format : ℚ → String) {sheet sheet' : Sheet}
    {headerRows : ℤ} {lowcase : Bool} {filter : String} {rowFilter : List CellValue}
    (hcolumns : sheet'.columns = sheet.columns)
    (hfilter : rowAt sheet (headerRows - 2) = .ok rowFilter)
    (hfilter' : rowAt sheet' (headerRows - 2) = .ok rowFilter) {d d' : Data}
    (h : export2Json toLower format sheet headerRows lowcase filter = .ok d)
    (h' : export2Json toLower format sheet' headerRows lowcase filter = .ok d') :
    d = d' ↔ ids format sheet headerRows = ids format sheet' headerRows ∧
      ∀ id row row', lastRow format sheet headerRows id = some row →
        lastRow format sheet' headerRows id = some row' →
          ∀ j, Shown toLower format sheet rowFilter lowcase filter j →
            (cellAt row j).trimmed = (cellAt row' j).trimmed := by
  have hdata : ∀ row, rowData toLower format sheet' rowFilter row lowcase filter =
      rowData toLower format sheet rowFilter row lowcase filter := by
    intro row
    have hname : fieldName toLower sheet' lowcase = fieldName toLower sheet lowcase := by
      funext j
      rw [fieldName, fieldName, hcolumns]
    rw [rowData_eq, rowData_eq, marked, marked, hname, hcolumns]
  have hrows : ∀ row row', rowData toLower format sheet rowFilter row lowcase filter =
      rowData toLower format sheet rowFilter row' lowcase filter ↔
        ∀ j, Shown toLower format sheet rowFilter lowcase filter j →
          (cellAt row j).trimmed = (cellAt row' j).trimmed := by
    intro row row'
    rw [rowData_eq, rowData_eq]
    exact OrderedDict.ofList_map_eq_iff
  have hget := get?_export h hfilter
  have hget' := get?_export h' hfilter'
  simp only [hdata] at hget'
  rw [← keys_export h, ← keys_export h']
  constructor
  · rintro rfl
    refine ⟨rfl, fun id row row' hrow hrow' => (hrows row row').mp ?_⟩
    have hsame := (hget id).symm.trans (hget' id)
    rw [hrow, hrow'] at hsame
    exact Option.some.inj hsame
  · rintro ⟨hkeys, hcells⟩
    refine OrderedDict.ext_get? hkeys fun id hid => ?_
    obtain ⟨fields, hfields⟩ := Option.isSome_iff_exists.mp (OrderedDict.mem_keys_iff.mp hid)
    obtain ⟨fields', hfields'⟩ :=
      Option.isSome_iff_exists.mp (OrderedDict.mem_keys_iff.mp (hkeys ▸ hid))
    rw [hget] at hfields
    rw [hget'] at hfields'
    obtain ⟨row, hrow, -⟩ := Option.map_eq_some_iff.mp hfields
    obtain ⟨row', hrow', -⟩ := Option.map_eq_some_iff.mp hfields'
    rw [hget, hget', hrow, hrow', Option.map_some, Option.map_some,
      (hrows row row').mpr (hcells id row row' hrow hrow')]

/-- A sheet of one monster, with a column for the server only. -/
def monsterSheet (drop : ℚ) : Sheet where
  columns := ["ID", "Hp", "Drop"]
  rows := [[.string "string", .string "int", .string "float"], [.string "cs", .string "C", .string "S"],
    [.string "wolf", .double 12, .double drop]]
  width := by simp

/-- What is written for the client does not depend on it. -/
theorem export_eq_iff_monster : ∃ d,
    export2Json Char.toLower (fun _ => "") (monsterSheet (1 / 2)) 3 false "c" = .ok d ∧
      export2Json Char.toLower (fun _ => "") (monsterSheet (1 / 4)) 3 false "c" = .ok d := by
  have hmarked : marked Char.toLower (fun _ => "") (monsterSheet (1 / 2))
      [.string "cs", .string "C", .string "S"] false "c" = [0, 1] := by decide +kernel
  have hwritten : ∀ drop, ∃ d,
      export2Json Char.toLower (fun _ => "") (monsterSheet drop) 3 false "c" = .ok d :=
    fun _ => ⟨_, rfl⟩
  have hlast : ∀ drop id row, lastRow (fun _ => "") (monsterSheet drop) 3 id = some row →
      row = [.string "wolf", .double 12, .double drop] := by
    intro drop id row hrow
    obtain ⟨idRow, hfind, rfl⟩ := Option.map_eq_some_iff.mp hrow
    have hrows : (idRows (fun _ => "") (monsterSheet drop) 3).reverse =
        [("wolf", [.string "wolf", .double 12, .double drop])] := rfl
    have hmem := List.mem_of_find?_eq_some hfind
    rw [hrows, List.mem_singleton] at hmem
    rw [hmem]
  obtain ⟨d, hd⟩ := hwritten (1 / 2)
  obtain ⟨d', hd'⟩ := hwritten (1 / 4)
  have heq : d = d' := by
    have hiff := @export_eq_iff Char.toLower (fun _ => "") (monsterSheet (1 / 2)) (monsterSheet (1 / 4))
      3 false "c" _ rfl rfl rfl d d' hd hd'
    refine hiff.mpr ⟨rfl, ?_⟩
    rintro id row row' hrow hrow' j ⟨front, back, hsplit, -⟩
    have hj : j ∈ [0, 1] := by
      rw [← hmarked, hsplit]
      simp
    obtain rfl := hlast _ _ _ hrow
    obtain rfl := hlast _ _ _ hrow'
    rcases List.mem_cons.mp hj with rfl | hj
    · rfl
    · rw [List.mem_singleton.mp hj]
      rfl
  exact ⟨d, hd, heq ▸ hd'⟩

end JsonExporter

end TerraX
