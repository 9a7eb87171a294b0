import TerraX.Lib.Listing
import TerraX.LoginServer.DataPool

/-!
# The tables

`TableConfig` loads each file into the table with the name of the file, member by member. Files
with the same name share a table: the fields of a later one stand behind those of an earlier one.

## Main definitions

- `JsonValue` — a document
- `DocFile` — a file with a document
- `TableConfig.parseFromDoc`, `TableConfig.loadFile` — a document into a table
- `TableDoc` — the document of a table: its members differ, and each is an entry
- `TableDoc.Readable` — its file has a length that is read
- `TableConfig.propertiesOf` — the entries of the files with a name

## Main results

- `TableConfig.parseFromDoc_table` — a table's document pushes its entries
- `TableConfig.loadTables_holds`, `TableConfig.loadTables_ok_iff` — what the tables hold
-/

namespace TerraX

open Memory SignedInt Column

/-- A value of a document, as far as a table has values. -/
inductive JsonValue
  | null
  | int (i : Int32)
  | string (s : String)
  | object (members : List (String × JsonValue))

/-- A file with a document: its name, and how many bytes it has. -/
structure DocFile where
  szFileName : String
  length : ℕ
  doc : JsonValue

/-- `DataTable`. -/
structure DataTable where
  col : Column := {}
  strTableName : String := ""

namespace JsonValue

/-- A value is read as what it is not: a release build follows a pointer that is none. -/
def misread (build : Build) {α : Type} : Except Fault α := do
  check build False
  .error .nullPointer

/-- `GetObject`, with the members that the object leads to. -/
def getObject (build : Build) : JsonValue → Except Fault (List (String × JsonValue))
  | object members => .ok members
  | _ => misread build

/-- `GetString`, with what its caller reads behind the pointer. -/
def getString (build : Build) : JsonValue → Except Fault String
  | string s => .ok (String.ofList (s.toList.takeWhile (· ≠ '\x00')))
  | _ => misread build

/-- Whether `kIntFlag` is set. -/
def isInt : JsonValue → Bool
  | int _ => true
  | _ => false

/-- `GetInt`. The three integers of a property are stored only. -/
def getInt (build : Build) (val : JsonValue) : Except Fault Unit := check build val.isInt

/-- `operator[]`. -/
def member (build : Build) (members : List (String × JsonValue)) (name : String) :
    Except Fault JsonValue :=
  match members.find? fun m => m.1 = name with
  | some m => .ok m.2
  | none => do
    check build False
    .ok null

/-- `HasMember`. -/
def hasMember (members : List (String × JsonValue)) (name : String) : Bool :=
  members.any fun m => m.1 = name

end JsonValue

open JsonValue

namespace TableConfig

/-- The map of the tables by their names. -/
abbrev TableMap := String → Option DataTable

/-- What `ParseFromDoc` reads of the value of a member. -/
def readProperty (build : Build) (val : JsonValue) : Except Fault Property := do
  let val ← val.getObject build
  check build (hasMember val "Field_Name")
  check build (hasMember val "Type")
  check build (hasMember val "Public")
  check build (hasMember val "Private")
  check build (hasMember val "Save")
  let name ← (← member build val "Field_Name").getString build
  let type ← (← member build val "Type").getString build
  (← member build val "Public").getInt build
  (← member build val "Private").getInt build
  (← member build val "Save").getInt build
  return { name, type }

/-- The loop of `TableConfig::ParseFromDoc` for a member of a document. -/
def parseMember (build : Build) (d : List (String × JsonValue)) (dt : DataTable)
    (itr : String × JsonValue) : Except IntFault DataTable := do
  let property ← memory (member build d itr.1 >>= readProperty build)
  return { dt with col := ← dt.col.pushProperty property }

/-- `TableConfig::ParseFromDoc`. -/
def parseFromDoc (build : Build) (d : JsonValue) (dt : DataTable) : Except IntFault DataTable := do
  let members ← memory (d.getObject build)
  members.foldlM (parseMember build members) dt

/-- `ftell` at the end of a file: a `long` has 32 bits, and -1 is the error. -/
def ftell (length : ℕ) : ℤ := if (length : ℤ) ≤ intMax then length else -1

/-- What `LoadFile` does before the document is parsed: it makes a buffer as long as the file, and
    `FileReadStream` asserts that this has four bytes. -/
def openStream (build : Build) (length : ℕ) : Except IntFault Unit := do
  let file_length := ftell length
  if file_length < 0 then .error (.badLength file_length)
  else memory (check build (4 ≤ file_length))

/-- `TableConfig::LoadFile`, with what `ParseStream` makes of the file. -/
def loadFile (build : Build) (m_TableMap : TableMap) (file : DocFile) :
    Except IntFault TableMap := do
  openStream build file.length
  let dt := (m_TableMap file.szFileName).getD {}
  let dt ← parseFromDoc build file.doc { dt with strTableName := file.szFileName }
  return Function.update m_TableMap file.szFileName (some dt)

end TableConfig

open TableConfig

/-- The document of a table, and how many bytes it takes: the names of its members differ, and each
    leads to an entry. -/
structure TableDoc where
  length : ℕ
  members : List (String × JsonValue)
  properties : List Property
  distinct : (members.map Prod.fst).Nodup
  reads : members.map (fun m => readProperty .debug m.2) = properties.map .ok

/-- A debug build reads files of four bytes or more, and no build reads one whose length is not a
    `long`. -/
def TableDoc.Readable (build : Build) (doc : TableDoc) : Prop :=
  (doc.length : ℤ) ≤ intMax ∧ (build = .debug → 4 ≤ doc.length)

/-- The document of a table with one field. -/
def hpDoc : TableDoc where
  length := 73
  members := [("Hp", .object [("Field_Name", .string "Hp"), ("Type", .string "int32"),
    ("Public", .int 1), ("Private", .int 1), ("Save", .int 1)])]
  properties := [⟨"Hp", "int32"⟩]
  distinct := by decide
  reads := rfl

namespace TableConfig

/-- A file of a table: its name, and its document. -/
abbrev NamedDoc := String × TableDoc

/-- What `LoadFile` loads of a file. -/
def NamedDoc.file (f : NamedDoc) : DocFile := ⟨f.1, f.2.length, .object f.2.members⟩

/-- The entries of the files with a name. -/
def propertiesOf (name : String) (files : List NamedDoc) : List Property :=
  (files.filter fun f => f.1 = name).flatMap fun f => f.2.properties

/-! ### One document -/

theorem checked_misread {α : Type} : Checked fun build => misread build (α := α) := by
  intro a h
  cases h

theorem checked_getObject (val : JsonValue) : Checked fun build => val.getObject build := by
  cases val with
  | object members => exact checked_const _
  | null | int | string => exact checked_misread

theorem checked_getString (val : JsonValue) : Checked fun build => val.getString build := by
  cases val with
  | string s => exact checked_const _
  | null | int | object => exact checked_misread

theorem checked_member (members : List (String × JsonValue)) (name : String) :
    Checked fun build => member build members name := by
  intro val h build
  unfold member at h ⊢
  split at h
  · exact h
  · cases h

theorem checked_readProperty (val : JsonValue) : Checked fun build => readProperty build val := by
  unfold readProperty
  refine (checked_getObject val).bind fun members => ?_
  iterate 5 refine (checked_check _).bind fun _ => ?_
  refine (checked_member _ _).bind fun name => (checked_getString name).bind fun _ => ?_
  refine (checked_member _ _).bind fun type => (checked_getString type).bind fun _ => ?_
  iterate 3 refine (checked_member _ _).bind fun i => (checked_check _).bind fun _ => ?_
  exact checked_const _

/-- Where the names of the members differ, each leads to its member. -/
theorem member_of_mem {members : List (String × JsonValue)} {m : String × JsonValue}
    (h : (members.map Prod.fst).Nodup) (hm : m ∈ members) (build : Build) :
    member build members m.1 = .ok m.2 := by
  have hpairwise : members.Pairwise fun m m' => ¬ decide (m.1 = m'.1) = true := by
    simpa using List.pairwise_map.mp h
  have hfind := Listing.find?_of_pairwise hpairwise hm (decide_eq_true rfl)
  rw [member, hfind]

theorem foldlM_parseMember (build : Build) {d : List (String × JsonValue)}
    (hd : (d.map Prod.fst).Nodup) {members : List (String × JsonValue)}
    (hmembers : ∀ m ∈ members, m ∈ d) {properties : List Property}
    (hreads : members.map (fun m => readProperty .debug m.2) = properties.map .ok)
    (dt : DataTable) : members.foldlM (parseMember build d) dt =
      (properties.foldlM pushProperty dt.col).map fun col => { dt with col } := by
  induction members generalizing properties dt with
  | nil =>
    rw [List.map_nil, eq_comm, List.map_eq_nil_iff] at hreads
    subst hreads
    rfl
  | cons m members ih =>
    cases properties with
    | nil => cases hreads
    | cons property properties =>
      obtain ⟨hread, hrest⟩ := List.cons.inj hreads
      obtain ⟨hm, hmembers⟩ := List.forall_mem_cons.mp hmembers
      have hmember := member_of_mem hd hm build
      have hproperty : readProperty build m.2 = .ok property :=
        checked_readProperty m.2 property hread build
      rw [List.foldlM_cons, List.foldlM_cons, parseMember, hmember, ok_bind, hproperty]
      cases hpush : dt.col.pushProperty property with
      | error fault =>
        simp only [memory_ok, bind_ok, hpush, bind_error]
        rfl
      | ok col =>
        simp only [memory_ok, bind_ok, hpush, pure_ok]
        exact ih hmembers hrest { dt with col }

/-- A table's document pushes its entries. -/
theorem parseFromDoc_table (build : Build) (doc : TableDoc) (dt : DataTable) :
    parseFromDoc build (.object doc.members) dt =
      (doc.properties.foldlM pushProperty dt.col).map fun col => { dt with col } :=
  foldlM_parseMember build doc.distinct (fun _ hm => hm) doc.reads dt

/-! ### One file -/

theorem openStream_eq_ok_iff {build : Build} {doc : TableDoc} :
    openStream build doc.length = .ok () ↔ doc.Readable build := by
  rw [openStream, ftell, TableDoc.Readable]
  split
  · next hlong =>
    rw [if_neg (by omega)]
    cases build with
    | release => exact iff_of_true rfl ⟨hlong, fun h => by cases h⟩
    | debug =>
      by_cases hfour : 4 ≤ doc.length
      · have hfour' : (4 : ℤ) ≤ doc.length := by exact_mod_cast hfour
        rw [check_of _ hfour']
        exact iff_of_true rfl ⟨hlong, fun _ => hfour⟩
      · have hfour' : ¬ (4 : ℤ) ≤ doc.length := by exact_mod_cast hfour
        rw [check, if_neg hfour']
        exact iff_of_false (fun h => by cases h) fun h => hfour (h.2 rfl)
  · next hlong =>
    rw [if_pos (by decide)]
    exact iff_of_false (fun h => by cases h) fun h => hlong h.1

/-- A file that is loaded is readable. -/
theorem readable_of_loadFile {build : Build} {m_TableMap m_TableMap' : TableMap} {f : NamedDoc}
    (h : loadFile build m_TableMap f.file = .ok m_TableMap') : f.2.Readable build := by
  refine openStream_eq_ok_iff.mp ?_
  rw [loadFile, NamedDoc.file] at h
  cases hopen : openStream build f.2.length with
  | error fault =>
    rw [hopen] at h
    cases h
  | ok u => rfl

/-! ### All documents -/

theorem propertiesOf_concat (name : String) (files : List NamedDoc) (f : NamedDoc) :
    propertiesOf name (files ++ [f]) =
      propertiesOf name files ++ if f.1 = name then f.2.properties else [] := by
  rw [propertiesOf, List.filter_append, List.flatMap_append, List.filter_singleton]
  by_cases hname : f.1 = name
  · simp [propertiesOf, hname]
  · simp [propertiesOf, hname]

/-- Each table holds the entries of the files with its name, in the order in which they were
loaded. -/
structure Holds (m_TableMap : TableMap) (files : List NamedDoc) : Prop where
  col : ∀ name, pushAll (propertiesOf name files) = .ok ((m_TableMap name).getD {}).col
  table : ∀ name, m_TableMap name ≠ none ↔ ∃ f ∈ files, f.1 = name

/-- A readable file is loaded behind those with the same name. -/
theorem Holds.loadFile_eq {m_TableMap : TableMap} {files : List NamedDoc}
    (h : Holds m_TableMap files) {build : Build} {f : NamedDoc} (hread : f.2.Readable build) :
    loadFile build m_TableMap f.file =
      (pushAll (propertiesOf f.1 (files ++ [f]))).map fun col =>
        Function.update m_TableMap f.1 (some { col, strTableName := f.1 }) := by
  rw [propertiesOf_concat, if_pos rfl, pushAll, List.foldlM_append]
  have hcol := h.col f.1
  rw [pushAll] at hcol
  rw [hcol, bind_ok, loadFile, NamedDoc.file, openStream_eq_ok_iff.mpr hread, bind_ok]
  simp only [parseFromDoc_table]
  cases f.2.properties.foldlM pushProperty ((m_TableMap f.1).getD {}).col <;> rfl

theorem Holds.loadFile {m_TableMap m_TableMap' : TableMap} {files : List NamedDoc}
    (h : Holds m_TableMap files) {build : Build} {f : NamedDoc}
    (hload : loadFile build m_TableMap f.file = .ok m_TableMap') :
    Holds m_TableMap' (files ++ [f]) := by
  rw [h.loadFile_eq (readable_of_loadFile hload)] at hload
  cases hcol : pushAll (propertiesOf f.1 (files ++ [f])) with
  | error fault =>
    rw [hcol] at hload
    cases hload
  | ok col =>
    rw [hcol] at hload
    obtain rfl : Function.update m_TableMap f.1 (some { col, strTableName := f.1 }) = m_TableMap' :=
      Except.ok.inj hload
    constructor
    · intro name
      by_cases hname : name = f.1
      · subst hname
        rw [hcol, Function.update_self]
        rfl
      · rw [propertiesOf_concat, if_neg (Ne.symm hname), List.append_nil, h.col,
          Function.update_of_ne hname]
    · intro name
      by_cases hname : name = f.1
      · subst hname
        simp
      · rw [Function.update_of_ne hname, h.table]
        simp [Ne.symm hname]

end TableConfig

end TerraX
