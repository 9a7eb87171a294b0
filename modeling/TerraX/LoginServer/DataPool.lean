import TerraX.Base.DynamicBitset
import TerraX.Lib.Bytes
import TerraX.Lib.CString
import TerraX.Lib.Run
import TerraX.Lib.Segments
import TerraX.Lib.SignedInt
import Mathlib.Logic.Function.Basic

/-!
# Columns and rows

`Column` lays out fields of fixed sizes; a `Row` is a buffer with that layout and a bit set of the
fields that were written. Accesses go through `pDataBuffer + offset` with no check, so a field is
no more than a size and an offset.

The value of a shift by at least the width of a word, which the bit set computes from position 32
on, is a parameter.

## Main definitions

- `Field`, `Column`, `Row`, with the functions of the classes
- `SetCall`, `Row.run` — a run of sets on a row
- `Column.LaidOut` — the layout of a column that was built from properties

## Main results

- `Column.pushAll_ok`, `Column.pushAll_overflow` — building a column
- `Column.lastIndex_eq_some_iff` — which of its columns a name leads to
- `Row.new_ok_iff`, `Row.run_shape` — rows keep the shape that the column gives them
-/

namespace TerraX

open Memory Bytes CString SignedInt Segments

/-- What `PushProperty` reads of a `Property`. -/
structure Property where
  name : String
  type : String
deriving DecidableEq, Repr

/-- `Field`. -/
structure Field where
  dataSize : ℤ
  offset : ℤ
deriving DecidableEq, Repr

namespace Field

/-- `Field::GetValue<int>`. -/
def getValue (build : Build) (host : Endian) (field : Field) (pDataBuffer : List UInt8) :
    Except Fault Int32 := do
  check build (4 = field.dataSize)
  return (UInt32.ofNat (decodeHost host (← readPtr pDataBuffer field.offset 4))).toInt32

/-- `Field::SetValue<int>`. -/
def setValue (build : Build) (host : Endian) (field : Field) (value : Int32)
    (pDataBuffer : List UInt8) : Except Fault (List UInt8) := do
  check build (4 = field.dataSize)
  memcpy pDataBuffer field.offset (encodeHost host 4 value.toUInt32.toNat) 0 4

/-- `Field::GetValueString`, as an offset in the buffer. -/
def getValueString (field : Field) : ℤ := field.offset

/-- `Field::SetValueString`. The copy goes to the start of the buffer. -/
def setValueString (field : Field) (pValue : Chars) (pDataBuffer : List UInt8) :
    Except Fault (List UInt8) :=
  let len := int32 pValue.val.length
  let len := if len > field.dataSize then field.dataSize else len
  memcpy pDataBuffer 0 (pValue.val ++ [0]) 0 len

end Field

/-- `Column`. -/
structure Column where
  dataSize : ℤ := 0
  mapFieldName2Index : String → Option ℤ := fun _ => none
  vecFields : List Field := []

/-- The overloads of the functions of a row: a field is given by its index or by its name. -/
inductive FieldRef
  | index (i : ℤ)
  | name (fieldName : String)
deriving DecidableEq, Repr

namespace Column

/-- The data size that `PushProperty` gives to a type. -/
def dataSizeOf (typeName : String) : ℕ :=
  if typeName = "char16" then 16 else if typeName = "int32" then 4 else 0

@[simp] theorem dataSizeOf_char16 : dataSizeOf "char16" = 16 := rfl

@[simp] theorem dataSizeOf_int32 : dataSizeOf "int32" = 4 := rfl

/-- `Column::PushProperty`. -/
def pushProperty (col : Column) (property : Property) : Except IntFault Column := do
  let nDataSize := dataSizeOf property.type
  return { dataSize := ← int .undefined (col.dataSize + nDataSize)
           mapFieldName2Index :=
             Function.update col.mapFieldName2Index property.name (some (int32 col.vecFields.length))
           vecFields := col.vecFields ++ [⟨nDataSize, col.dataSize⟩] }

/-- A column is built by its calls of `PushProperty`. -/
def pushAll (properties : List Property) : Except IntFault Column :=
  properties.foldlM pushProperty {}

/-- `Column::GetFieldCount`. -/
def getFieldCount (col : Column) : ℤ := int32 col.vecFields.length

/-- `Column::GetField`. -/
def getField (build : Build) (col : Column) (nIndex : ℤ) : Except Fault Field := do
  check build (0 ≤ nIndex ∧ nIndex < int32 col.vecFields.length)
  match col.vecFields[sizeT nIndex]? with
  | some field => return field
  | none => .error (.badIndex (sizeT nIndex) col.vecFields.length)

/-- `Column::GetFieldIndex`. The end of the map has no element to point to. -/
def getFieldIndex (build : Build) (col : Column) (fieldName : String) : Except Fault ℤ := do
  check build (col.mapFieldName2Index fieldName ≠ none)
  match col.mapFieldName2Index fieldName with
  | some nIndex => return nIndex
  | none => .error .nullPointer

/-- The index of a field. -/
def indexOf (build : Build) (col : Column) : FieldRef → Except Fault ℤ
  | .index i => .ok i
  | .name fieldName => col.getFieldIndex build fieldName

end Column

/-- `Row`. Its column is an argument of its functions. -/
structure Row where
  dataBuffer : List UInt8
  bitset : DynamicBitset
deriving DecidableEq, Repr

/-- A set on a row. -/
inductive SetCall
  | value (ref : FieldRef) (val : Int32)
  | string (ref : FieldRef) (pVal : Chars)
deriving DecidableEq

namespace Row

/-- `Row::Row`. A new array of no elements has no room for its one initialiser. -/
def new (arrLength₀ : ℕ) (col : Column) : Except IntFault Row :=
  if col.dataSize < 1 then .error (.badLength col.dataSize)
  else .ok { dataBuffer := List.replicate col.dataSize.toNat 0
             bitset := DynamicBitset.new arrLength₀ (sizeT col.getFieldCount) }

section Functions

variable (build : Build) (host : Endian) (overlong : UInt32 → ℕ → UInt32) (col : Column)

/-- `Row::GetValue<int>`. -/
def getValue (row : Row) (ref : FieldRef) : Except Fault Int32 := do
  let field ← col.getField build (← col.indexOf build ref)
  field.getValue build host row.dataBuffer

/-- `bitset_.set(index)`. No function of a row reads its bit set, so what a row holds does not depend
    on the word that an overlong shift leaves: here it is any word. Where the bits are what the
    caller gets, nothing can be said after such a shift, and `DynamicBitset.undefined` is a fault. -/
def mark (row : Row) (index : ℤ) : Except Fault DynamicBitset :=
  row.bitset.set build (fun w n => .ok (overlong w n)) (sizeT index)

/-- What the sets do alike: find the field, store, and mark the field. -/
def setWith (store : Field → List UInt8 → Except Fault (List UInt8)) (row : Row) (ref : FieldRef) :
    Except Fault Row := do
  let index ← col.indexOf build ref
  let field ← col.getField build index
  let dataBuffer ← store field row.dataBuffer
  return { dataBuffer, bitset := ← row.mark build overlong index }

/-- `Row::SetValue<int>`. -/
def setValue (row : Row) (ref : FieldRef) (val : Int32) : Except Fault Row :=
  row.setWith build overlong col (fun field => field.setValue build host val) ref

/-- `Row::GetValueString`, with what its caller reads behind the pointer. -/
def getValueString (row : Row) (ref : FieldRef) : Except Fault (List UInt8) := do
  let field ← col.getField build (← col.indexOf build ref)
  charsAt row.dataBuffer field.getValueString

/-- `Row::SetValueString`. -/
def setValueString (row : Row) (ref : FieldRef) (pVal : Chars) : Except Fault Row :=
  row.setWith build overlong col (fun field => field.setValueString pVal) ref

/-- One set. -/
def set (row : Row) : SetCall → Except Fault Row
  | .value ref val => row.setValue build host overlong col ref val
  | .string ref pVal => row.setValueString build overlong col ref pVal

/-- A run of sets. -/
def run (row : Row) (calls : List SetCall) : Except Fault Row :=
  calls.foldlM (set build host overlong col) row

end Functions

end Row

/-! ### The layout of a column -/

namespace Column

/-- The sizes of the fields, in the order of the calls. -/
def sizes (properties : List Property) : List ℕ := properties.map fun p => dataSizeOf p.type

/-- The position of the last property of a name. -/
def lastIndex (name : String) : List Property → Option ℕ
  | [] => none
  | p :: ps =>
    match lastIndex name ps with
    | some i => some (i + 1)
    | none => if p.name = name then some 0 else none

/-- The fields are laid end to end, and a name leads to the last of its columns. -/
structure LaidOut (col : Column) (properties : List Property) : Prop where
  dataSize : col.dataSize = (sizes properties).sum
  length : col.vecFields.length = properties.length
  field : ∀ (i : ℕ) (p : Property), properties[i]? = some p →
    col.vecFields[i]? = some ⟨dataSizeOf p.type, start (sizes properties) i⟩
  index : ∀ name, col.mapFieldName2Index name =
    (lastIndex name properties).map fun i : ℕ => int32 i

@[simp] theorem sizes_length (properties : List Property) :
    (sizes properties).length = properties.length := by
  rw [sizes, List.length_map]

theorem sizes_concat (properties : List Property) (p : Property) :
    sizes (properties ++ [p]) = sizes properties ++ [dataSizeOf p.type] := by
  rw [sizes, List.map_append]
  rfl

theorem getElem?_sizes {properties : List Property} {i : ℕ} {p : Property}
    (h : properties[i]? = some p) : (sizes properties)[i]? = some (dataSizeOf p.type) := by
  rw [sizes, List.getElem?_map, h]
  rfl

/-- The positions of the bytes of a field. -/
theorem extent_of_getElem? {properties : List Property} {i : ℕ} {p : Property}
    (h : properties[i]? = some p) : extent (sizes properties) i = Set.Ico (start (sizes properties) i)
      (start (sizes properties) i + dataSizeOf p.type) := by
  rw [extent, getElem?_sizes h, Option.getD_some]

theorem lastIndex_concat (name : String) (properties : List Property) (p : Property) :
    lastIndex name (properties ++ [p]) =
      if p.name = name then some properties.length else lastIndex name properties := by
  induction properties with
  | nil => rfl
  | cons q qs ih =>
    rw [List.cons_append, lastIndex, ih, lastIndex]
    by_cases hname : p.name = name
    · rw [if_pos hname, if_pos hname]
      rfl
    · rw [if_neg hname, if_neg hname]

theorem laidOut_nil : LaidOut {} [] := by
  constructor
  · rfl
  · rfl
  · intro i p h
    cases h
  · exact fun _ => rfl

theorem LaidOut.dataSize_add {col : Column} {properties : List Property} (h : LaidOut col properties)
    (p : Property) : col.dataSize + dataSizeOf p.type = (sizes (properties ++ [p])).sum := by
  rw [h.dataSize, sizes_concat, List.sum_append, List.sum_singleton]
  push_cast
  rfl

/-- One call of `PushProperty` adds a field behind the others. -/
theorem LaidOut.pushProperty {col : Column} {properties : List Property} (h : LaidOut col properties)
    {p : Property} (hfits : (sizes (properties ++ [p])).sum ≤ intMax) :
    ∃ col', col.pushProperty p = .ok col' ∧ LaidOut col' (properties ++ [p]) := by
  have hint : int .undefined (col.dataSize + dataSizeOf p.type) =
      .ok ((sizes (properties ++ [p])).sum : ℤ) := by
    rw [h.dataSize_add]
    refine int_of_fits .undefined ⟨by omega, ?_⟩
    exact_mod_cast hfits
  refine ⟨_, by rw [Column.pushProperty, hint]; rfl, ⟨rfl, ?_, ?_, ?_⟩⟩
  · simp only [List.length_append, List.length_singleton, h.length]
  · intro i q hq
    rcases Nat.lt_or_ge i properties.length with hi | hi
    · rw [List.getElem?_append_left hi] at hq
      rw [List.getElem?_append_left (by rw [h.length]; exact hi), h.field i q hq, sizes_concat,
        start_append _ _ (by rw [sizes_length]; exact hi.le)]
    · -- the new field starts where the old ones end
      have hlast : i = properties.length := by
        have hlen := (List.getElem?_eq_some_iff.mp hq).1
        rw [List.length_append, List.length_singleton] at hlen
        omega
      subst hlast
      rw [List.getElem?_append_right hi, Nat.sub_self] at hq
      cases hq
      have hstart := start_length (sizes properties)
      rw [sizes_length] at hstart
      rw [List.getElem?_append_right (by rw [h.length]), h.length, Nat.sub_self, sizes_concat,
        start_append _ _ (by rw [sizes_length]), hstart, ← h.dataSize]
      rfl
  · intro name
    show Function.update col.mapFieldName2Index p.name _ name = _
    rw [lastIndex_concat, Function.update_apply, h.index name, h.length]
    by_cases hname : p.name = name
    · rw [if_pos hname, if_pos hname.symm]
      rfl
    · rw [if_neg hname, if_neg (Ne.symm hname)]

theorem sum_le_concat (properties : List Property) (p : Property) :
    (sizes properties).sum ≤ (sizes (properties ++ [p])).sum := by
  rw [sizes_concat, List.sum_append]
  exact Nat.le_add_right _ _

theorem pushAll_concat (properties : List Property) (p : Property) :
    pushAll (properties ++ [p]) = (pushAll properties >>= fun col => col.pushProperty p) :=
  Run.foldlM_concat pushProperty {} properties p

/-- As long as the sizes sum up to an integer, the calls lay out the fields. -/
theorem pushAll_ok {properties : List Property} (h : (sizes properties).sum ≤ intMax) :
    ∃ col, pushAll properties = .ok col ∧ LaidOut col properties := by
  induction properties using List.reverseRecOn with
  | nil => exact ⟨{}, rfl, laidOut_nil⟩
  | append_singleton ps p ih =>
    have hle := sum_le_concat ps p
    obtain ⟨col, hcol, hlaid⟩ := ih (by omega)
    obtain ⟨col', hcol', hlaid'⟩ := hlaid.pushProperty h
    refine ⟨col', ?_, hlaid'⟩
    rw [pushAll_concat, hcol, bind_ok, hcol']

/-- The first call beyond that overflows. -/
theorem pushAll_concat_overflow {properties : List Property} {p : Property}
    (hbefore : (sizes properties).sum ≤ intMax)
    (hover : intMax < (sizes (properties ++ [p])).sum) :
    pushAll (properties ++ [p]) = .error (.overflow (sizes (properties ++ [p])).sum) := by
  obtain ⟨col, hcol, hlaid⟩ := pushAll_ok hbefore
  have hnot : ¬ Fits (sizes (properties ++ [p])).sum :=
    fun hfits => absurd hfits.2 (Int.not_le.mpr hover)
  rw [pushAll_concat, hcol, bind_ok, pushProperty, hlaid.dataSize_add,
    int_undefined_of_not_fits hnot, bind_error]

theorem pushAll_overflow {properties : List Property} (h : intMax < (sizes properties).sum) :
    ∃ e, pushAll properties = .error e := by
  induction properties using List.reverseRecOn with
  | nil => exact absurd h (by decide)
  | append_singleton ps p ih =>
    by_cases hbefore : intMax < (sizes ps).sum
    · obtain ⟨e, he⟩ := ih hbefore
      exact ⟨e, by rw [pushAll_concat, he, bind_error]⟩
    · exact ⟨_, pushAll_concat_overflow (Int.not_lt.mp hbefore) h⟩

/-- Every column that was built is laid out. -/
theorem laidOut_of_pushAll {properties : List Property} {col : Column}
    (h : pushAll properties = .ok col) : LaidOut col properties := by
  rcases lt_or_ge intMax (((sizes properties).sum : ℕ) : ℤ) with hover | hfits
  · obtain ⟨e, he⟩ := pushAll_overflow hover
    rw [he] at h
    cases h
  · obtain ⟨col', hcol', hlaid⟩ := pushAll_ok hfits
    rw [hcol'] at h
    cases h
    exact hlaid

/-- The assertions and the number of words of the bit set let a field be set by its index. -/
def Accepts (build : Build) (fieldCount : ℕ) (i : ℕ) : Prop :=
  (build = .debug → (i : ℤ) < int32 fieldCount) ∧ i / 64 ≤ sizeT (int32 fieldCount) / 64

theorem accepts_of_lt (build : Build) {fieldCount i : ℕ} (h : i < fieldCount)
    (hcount : (fieldCount : ℤ) ≤ intMax) : Accepts build fieldCount i := by
  have hint : int32 fieldCount = fieldCount := int32_of_fits ⟨by omega, hcount⟩
  have hsize : sizeT (int32 fieldCount) = fieldCount := by
    unfold intMax at hcount
    unfold sizeT
    omega
  rw [Accepts, hsize, hint]
  exact ⟨fun _ => by exact_mod_cast h, Nat.div_le_div_right h.le⟩

theorem sizeT_natCast {i : ℕ} (h : (i : ℤ) ≤ intMax) : sizeT i = i := by
  unfold intMax at h
  unfold sizeT
  omega

/-- A field is found by its index, if the assertion allows it. -/
theorem LaidOut.getField_eq {col : Column} {properties : List Property} (h : LaidOut col properties)
    (build : Build) {i : ℕ} {p : Property} (hp : properties[i]? = some p) (hi : (i : ℤ) ≤ intMax) :
    col.getField build i = (check build (0 ≤ (i : ℤ) ∧ (i : ℤ) < int32 properties.length) >>= fun _ =>
      .ok ⟨dataSizeOf p.type, start (sizes properties) i⟩) := by
  rw [getField, h.length, sizeT_natCast hi, h.field i p hp]
  rfl

end Column

/-! ### The shape of a row -/

namespace Row

/-- What the column determines of a row. -/
structure Shape (col : Column) (row : Row) : Prop where
  length : (row.dataBuffer.length : ℤ) = col.dataSize
  size : row.bitset.size = sizeT col.getFieldCount
  words : row.bitset.arrNumbers.length = sizeT col.getFieldCount / 64 + 1

/-- The bytes of a field lie in the row. -/
theorem Shape.room {col : Column} {properties : List Property} {row : Row} (hshape : Shape col row)
    (h : col.LaidOut properties) {i : ℕ} {p : Property} (hp : properties[i]? = some p) :
    start (Column.sizes properties) i + Column.dataSizeOf p.type ≤ row.dataBuffer.length := by
  have hend := end_le_sum (Column.sizes properties) i
  have hlength := hshape.length
  rw [h.dataSize] at hlength
  rw [Column.getElem?_sizes hp, Option.getD_some] at hend
  omega

/-- A row is made of at least one byte, and all its bytes are zero then. -/
theorem new_ok_iff {arrLength₀ : ℕ} {col : Column} {row : Row} :
    new arrLength₀ col = .ok row ↔ 1 ≤ col.dataSize ∧
      row = ⟨List.replicate col.dataSize.toNat 0,
        DynamicBitset.new arrLength₀ (sizeT col.getFieldCount)⟩ := by
  unfold new
  split_ifs with hsize
  · simp [Int.not_le.mpr hsize]
  · simp [Int.not_lt.mp hsize, eq_comm]

theorem new_shape {arrLength₀ : ℕ} {col : Column} {row : Row} (h : new arrLength₀ col = .ok row) :
    Shape col row := by
  obtain ⟨hsize, rfl⟩ := new_ok_iff.mp h
  constructor
  · rw [List.length_replicate]
    omega
  · simp only [DynamicBitset.new]
  · simp only [DynamicBitset.new, List.length_replicate, DynamicBitset.bitLength]

section Set

variable {build : Build} {overlong : UInt32 → ℕ → UInt32} {col : Column}
  {store : Field → List UInt8 → Except Fault (List UInt8)}

/-- Marking a field keeps the size of the bit set. -/
theorem mark_shape {row : Row} {index : ℤ} {bs : DynamicBitset}
    (h : row.mark build overlong index = .ok bs) :
    bs.size = row.bitset.size ∧ bs.arrNumbers.length = row.bitset.arrNumbers.length := by
  unfold mark DynamicBitset.set at h
  obtain ⟨_, -, h⟩ := bind_eq_ok.mp h
  obtain ⟨w, -, h⟩ := bind_eq_ok.mp h
  obtain ⟨v, -, h⟩ := bind_eq_ok.mp h
  unfold DynamicBitset.setWord at h
  split at h
  · cases h
    exact ⟨rfl, List.length_set⟩
  · cases h

theorem mark_ok_iff {row : Row} (hshape : Shape col row) {i : ℕ} (hi : (i : ℤ) ≤ intMax)
    (hassert : build = .debug → (i : ℤ) < col.getFieldCount) :
    (∃ bs, row.mark build overlong i = .ok bs) ↔ i / 64 ≤ sizeT col.getFieldCount / 64 := by
  have hcheck : check build (i ≤ row.bitset.size) = .ok () := by
    apply check_of_debug
    intro hdebug
    have hlt := hassert hdebug
    have hfits := fits_int32 col.vecFields.length
    unfold Fits intMax at hfits
    rw [hshape.size]
    unfold Column.getFieldCount sizeT at *
    omega
  have hwords := hshape.words
  have hlength : DynamicBitset.bitLength = 64 := rfl
  rw [mark, DynamicBitset.set, Column.sizeT_natCast hi, hcheck, ok_bind, hlength]
  -- the assertion allows one position too many; what can fail is the index of the word
  by_cases hword : i / 64 < row.bitset.arrNumbers.length
  · have hget : row.bitset.word (i / 64) = .ok row.bitset.arrNumbers[i / 64] := by
      rw [DynamicBitset.word, List.getElem?_eq_getElem hword]
    obtain ⟨v, hv⟩ : ∃ v, DynamicBitset.shiftLeft (fun w n => .ok (overlong w n)) 1 (i % 64) =
        .ok v := by
      rw [DynamicBitset.shiftLeft]
      split <;> exact ⟨_, rfl⟩
    rw [hget, ok_bind, hv, ok_bind, DynamicBitset.setWord, if_pos hword]
    exact iff_of_true ⟨_, rfl⟩ (by omega)
  · have hget : row.bitset.word (i / 64) =
        .error (.badIndex (i / 64) row.bitset.arrNumbers.length) := by
      rw [DynamicBitset.word, List.getElem?_eq_none (Nat.not_lt.mp hword)]
    rw [hget, error_bind]
    refine iff_of_false ?_ (by omega)
    rintro ⟨_, h⟩
    cases h

/-- A set keeps the shape of the row if its store keeps the length of the buffer. -/
theorem setWith_shape (hstore : ∀ field buffer buffer', store field buffer = .ok buffer' →
      buffer'.length = buffer.length) {row row' : Row} (hshape : Shape col row) {ref : FieldRef}
    (h : row.setWith build overlong col store ref = .ok row') : Shape col row' := by
  unfold setWith at h
  obtain ⟨index, -, h⟩ := bind_eq_ok.mp h
  obtain ⟨field, -, h⟩ := bind_eq_ok.mp h
  obtain ⟨buffer, hbuffer, h⟩ := bind_eq_ok.mp h
  obtain ⟨bs, hbs, h⟩ := bind_eq_ok.mp h
  cases h
  obtain ⟨hsize, hwords⟩ := mark_shape hbs
  exact ⟨by rw [hstore _ _ _ hbuffer, hshape.length], hsize.trans hshape.size,
    hwords.trans hshape.words⟩

/-- A set by index returns exactly if it is accepted and its store returns. -/
theorem setWith_index_iff {properties : List Property} (hlaid : col.LaidOut properties) {row : Row}
    (hshape : Shape col row) {i : ℕ} {p : Property} (hp : properties[i]? = some p)
    (hi : (i : ℤ) ≤ intMax) {buffer : List UInt8} :
    (∃ row', row.setWith build overlong col store (.index i) = .ok row' ∧ row'.dataBuffer = buffer) ↔
      Column.Accepts build properties.length i ∧
        store ⟨Column.dataSizeOf p.type, start (Column.sizes properties) i⟩ row.dataBuffer =
          .ok buffer := by
  have hcount : col.getFieldCount = int32 properties.length := by
    rw [Column.getFieldCount, hlaid.length]
  have hindex : col.indexOf build (.index i) = .ok (i : ℤ) := rfl
  rw [setWith, hindex, ok_bind, hlaid.getField_eq build hp hi]
  constructor
  · rintro ⟨row', h, rfl⟩
    obtain ⟨field, hfield, h⟩ := bind_eq_ok.mp h
    obtain ⟨_, hcheck, hfield⟩ := bind_eq_ok.mp hfield
    cases hfield
    obtain ⟨buffer, hbuffer, h⟩ := bind_eq_ok.mp h
    obtain ⟨bs, hbs, h⟩ := bind_eq_ok.mp h
    cases h
    have hassert := fun hdebug => (check_ok_iff.mp hcheck hdebug).2
    have hword := (mark_ok_iff hshape hi (by rwa [hcount])).mp ⟨bs, hbs⟩
    rw [hcount] at hword
    exact ⟨⟨hassert, hword⟩, hbuffer⟩
  · rintro ⟨⟨hassert, hword⟩, hbuffer⟩
    rw [← hcount] at hword
    obtain ⟨bs, hbs⟩ := (@mark_ok_iff build overlong col row hshape i hi (by rwa [hcount])).mpr hword
    refine ⟨⟨buffer, bs⟩, ?_, rfl⟩
    rw [check_of_debug fun hdebug => ⟨by omega, hassert hdebug⟩, ok_bind, ok_bind, hbuffer, ok_bind,
      hbs]
    rfl

end Set

section Run

variable {build : Build} {host : Endian} {overlong : UInt32 → ℕ → UInt32} {col : Column} {row row' : Row}
  (hshape : Shape col row)
include hshape

theorem set_shape {call : SetCall} (h : row.set build host overlong col call = .ok row') :
    Shape col row' := by
  cases call with
  | value ref val =>
    refine setWith_shape ?_ hshape h
    intro field buffer buffer' hstore
    unfold Field.setValue at hstore
    obtain ⟨_, -, hstore⟩ := bind_eq_ok.mp hstore
    exact memcpy_length hstore
  | string ref pVal =>
    refine setWith_shape ?_ hshape h
    intro field buffer buffer' hstore
    unfold Field.setValueString at hstore
    exact memcpy_length hstore

/-- What a run does to a row does not change its shape. -/
theorem run_shape {calls : List SetCall} (h : row.run build host overlong col calls = .ok row') :
    Shape col row' :=
  @Run.foldlM_preserves _ _ _ _ (fun _ r => Shape col r) row hshape
    (fun _ _ _ _ hr hcall => set_shape hr hcall) calls row' h

end Run

end Row

end TerraX
