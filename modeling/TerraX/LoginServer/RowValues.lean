import TerraX.LoginServer.DataPool
import Mathlib.Data.Int.ConditionallyCompleteOrder
import Mathlib.Data.Set.Lattice.Image
import Mathlib.Order.SuccPred.CompleteLinearOrder

/-!
# The integers of a row

Runs of `SetValue<int>` on the `int32` fields of a row. The fields do not overlap, so each keeps
the value that was set last on it, and the rest of the row stays as it was. This holds for columns
whose row size and number of fields are integers: beyond that, `PushProperty` overflows, or a name
leads to another index.

## Main definitions

- `Column.range` — the bytes of a field
- `Column.target` — the field that a caller names
- `Row.lastValue` — the value set last

## Main results

- `Column.LaidOut.range_disjoint`, `Column.LaidOut.iUnion_range` — fields do not overlap or leave gaps
- `Row.setValue_stores` — what one set changes
- `Row.getValue_of_run` — what a run leaves behind
-/

namespace TerraX

open Memory Bytes SignedInt Segments

namespace Column

/-- The positions of the bytes of a field. -/
def range (col : Column) (i : ℕ) : Set ℤ :=
  {q | ∃ field, col.vecFields[i]? = some field ∧ field.offset ≤ q ∧ q < field.offset + field.dataSize}

/-- The field that a caller names: for a name, the column pushed last under it. -/
def target (properties : List Property) : FieldRef → Option ℕ
  | .index i => if 0 ≤ i then some i.toNat else none
  | .name fieldName => lastIndex fieldName properties

/-- The field is an `int32`. -/
def IsInt32 (properties : List Property) (i : ℕ) : Prop :=
  ∃ p, properties[i]? = some p ∧ p.type = "int32"

/-! ### The ranges of the fields -/

section Ranges

variable {col : Column} {properties : List Property} (h : col.LaidOut properties)
include h

theorem LaidOut.range_eq (i : ℕ) :
    col.range i = Set.image Nat.cast (extent (sizes properties) i) := by
  ext q
  cases hp : properties[i]? with
  | none =>
    have hfield : col.vecFields[i]? = none := by
      rw [List.getElem?_eq_none_iff] at hp ⊢
      rwa [h.length]
    have hsize : (sizes properties)[i]? = none := by
      rw [List.getElem?_eq_none_iff] at hp ⊢
      rwa [sizes_length]
    simp [range, extent, hfield, hsize]
  | some p =>
    simp only [range, Set.mem_ofPred_eq, h.field i p hp, Option.some.injEq, exists_eq_left',
      Set.mem_image, extent_of_getElem? hp, Set.mem_Ico]
    constructor
    · rintro ⟨hlow, hhigh⟩
      exact ⟨q.toNat, by omega, by omega⟩
    · rintro ⟨n, hn, rfl⟩
      omega

/-- The ranges of different fields are disjoint. -/
theorem LaidOut.range_disjoint {i j : ℕ} (hne : i ≠ j) : Disjoint (col.range i) (col.range j) := by
  rw [h.range_eq, h.range_eq, Set.disjoint_image_iff Nat.cast_injective]
  exact Segments.disjoint (sizes properties) hne

/-- Together they are the whole row. -/
theorem LaidOut.iUnion_range :
    ⋃ i < col.vecFields.length, col.range i = Set.Ico 0 col.dataSize := by
  have hcover := iUnion_extent (sizes properties)
  rw [sizes_length, ← h.length] at hcover
  simp only [h.range_eq, ← Set.image_iUnion₂, hcover, h.dataSize]
  ext q
  simp only [Set.mem_image, Set.mem_Iio, Set.mem_Ico]
  constructor
  · rintro ⟨n, hn, rfl⟩
    omega
  · rintro ⟨hlow, hhigh⟩
    exact ⟨q.toNat, by omega, by omega⟩

end Ranges

/-! ### Names and indexes -/

section Targets

variable {col : Column} {properties : List Property} (h : col.LaidOut properties)
  (hcount : (properties.length : ℤ) ≤ intMax)
include h hcount

theorem LaidOut.indexOf_eq (build : Build) {ref : FieldRef} {i : ℕ} (htarget : target properties ref = some i)
    (hi : i < properties.length) : col.indexOf build ref = .ok (i : ℤ) := by
  cases ref with
  | index z =>
    rw [target] at htarget
    split at htarget
    · cases htarget
      show Except.ok z = _
      congr 1
      omega
    · cases htarget
  | name fieldName =>
    have hmap : col.mapFieldName2Index fieldName = some (i : ℤ) := by
      have hfits : int32 i = i := int32_of_fits ⟨by omega, by omega⟩
      rw [target] at htarget
      rw [h.index, htarget, Option.map_some, hfits]
    rw [indexOf, getFieldIndex, hmap, check_of build (by simp)]
    rfl

theorem LaidOut.getField_ok (build : Build) {i : ℕ} {p : Property} (hp : properties[i]? = some p) :
    col.getField build i = .ok ⟨dataSizeOf p.type, start (sizes properties) i⟩ := by
  have hi := (List.getElem?_eq_some_iff.mp hp).1
  have hint : int32 properties.length = properties.length := int32_of_fits ⟨by omega, hcount⟩
  rw [h.getField_eq build hp (by omega), hint, check_of build ⟨by omega, by exact_mod_cast hi⟩]
  rfl

end Targets

end Column

namespace Row

open Column

/-- The value set last on a field, or zero. -/
def lastValue (properties : List Property) (sets : List (FieldRef × Int32)) (i : ℕ) : Int32 :=
  sets.foldl (fun v s => if target properties s.1 = some i then s.2 else v) 0

/-- The calls of `SetValue<int>`. -/
def setValues (sets : List (FieldRef × Int32)) : List SetCall := sets.map fun s => .value s.1 s.2

theorem lastValue_concat (properties : List Property) (sets : List (FieldRef × Int32))
    (ref : FieldRef) (val : Int32) (i : ℕ) :
    lastValue properties (sets ++ [(ref, val)]) i =
      if target properties ref = some i then val else lastValue properties sets i := by
  rw [lastValue, List.foldl_append]
  rfl

/-- What a run of sets leaves behind on a row that was all zeros in its integers. -/
structure Keeps (host : Endian) (properties : List Property) (row₀ : Row)
    (sets : List (FieldRef × Int32)) (row : Row) : Prop where
  values : ∀ i, IsInt32 properties i → slice row.dataBuffer (start (sizes properties) i) 4 =
    encodeHost host 4 (lastValue properties sets i).toUInt32.toNat
  frame : ∀ q : ℕ, (∀ s ∈ sets, ∀ i, target properties s.1 = some i →
    q ∉ extent (sizes properties) i) → row.dataBuffer[q]? = row₀.dataBuffer[q]?

section Values

variable {build : Build} {host : Endian} {overlong : UInt32 → ℕ → UInt32} {col : Column}
  {properties : List Property}

theorem extent_of_int32 {i : ℕ} (h : IsInt32 properties i) : extent (sizes properties) i =
    Set.Ico (start (sizes properties) i) (start (sizes properties) i + 4) := by
  obtain ⟨p, hp, htype⟩ := h
  rw [extent_of_getElem? hp, htype, dataSizeOf_int32]

/-! ### One set -/

variable (h : col.LaidOut properties) (hcount : (properties.length : ℤ) ≤ intMax)

include h

/-- The four bytes of an integer lie in the row. -/
theorem int32_room {row : Row} (hshape : Shape col row) {i : ℕ} (hint32 : IsInt32 properties i) :
    start (sizes properties) i + 4 ≤ row.dataBuffer.length := by
  obtain ⟨p, hp, htype⟩ := hint32
  have hroom := hshape.room h hp
  rwa [htype] at hroom

/-- All integers of a new row are zero. -/
theorem keeps_new {arrLength₀ : ℕ} {row : Row} (hnew : Row.new arrLength₀ col = .ok row) :
    Keeps host properties row [] row := by
  have hshape := new_shape hnew
  obtain ⟨-, rfl⟩ := new_ok_iff.mp hnew
  refine ⟨?_, fun _ _ => rfl⟩
  intro i hint32
  have hroom := int32_room h hshape hint32
  rw [List.length_replicate] at hroom
  have hzero : encodeHost host 4 (0 : Int32).toUInt32.toNat = List.replicate 4 0 := by
    cases host <;> decide
  rw [slice, List.drop_replicate, List.take_replicate, Nat.min_eq_left (by omega)]
  exact hzero.symm

include hcount

/-- A set on an `int32` field writes the four bytes of the value to the range of the field. -/
theorem setValue_stores {row : Row} (hshape : Shape col row) {ref : FieldRef} {i : ℕ}
    (htarget : target properties ref = some i) (hint32 : IsInt32 properties i) (val : Int32) :
    ∃ row', row.setValue build host overlong col ref val = .ok row' ∧
      write row.dataBuffer (start (sizes properties) i) (encodeHost host 4 val.toUInt32.toNat) =
        .ok row'.dataBuffer := by
  have hroom := int32_room h hshape hint32
  obtain ⟨p, hp, htype⟩ := hint32
  have hi := (List.getElem?_eq_some_iff.mp hp).1
  have hsize : 4 = (dataSizeOf p.type : ℤ) := by rw [htype, dataSizeOf_int32, Nat.cast_ofNat]
  obtain ⟨bytes, hbytes⟩ : ∃ bytes, encodeHost host 4 val.toUInt32.toNat = bytes := ⟨_, rfl⟩
  have hlen : bytes.length = 4 := by rw [← hbytes, encodeHost_length]
  obtain ⟨buffer, hbuffer⟩ : ∃ buffer,
      write row.dataBuffer (start (sizes properties) i) bytes = .ok buffer :=
    ⟨_, write_ok (by rw [hlen]; exact hroom)⟩
  -- the copy takes the whole value and stays in the row
  have hcopy : memcpy row.dataBuffer (start (sizes properties) i) bytes 0 4 = .ok buffer := by
    refine (memcpy_natCast _ bytes _ 0 4).trans ?_
    rw [read_ok (by omega), ← hlen, slice_zero_length, Memory.ok_bind, hbuffer]
  have hstore : Field.setValue build host ⟨dataSizeOf p.type, start (sizes properties) i⟩ val
      row.dataBuffer = .ok buffer := by
    rw [Field.setValue, check_of build hsize, Memory.ok_bind, hbytes]
    exact hcopy
  obtain ⟨row', hset, hbuffer'⟩ := (@setWith_index_iff build overlong col
    (fun field => field.setValue build host val) properties h row hshape i p hp (by omega) buffer).mpr
      ⟨accepts_of_lt build hi hcount, hstore⟩
  refine ⟨row', ?_, by rw [hbytes, hbuffer, hbuffer']⟩
  rw [setValue, setWith, h.indexOf_eq hcount build htarget hi]
  exact hset

/-- `GetValue<int>` decodes the four bytes of the field. -/
theorem getValue_eq {row : Row} (hshape : Shape col row) {ref : FieldRef} {i : ℕ}
    (htarget : target properties ref = some i) (hint32 : IsInt32 properties i) {val : Int32}
    (hval : slice row.dataBuffer (start (sizes properties) i) 4 =
      encodeHost host 4 val.toUInt32.toNat) :
    row.getValue build host col ref = .ok val := by
  have hroom := int32_room h hshape hint32
  obtain ⟨p, hp, htype⟩ := hint32
  have hi := (List.getElem?_eq_some_iff.mp hp).1
  have hsize : 4 = (dataSizeOf p.type : ℤ) := by rw [htype, dataSizeOf_int32, Nat.cast_ofNat]
  have hlt : val.toUInt32.toNat < 256 ^ 4 := val.toUInt32.toNat_lt
  rw [getValue, h.indexOf_eq hcount build htarget hi, Memory.ok_bind, h.getField_ok hcount build hp,
    Memory.ok_bind, Field.getValue, check_of build hsize, Memory.ok_bind, readPtr_ok rfl hroom,
    Memory.ok_bind, hval, decodeHost_encodeHost, Nat.mod_eq_of_lt hlt, UInt32.ofNat_toNat]
  rfl

/-- The set field has the value, and the other fields keep theirs. -/
theorem Keeps.setValue {row₀ row : Row} {sets : List (FieldRef × Int32)} (hshape : Shape col row)
    (hkeeps : Keeps host properties row₀ sets row) {ref : FieldRef} {i : ℕ}
    (htarget : target properties ref = some i) (hint32 : IsInt32 properties i) (val : Int32) :
    ∃ row', row.setValue build host overlong col ref val = .ok row' ∧
      Keeps host properties row₀ (sets ++ [(ref, val)]) row' := by
  obtain ⟨row', hset, hwrite⟩ := @setValue_stores build host overlong col properties h hcount row
    hshape ref i htarget hint32 val
  refine ⟨row', hset, ?_, ?_⟩
  · intro j hj
    rw [lastValue_concat, htarget]
    by_cases hij : i = j
    · subst hij
      have hsame := slice_write_same hwrite
      rw [encodeHost_length] at hsame
      rw [if_pos rfl, hsame]
    · -- the four bytes of another integer lie outside of what is written
      rw [if_neg (by simpa using hij), ← hkeeps.values j hj]
      have hdisjoint := Set.disjoint_left.mp (Segments.disjoint (sizes properties) hij)
      rw [extent_of_int32 hint32, extent_of_int32 hj] at hdisjoint
      apply slice_write_other hwrite
      intro q hlow hhigh hmem
      rw [encodeHost_length] at hmem
      exact hdisjoint hmem ⟨hlow, hhigh⟩
  · intro q hq
    have hlast := hq (ref, val) (by simp) i htarget
    rw [extent_of_int32 hint32, Set.mem_Ico] at hlast
    rw [getElem?_write hwrite, encodeHost_length, if_neg hlast]
    exact hkeeps.frame q fun s hs => hq s (List.mem_append_left _ hs)

/-! ### A run of sets -/

/-- Every run on a new row returns, and each integer has the value set last on it. -/
theorem Keeps.run {arrLength₀ : ℕ} {row₀ : Row} (hnew : Row.new arrLength₀ col = .ok row₀)
    {sets : List (FieldRef × Int32)}
    (hsets : ∀ s ∈ sets, ∃ i, target properties s.1 = some i ∧ IsInt32 properties i) :
    ∃ row, row₀.run build host overlong col (setValues sets) = .ok row ∧
      Keeps host properties row₀ sets row := by
  induction sets using List.reverseRecOn with
  | nil => exact ⟨row₀, rfl, keeps_new h hnew⟩
  | append_singleton sets s ih =>
    obtain ⟨row, hrun, hkeeps⟩ := ih fun t ht => hsets t (List.mem_append_left _ ht)
    obtain ⟨i, htarget, hint32⟩ := hsets s (by simp)
    obtain ⟨row', hset, hkeeps'⟩ := @Keeps.setValue build host overlong col properties h hcount row₀ row
      sets (run_shape (new_shape hnew) hrun) hkeeps s.1 i htarget hint32 s.2
    refine ⟨row', ?_, hkeeps'⟩
    rw [Row.run, setValues, List.map_append, List.map_singleton, Run.foldlM_concat]
    rw [Row.run, setValues] at hrun
    rw [hrun, Memory.ok_bind]
    exact hset

end Values

end Row

/-- As long as the size of the row and the number of fields are integers, the fields partition the
    row, and every run of sets on `int32` fields of a new row returns and leaves in each of them
    the value set last, and everything else as it was. -/
theorem getValue_of_run (build : Build) (host : Endian) (overlong : UInt32 → ℕ → UInt32)
    {properties : List Property} (hsize : (Column.sizes properties).sum ≤ intMax)
    (hcount : properties.length ≤ intMax) :
    ∃ col, Column.pushAll properties = .ok col ∧ col.vecFields.length = properties.length ∧
      (∀ i j, i ≠ j → Disjoint (col.range i) (col.range j)) ∧
      ⋃ i < col.vecFields.length, col.range i = Set.Ico 0 col.dataSize ∧
      ∀ arrLength₀ row₀, Row.new arrLength₀ col = .ok row₀ → ∀ sets : List (FieldRef × Int32),
        (∀ s ∈ sets, ∃ i, Column.target properties s.1 = some i ∧ Column.IsInt32 properties i) →
        ∃ row, row₀.run build host overlong col (Row.setValues sets) = .ok row ∧
          (∀ ref i, Column.target properties ref = some i → Column.IsInt32 properties i →
            row.getValue build host col ref = .ok (Row.lastValue properties sets i)) ∧
          row.dataBuffer.length = row₀.dataBuffer.length ∧
          ∀ q : ℕ, (∀ s ∈ sets, ∀ i, Column.target properties s.1 = some i → (q : ℤ) ∉ col.range i) →
            row.dataBuffer[q]? = row₀.dataBuffer[q]? := by
  obtain ⟨col, hcol, hlaid⟩ := Column.pushAll_ok hsize
  refine ⟨col, hcol, hlaid.length, fun i j hne => hlaid.range_disjoint hne, hlaid.iUnion_range, ?_⟩
  intro arrLength₀ row₀ hnew sets hsets
  obtain ⟨row, hrun, hkeeps⟩ := @Row.Keeps.run build host overlong col properties hlaid hcount
    arrLength₀ row₀ hnew sets hsets
  have hshape := Row.run_shape (Row.new_shape hnew) hrun
  refine ⟨row, hrun, ?_, ?_, ?_⟩
  · intro ref i htarget hint32
    exact Row.getValue_eq hlaid hcount hshape htarget hint32 (hkeeps.values i hint32)
  · have hlength := (Row.new_shape hnew).length
    rw [← hshape.length] at hlength
    omega
  · intro q hq
    apply hkeeps.frame
    intro s hs i htarget hmem
    apply hq s hs i htarget
    rw [hlaid.range_eq]
    exact Set.mem_image_of_mem _ hmem

theorem getValue_of_run_item : ∃ col,
    Column.pushAll [⟨"Guid", "char16"⟩, ⟨"ItemID", "int32"⟩] = .ok col ∧
    ∃ row₀, Row.new 0 col = .ok row₀ ∧ ∃ row,
      row₀.run .debug .little (fun w _ => w) col (Row.setValues [(.name "ItemID", 1001)]) = .ok row ∧
      row.getValue .debug .little col (.index 1) = .ok 1001 := by
  obtain ⟨col, hcol, -, -, hcover, hruns⟩ := @getValue_of_run .debug .little (fun w _ => w)
    [⟨"Guid", "char16"⟩, ⟨"ItemID", "int32"⟩] (by decide) (by decide)
  have hint32 : Column.IsInt32 [⟨"Guid", "char16"⟩, ⟨"ItemID", "int32"⟩] 1 := ⟨_, rfl, rfl⟩
  have hnew : Row.new 0 col = .ok ⟨List.replicate col.dataSize.toNat 0,
      DynamicBitset.new 0 (sizeT col.getFieldCount)⟩ := by
    refine Row.new_ok_iff.mpr ⟨?_, rfl⟩
    cases hcol
    decide
  obtain ⟨row, hrun, hvalues, -⟩ := hruns 0 _ hnew [(.name "ItemID", 1001)] (by
    intro s hs
    obtain rfl := List.mem_singleton.mp hs
    exact ⟨1, rfl, hint32⟩)
  exact ⟨col, hcol, _, hnew, row, hrun, hvalues (.index 1) 1 rfl hint32⟩

/-! ### Too many columns -/

namespace Column

theorem sum_sizes_replicate (n : ℕ) (p : Property) :
    (sizes (List.replicate n p)).sum = n * dataSizeOf p.type := by
  rw [sizes, List.map_replicate, List.sum_replicate, Nat.nsmul_eq_mul]

theorem pushAll_replicate_overflow {n : ℕ} {p : Property} (hbefore : (n * dataSizeOf p.type : ℕ) ≤ intMax)
    (hover : intMax < ((n + 1) * dataSizeOf p.type : ℕ)) :
    pushAll (List.replicate (n + 1) p) = .error (.overflow ((n + 1) * dataSizeOf p.type : ℕ)) := by
  rw [← sum_sizes_replicate] at hbefore
  rw [← sum_sizes_replicate, List.replicate_succ'] at hover
  rw [← sum_sizes_replicate, List.replicate_succ', pushAll_concat_overflow hbefore hover]

/-- Behind `n` columns of other names without bytes, the name of a column leads to `n` as a signed
    integer. -/
theorem getFieldIndex_behind (build : Build) {n : ℕ} {p q : Property} (hp : dataSizeOf p.type = 0)
    (hq : dataSizeOf q.type ≤ 16) : ∃ col, pushAll (List.replicate n p ++ [q]) = .ok col ∧
      lastIndex q.name (List.replicate n p ++ [q]) = some n ∧
      col.getFieldIndex build q.name = .ok (int32 n) := by
  have hsum : ((sizes (List.replicate n p ++ [q])).sum : ℤ) ≤ intMax := by
    rw [sizes_concat, List.sum_append, sum_sizes_replicate, hp, List.sum_singleton]
    unfold intMax
    omega
  have hlast : lastIndex q.name (List.replicate n p ++ [q]) = some n := by
    rw [lastIndex_concat, if_pos rfl, List.length_replicate]
  obtain ⟨col, hcol, hlaid⟩ := pushAll_ok hsum
  have hmap : col.mapFieldName2Index q.name = some (int32 n) := by
    rw [hlaid.index, hlast, Option.map_some]
  refine ⟨col, hcol, hlast, ?_⟩
  rw [getFieldIndex, hmap, check_of build (by simp)]
  rfl

end Column

/-- With `2 ^ 27` columns of strings the size of the row overflows. Behind `2 ^ 31` columns without
    bytes the index of a column is negative. -/
theorem too_many_columns :
    Column.pushAll (List.replicate (2 ^ 27) ⟨"Guid", "char16"⟩) = .error (.overflow (2 ^ 31)) ∧
    ∃ col, Column.pushAll (List.replicate (2 ^ 31) ⟨"Tag", "tag"⟩ ++ [⟨"ItemID", "int32"⟩]) = .ok col ∧
      Column.lastIndex "ItemID" (List.replicate (2 ^ 31) ⟨"Tag", "tag"⟩ ++ [⟨"ItemID", "int32"⟩]) =
        some (2 ^ 31) ∧
      col.getFieldIndex .debug "ItemID" = .ok (-2 ^ 31) := by
  have hcount : (2 : ℕ) ^ 27 = 134217727 + 1 := by decide
  have hsize : Column.dataSizeOf "char16" = 16 := rfl
  have hindex : int32 ((2 ^ 31 : ℕ) : ℤ) = -2 ^ 31 := by decide
  constructor
  · have hover := @Column.pushAll_replicate_overflow 134217727 ⟨"Guid", "char16"⟩
      (by rw [hsize]; decide) (by rw [hsize]; decide)
    rw [hcount, hover, hsize]
    rfl
  · obtain ⟨col, hcol, hlast, hfound⟩ := @Column.getFieldIndex_behind .debug (2 ^ 31) ⟨"Tag", "tag"⟩
      ⟨"ItemID", "int32"⟩ rfl (by decide)
    exact ⟨col, hcol, hlast, by rw [hfound, hindex]⟩

end TerraX
