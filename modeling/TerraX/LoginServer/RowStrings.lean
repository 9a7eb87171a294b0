import TerraX.LoginServer.RowValues

/-!
# The strings of a row

`SetValueString` copies the characters to the start of the row, wherever its field is, and without
the zero behind them, while `GetValueString` reads from the field on up to a zero.

## Main definitions

- `Row.StoresString` — a set is read back from its field and changes no other field
- `Row.InPlace` — what the copy does not have to write stands in the row already

## Main results

- `Field.setValueString_ok_iff` — what the copy does
- `Row.inPlace_first_iff`, `Row.inPlace_behind_iff` — the first field, and fields behind the copy
- `storesString_iff` — the sets that are read back
-/

namespace TerraX

open Memory Bytes CString SignedInt Segments

namespace Column

/-- The field is a `char16`. -/
def IsChar16 (properties : List Property) (i : ℕ) : Prop :=
  ∃ p, properties[i]? = some p ∧ p.type = "char16"

theorem extent_of_char16 {properties : List Property} {i : ℕ} (h : IsChar16 properties i) :
    extent (sizes properties) i =
      Set.Ico (start (sizes properties) i) (start (sizes properties) i + 16) := by
  obtain ⟨p, hp, htype⟩ := h
  rw [extent_of_getElem? hp, htype, dataSizeOf_char16]

end Column

/-- The number of characters that are copied, if it is not negative. -/
def copied (s : List UInt8) : ℕ := min (int32 s.length).toNat 16

/-- The copy takes no more than what fits into the field. -/
theorem copied_le (s : List UInt8) (h : 0 ≤ int32 s.length) : copied s ≤ min s.length 16 := by
  unfold copied
  unfold int32 at *
  omega

/-- The copy overwrites the start of the buffer, or leaves it with a negative length. -/
theorem Field.setValueString_ok_iff {s : Chars} {offset : ℤ} {buffer buffer' : List UInt8} :
    Field.setValueString ⟨16, offset⟩ s buffer = .ok buffer' ↔
      0 ≤ int32 s.val.length ∧ write buffer 0 (s.val.take (copied s.val)) = .ok buffer' := by
  rw [Field.setValueString]
  dsimp only
  by_cases hneg : 0 ≤ int32 s.val.length
  · have hcut : (if int32 s.val.length > 16 then 16 else int32 s.val.length) =
        (copied s.val : ℤ) := by
      unfold copied
      split <;> omega
    have hle := copied_le s.val hneg
    have hread : slice (s.val ++ [0]) 0 (copied s.val) = s.val.take (copied s.val) := by
      rw [slice_append_left (by omega)]
      rfl
    have hcopy := memcpy_natCast buffer (s.val ++ [0]) 0 0 (copied s.val)
    rw [read_ok (by rw [List.length_append]; omega), Memory.ok_bind, hread] at hcopy
    rw [hcut]
    refine Iff.trans (Eq.congr_left hcopy) ?_
    exact ⟨fun h => ⟨hneg, h⟩, fun h => h.2⟩
  · have hcut : ¬ int32 s.val.length > 16 := by omega
    rw [if_neg hcut, memcpy, if_pos (Or.inr (by omega))]
    refine iff_of_false ?_ (fun h => hneg h.1)
    intro h
    cases h

namespace Row

open Column

/-- A set of the string `s` on field `i` returns, the field is read back as `s` cut to the size of
    the field, and the bytes of the other fields are as before. -/
def StoresString (build : Build) (overlong : UInt32 → ℕ → UInt32) (col : Column) (row : Row) (i : ℕ)
    (s : Chars) : Prop :=
  ∃ row', row.setValueString build overlong col (.index i) s = .ok row' ∧
    row'.getValueString build col (.index i) = .ok (s.val.take 16) ∧
    ∀ j, j ≠ i → ∀ q : ℕ, (q : ℤ) ∈ col.range j → row'.dataBuffer[q]? = row.dataBuffer[q]?

/-- What stands in the row already for a set of `s` on the field at `off`: the zero behind the
    characters, those characters that the copy to the start of the row does not write, and what it
    writes in front of the field. -/
structure InPlace (block : List UInt8) (off : ℕ) (s : List UInt8) : Prop where
  length : 0 ≤ int32 s.length
  terminated : block[off + min s.length 16]? = some 0
  written : ∀ k < min s.length 16,
    (if off + k < copied s then s[off + k]? else block[off + k]?) = s[k]?
  front : ∀ k < min (copied s) off, block[k]? = s[k]?

/-- On the first field it takes a zero behind the characters, and that they can be counted. -/
theorem inPlace_first_iff {block s : List UInt8} (hlength : (s.length : ℤ) ≤ intMax) :
    InPlace block 0 s ↔ block[min s.length 16]? = some 0 := by
  have hint : int32 s.length = s.length := int32_of_fits ⟨by omega, hlength⟩
  have hcopied : copied s = min s.length 16 := by rw [copied, hint, Int.toNat_natCast]
  constructor
  · intro h
    simpa using h.terminated
  · intro h
    refine ⟨by omega, by simpa using h, ?_, ?_⟩
    · intro k hk
      rw [hcopied, Nat.zero_add, if_pos hk]
    · intro k hk
      omega

/-- On a field behind the copied characters nothing is left to write. -/
theorem inPlace_behind_iff {block s : List UInt8} {off : ℕ} (hlength : (s.length : ℤ) ≤ intMax)
    (hoff : min s.length 16 ≤ off) : InPlace block off s ↔
      block[off + min s.length 16]? = some 0 ∧
      ∀ k < min s.length 16, block[off + k]? = s[k]? ∧ block[k]? = s[k]? := by
  have hint : int32 s.length = s.length := int32_of_fits ⟨by omega, hlength⟩
  have hcopied : copied s = min s.length 16 := by rw [copied, hint, Int.toNat_natCast]
  constructor
  · rintro ⟨-, hterm, hwritten, hfront⟩
    refine ⟨hterm, ?_⟩
    intro k hk
    have hnot : ¬ off + k < copied s := by omega
    have hin := hwritten k hk
    rw [if_neg hnot] at hin
    exact ⟨hin, hfront k (by omega)⟩
  · rintro ⟨hterm, hall⟩
    refine ⟨by omega, hterm, ?_, ?_⟩
    · intro k hk
      rw [if_neg (by omega)]
      exact (hall k hk).1
    · intro k hk
      exact (hall k (by omega)).2

/-! ### After the copy -/

section Stored

variable {block block' : List UInt8} {s : Chars} (hlength : 0 ≤ int32 s.val.length)
  (hwrite : write block 0 (s.val.take (copied s.val)) = .ok block')
include hlength hwrite

theorem getElem?_stored (q : ℕ) :
    block'[q]? = if q < copied s.val then s.val[q]? else block[q]? := by
  have hle := copied_le s.val hlength
  have hlen : (s.val.take (copied s.val)).length = copied s.val := by
    rw [List.length_take]
    omega
  rw [getElem?_write hwrite, hlen, Nat.zero_add, Nat.sub_zero]
  by_cases hq : q < copied s.val
  · rw [if_pos hq, if_pos ⟨Nat.zero_le q, hq⟩, List.getElem?_take, if_pos hq]
  · rw [if_neg hq, if_neg (fun h => hq h.2)]

/-- The field reads back exactly if the end and the rest of the characters were in place. -/
theorem charsAt_stored_iff (off : ℕ) : charsAt block' off = .ok (s.val.take 16) ↔
    block[off + min s.val.length 16]? = some 0 ∧ ∀ k < min s.val.length 16,
      (if off + k < copied s.val then s.val[off + k]? else block[off + k]?) = s.val[k]? := by
  have hle := copied_le s.val hlength
  have hzero : 0 ∉ s.val.take 16 := fun hmem => s.property (List.mem_of_mem_take hmem)
  have hlen : (s.val.take 16).length = min s.val.length 16 := by
    rw [List.length_take, Nat.min_comm]
  have hbehind : ¬ off + min s.val.length 16 < copied s.val := by omega
  rw [charsAt_ok_iff, hlen, getElem?_stored hlength hwrite, if_neg hbehind]
  refine Iff.trans (and_iff_right hzero) (and_congr_right fun _ => ?_)
  apply forall_congr'
  intro k
  apply imp_congr_right
  intro hk
  have htake : k < 16 := by omega
  rw [getElem?_stored hlength hwrite, List.getElem?_take, if_pos htake]

/-- The other fields are as before exactly if the copy changes nothing in front of the field. -/
theorem range_stored_iff {col : Column} {properties : List Property} (h : col.LaidOut properties)
    {i : ℕ} (hchar16 : IsChar16 properties i) :
    (∀ j, j ≠ i → ∀ q : ℕ, (q : ℤ) ∈ col.range j → block'[q]? = block[q]?) ↔
      ∀ k < min (copied s.val) (start (sizes properties) i), block[k]? = s.val[k]? := by
  have hle := copied_le s.val hlength
  have hmem : ∀ (j q : ℕ), (q : ℤ) ∈ col.range j ↔ q ∈ extent (sizes properties) j := by
    intro j q
    rw [h.range_eq]
    exact Function.Injective.mem_set_image Nat.cast_injective
  constructor
  · intro hframe k hk
    -- in front of the field there are the fields before it
    obtain ⟨j, hj, hkj⟩ := mem_extent_of_lt_start (sizes properties) k i (by omega)
    have hsame := hframe j hj.ne k ((hmem j k).mpr hkj)
    rw [getElem?_stored hlength hwrite, if_pos (by omega)] at hsame
    exact hsame.symm
  · intro hfront j hne q hq
    rw [getElem?_stored hlength hwrite]
    by_cases hcopy : q < copied s.val
    · have hnot := Set.disjoint_left.mp (Segments.disjoint (sizes properties) hne) ((hmem j q).mp hq)
      rw [extent_of_char16 hchar16, Set.mem_Ico] at hnot
      rw [if_pos hcopy, hfront q (by omega)]
    · rw [if_neg hcopy]

end Stored

/-- A set is read back and changes no other field exactly if it is accepted and what it does not
    write is in place. -/
theorem storesString_of_shape {build : Build} {overlong : UInt32 → ℕ → UInt32} {col : Column}
    {properties : List Property} (h : col.LaidOut properties) {row : Row} (hshape : Shape col row)
    {i : ℕ} (hchar16 : IsChar16 properties i) (hi : (i : ℤ) ≤ intMax) (s : Chars) :
    StoresString build overlong col row i s ↔ Accepts build properties.length i ∧
      InPlace row.dataBuffer (start (sizes properties) i) s.val := by
  obtain ⟨p, hp, htype⟩ := hchar16
  have hsize : dataSizeOf p.type = 16 := by rw [htype, dataSizeOf_char16]
  have hset := fun buffer => @setWith_index_iff build overlong col
    (fun field => field.setValueString s) properties h row hshape i p hp hi buffer
  rw [hsize] at hset
  -- a read looks at the bytes only, not at the marks
  have hget : ∀ r : Row, Accepts build properties.length i → r.getValueString build col (.index i) =
      charsAt r.dataBuffer (start (sizes properties) i) := by
    intro r haccepts
    have hindex : col.indexOf build (.index i) = .ok (i : ℤ) := rfl
    rw [getValueString, hindex, Memory.ok_bind, h.getField_eq build hp hi,
      check_of_debug fun hdebug => ⟨by omega, haccepts.1 hdebug⟩]
    rfl
  constructor
  · rintro ⟨row', hcall, hread, hframe⟩
    obtain ⟨haccepts, hstore⟩ := (hset row'.dataBuffer).mp ⟨row', hcall, rfl⟩
    obtain ⟨hlength, hwrite⟩ := Field.setValueString_ok_iff.mp hstore
    rw [hget row' haccepts, charsAt_stored_iff hlength hwrite] at hread
    exact ⟨haccepts, hlength, hread.1, hread.2,
      (range_stored_iff hlength hwrite h ⟨p, hp, htype⟩).mp hframe⟩
  · rintro ⟨haccepts, hlength, hterm, hwritten, hfront⟩
    have hroom := hshape.room h hp
    have hle : copied s.val ≤ 16 := Nat.min_le_right _ _
    rw [hsize] at hroom
    obtain ⟨buffer, hwrite⟩ : ∃ buffer,
        write row.dataBuffer 0 (s.val.take (copied s.val)) = .ok buffer := by
      refine ⟨_, write_ok ?_⟩
      rw [List.length_take]
      omega
    obtain ⟨row', hcall, rfl⟩ := (hset buffer).mpr
      ⟨haccepts, Field.setValueString_ok_iff.mpr ⟨hlength, hwrite⟩⟩
    refine ⟨row', hcall, ?_, (range_stored_iff hlength hwrite h ⟨p, hp, htype⟩).mpr hfront⟩
    rw [hget row' haccepts]
    exact (charsAt_stored_iff hlength hwrite _).mpr ⟨hterm, hwritten⟩

end Row

/-- After any run of sets on a row of any column, a set on a field of strings is read back and
    changes no other field exactly if it is accepted and what it does not write is in place. -/
theorem storesString_iff (build : Build) (host : Endian) (overlong : UInt32 → ℕ → UInt32)
    {properties : List Property} {col : Column} (hcol : Column.pushAll properties = .ok col)
    {arrLength₀ : ℕ} {row₀ row : Row} (hnew : Row.new arrLength₀ col = .ok row₀)
    {calls : List SetCall} (hrun : row₀.run build host overlong col calls = .ok row) {i : ℕ}
    (hchar16 : Column.IsChar16 properties i) (hi : i ≤ intMax) (s : Chars) :
    row.StoresString build overlong col i s ↔ Column.Accepts build properties.length i ∧
      Row.InPlace row.dataBuffer (start (Column.sizes properties) i) s.val :=
  Row.storesString_of_shape (Column.laidOut_of_pushAll hcol)
    (Row.run_shape (Row.new_shape hnew) hrun) hchar16 hi s

/-- A string on a new row of one column is read back. -/
theorem storesString_iff_guid : ∃ col, Column.pushAll [⟨"Guid", "char16"⟩] = .ok col ∧
    ∃ row, Row.new 0 col = .ok row ∧
      row.StoresString .debug (fun w _ => w) col 0 ⟨[0x41, 0x42], by decide⟩ := by
  refine ⟨_, rfl, _, rfl, ?_⟩
  have hiff := @storesString_iff .debug .little (fun w _ => w) [⟨"Guid", "char16"⟩] _ rfl 0 _ _ rfl [] rfl
    0 ⟨_, rfl, rfl⟩ (by decide) ⟨[0x41, 0x42], by decide⟩
  apply hiff.mpr
  refine ⟨Column.accepts_of_lt .debug (by decide) (by decide), ?_, ?_, ?_, ?_⟩
  all_goals decide

/-- On the second column the string is not read back and lands in the first one; and a string does
    not end a longer one that was there before. -/
theorem second_column_not_stored : ∃ col,
    Column.pushAll [⟨"Guid", "char16"⟩, ⟨"Name", "char16"⟩] = .ok col ∧
    ∃ row, Row.new 0 col = .ok row ∧
      ¬ row.StoresString .debug (fun w _ => w) col 1 ⟨[0x41, 0x42], by decide⟩ ∧
      ∃ row', row.setValueString .debug (fun w _ => w) col (.index 0) ⟨[0x41, 0x42], by decide⟩ =
          .ok row' ∧
        ¬ row'.StoresString .debug (fun w _ => w) col 0 ⟨[0x43], by decide⟩ := by
  refine ⟨_, rfl, _, rfl, ?_, _, rfl, ?_⟩
  · rintro ⟨row', hcall, hread, -⟩
    cases hcall
    revert hread
    decide
  · rintro ⟨row', hcall, hread, -⟩
    cases hcall
    revert hread
    decide

end TerraX
