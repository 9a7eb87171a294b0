import TerraX.LoginServer.TableConfig
import TerraX.Tools.FileSearch
import Mathlib.Data.List.DropRight

/-!
# The export of the tables' enumerations

`DataPoolBuilder` writes an enumeration for each table into one header. It writes over an earlier
header from its start and does not cut off what stands behind, and it unlocks the region that it
locked by the length that the file has then.

## Main definitions

- `CppEnumExport.enumerators`, `CppEnumExport.text` — what is written
- `CppEnumExport.export2CppFile` — the header after a call, from the one before it
- `CppEnumExport.Covers` — the text covers what was there, and none of it goes beyond too early

## Main results

- `CppEnumExport.leaves_iff` — when calls leave their text
-/

namespace TerraX

open CString

/-- A file of the list: its path, and the members of its document. -/
structure JsonFile where
  path : Text
  members : List (String × JsonValue)

/-- How many of the bytes that are written a `StreamWriter` hands to its stream before `Flush`. It
hands on what its buffer holds when more is written, so that the end stays in its buffer. -/
structure Buffering where
  handed : List UInt8 → ℕ
  handed_lt : ∀ bytes, bytes ≠ [] → handed bytes < bytes.length

/-- A buffer for `size` bytes. -/
def Buffering.blocks (size : ℕ) : Buffering where
  handed bytes := size * ((bytes.length - 1) / size)
  handed_lt bytes h := by
    have hpos := List.length_pos_iff.mpr h
    have hle := Nat.mul_div_le (bytes.length - 1) size
    omega

/-- `Path.GetFileNameWithoutExtension`. -/
def getFileNameWithoutExtension (path : Text) : Text :=
  let name := path.rtakeWhile fun c => c ≠ '\\' ∧ c ≠ '/' ∧ c ≠ ':'
  match splitLast '.' name with
  | some (front, _) => front
  | none => name

/-- The bytes of a text. -/
def utf8 (text : Text) : List UInt8 := text.flatMap String.utf8EncodeChar

/-- The contents of a file over whose start is written. -/
def writeAtStart (contents bytes : List UInt8) : List UInt8 :=
  bytes ++ contents.drop bytes.length

namespace CppEnumExport

section

variable (toLower : Char → Char)

/-- `jo.Properties()`: a member replaces an earlier one with its name. -/
def properties (file : JsonFile) : List String := (file.members.map Prod.fst).eraseDups

/-- `file_name.ToLower()`. -/
def fileName (file : JsonFile) : Text := (getFileNameWithoutExtension file.path).map toLower

/-- `file_name.ToLower() + "_" + jp.Name.ToLower() + "_index"`. -/
def fieldEnumerator (file : JsonFile) (name : String) : Text :=
  fileName toLower file ++ '_' :: (name.toList.map toLower ++ "_index".toList)

/-- `file_name.ToLower() + "_" + "index_size"`. -/
def sizeEnumerator (file : JsonFile) : Text :=
  fileName toLower file ++ '_' :: "index_size".toList

/-- The enumerators of a file. -/
def enumerators (file : JsonFile) : List Text :=
  (properties file).map (fieldEnumerator toLower file) ++ [sizeEnumerator toLower file]

/-- The lines of `CppEnumExport.DoWrite`. -/
def doWrite (file : JsonFile) : List Text :=
  (enumerators toLower file).map fun name => "\t\t".toList ++ name ++ [',']

/-- The lines that `Export2CppFile` writes. -/
def lines (listFiles : List JsonFile) : List Text :=
  ["#pragma once".toList, [], "namespace TerraX".toList, "\x7b".toList] ++
    listFiles.flatMap (fun file =>
      ["\tenum \x7b".toList] ++ doWrite toLower file ++ ["\t\x7d;".toList, []]) ++
    ["\x7d".toList]

/-- `WriteLine`, line by line. -/
def text (listFiles : List JsonFile) : Text :=
  (lines toLower listFiles).flatMap fun line => line ++ ['\r', '\n']

/-- The bytes of the text. -/
def generated (listFiles : List JsonFile) : List UInt8 := utf8 (text toLower listFiles)

/-- What a call leaves in the file, and whether it returns. -/
structure Exported where
  contents : List UInt8
  returns : Bool
deriving DecidableEq

variable (buffering : Buffering)

/-- `CppEnumExport.Export2CppFile`, with the contents of a file that exists already. -/
def export2CppFile (old : Option (List UInt8)) (listFiles : List JsonFile) : Exported :=
  let contents := old.getD []
  let bytes := generated toLower listFiles
  let handed := buffering.handed bytes
  -- the length to unlock counts what was handed on, too
  if max contents.length handed = contents.length then
    { contents := writeAtStart contents bytes, returns := true }
  else
    -- the region was never locked, and what the writer still holds is lost
    { contents := writeAtStart contents (bytes.take handed), returns := false }

/-- The file after calls one after the other. -/
def exportAll (old : Option (List UInt8)) (runs : List (List JsonFile)) : Option (List UInt8) :=
  runs.foldl (fun old listFiles => some (export2CppFile toLower buffering old listFiles).contents) old

/-- After each call the file has the text of that call, and nothing behind it. -/
def LeavesEach (old : Option (List UInt8)) (runs : List (List JsonFile)) : Prop :=
  ∀ before listFiles, before ++ [listFiles] <+: runs →
    exportAll toLower buffering old (before ++ [listFiles]) = some (generated toLower listFiles)

end

/-- The text covers what was there, and what is handed on early does not go beyond that. -/
def Covers (buffering : Buffering) (contents bytes : List UInt8) : Prop :=
  contents.length ≤ bytes.length ∧ buffering.handed bytes ≤ contents.length

/-! ### One call -/

theorem writeAtStart_eq_iff {contents bytes : List UInt8} :
    writeAtStart contents bytes = bytes ↔ contents.length ≤ bytes.length := by
  rw [writeAtStart, List.append_right_eq_self, List.drop_eq_nil_iff]

/-- A part of some bytes that is written leaves the bytes only where they stood behind it. -/
theorem writeAtStart_take_ne {contents bytes : List UInt8} {n : ℕ} (hlt : n < bytes.length)
    (h : contents.length < n) : writeAtStart contents (bytes.take n) ≠ bytes := by
  intro heq
  have hlen := congrArg List.length heq
  rw [writeAtStart, List.length_append, List.length_drop, List.length_take] at hlen
  omega

section

variable {toLower : Char → Char} {buffering : Buffering}

theorem generated_ne_nil (listFiles : List JsonFile) : generated toLower listFiles ≠ [] := by
  have htext : text toLower listFiles = '#' :: (text toLower listFiles).tail := by
    rw [text, lines]
    simp
  rw [generated, htext, utf8, List.flatMap_cons]
  simp [String.utf8EncodeChar_ne_nil]

theorem export2CppFile_contents_iff {old : Option (List UInt8)} {listFiles : List JsonFile} :
    (export2CppFile toLower buffering old listFiles).contents = generated toLower listFiles ↔
      Covers buffering (old.getD []) (generated toLower listFiles) := by
  have hlt := buffering.handed_lt (generated toLower listFiles) (generated_ne_nil listFiles)
  rw [Covers, export2CppFile]
  split
  · next hmax => rw [writeAtStart_eq_iff, and_iff_left (by omega)]
  · next hmax =>
    have hbeyond : (old.getD []).length < buffering.handed (generated toLower listFiles) := by omega
    exact iff_of_false (writeAtStart_take_ne hlt hbeyond) fun h => by omega

/-- A call returns exactly if the region to unlock is the one that was locked. -/
theorem export2CppFile_returns_iff {old : Option (List UInt8)} {listFiles : List JsonFile} :
    (export2CppFile toLower buffering old listFiles).returns = true ↔
      buffering.handed (generated toLower listFiles) ≤ (old.getD []).length := by
  rw [export2CppFile]
  split
  · next hmax => exact iff_of_true rfl (max_eq_left_iff.mp hmax)
  · next hmax => exact iff_of_false Bool.false_ne_true fun h => hmax (max_eq_left h)

/-! ### Calls one after the other -/

theorem leavesEach_nil (old : Option (List UInt8)) : LeavesEach toLower buffering old [] := by
  intro before listFiles h
  simp at h

theorem leavesEach_cons {old : Option (List UInt8)} {listFiles : List JsonFile}
    {runs : List (List JsonFile)} : LeavesEach toLower buffering old (listFiles :: runs) ↔
      (export2CppFile toLower buffering old listFiles).contents = generated toLower listFiles ∧
        LeavesEach toLower buffering (some (generated toLower listFiles)) runs := by
  have hfirst : exportAll toLower buffering old [listFiles] =
      some (export2CppFile toLower buffering old listFiles).contents := rfl
  constructor
  · intro h
    have hcontents := h [] listFiles (by simp)
    rw [List.nil_append, hfirst, Option.some_inj] at hcontents
    refine ⟨hcontents, fun before last hbefore => ?_⟩
    have hlast := h (listFiles :: before) last (by simpa using hbefore)
    rw [List.cons_append, exportAll, List.foldl_cons, hcontents] at hlast
    exact hlast
  · rintro ⟨hcontents, h⟩ before last hbefore
    rcases before with - | ⟨first, before⟩
    · obtain ⟨rfl, -⟩ := List.cons_prefix_cons.mp hbefore
      rw [List.nil_append, hfirst, hcontents]
    · obtain ⟨rfl, hbefore'⟩ := List.cons_prefix_cons.mp hbefore
      rw [List.cons_append, exportAll, List.foldl_cons, hcontents]
      exact h before last hbefore'

theorem leavesEach_iff {old : Option (List UInt8)} {runs : List (List JsonFile)} :
    LeavesEach toLower buffering old runs ↔
      (old.getD [] :: runs.map (generated toLower)).IsChain (Covers buffering) := by
  induction runs generalizing old with
  | nil => exact iff_of_true (leavesEach_nil old) (.singleton _)
  | cons listFiles runs ih =>
    rw [leavesEach_cons, export2CppFile_contents_iff, ih, List.map_cons, List.isChain_cons_cons]
    rfl

end

/-- A call leaves its text exactly if that covers what was there. Calls one after the other do
exactly if each text covers the one before it. -/
theorem leaves_iff (toLower : Char → Char) (buffering : Buffering) (old : Option (List UInt8)) :
    (∀ listFiles, (export2CppFile toLower buffering old listFiles).contents =
        generated toLower listFiles ↔
      Covers buffering (old.getD []) (generated toLower listFiles)) ∧
    ∀ runs, LeavesEach toLower buffering old runs ↔
      (old.getD [] :: runs.map (generated toLower)).IsChain (Covers buffering) :=
  ⟨fun _ => export2CppFile_contents_iff, fun _ => leavesEach_iff⟩

/-- A table file. -/
def avatarFile : JsonFile := ⟨"avatar.json".toList, hpDoc.members⟩

/-- A table file. -/
def itemFile : JsonFile := ⟨"item.json".toList, hpDoc.members⟩

/-- The end of a longer text stays. -/
theorem longer_text_stays :
    (export2CppFile Char.toLower (.blocks 1024) none [avatarFile]).contents =
      generated Char.toLower [avatarFile] ∧
    export2CppFile Char.toLower (.blocks 1024) (some (generated Char.toLower [avatarFile, itemFile]))
        [avatarFile] =
      { contents := generated Char.toLower [avatarFile] ++
          utf8 "um \x7b\r\n\t\titem_hp_index,\r\n\t\titem_index_size,\r\n\t\x7d;\r\n\r\n\x7d\r\n".toList
        returns := true } ∧
    ¬ LeavesEach Char.toLower (.blocks 1024) none [[avatarFile, itemFile], [avatarFile]] := by
  refine ⟨by decide, by decide +kernel, fun h => ?_⟩
  have hlast := h [[avatarFile, itemFile]] [avatarFile] (by simp)
  revert hlast
  decide +kernel

end CppEnumExport

end TerraX
