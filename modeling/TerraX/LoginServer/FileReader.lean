import TerraX.Lib.CString
import TerraX.Lib.Listing

/-!
# The files of the tables

`FileReader` goes through a directory tree and collects the files with the extension `json`. One
record serves all files of a directory. A file without a dot leaves its name and extension as the
file before it set them, so that after a json file it counts as another one.

## Main definitions

- `FileReader.readFiles` — the directory tree in, the records out
- `wantedFiles` — the json files of the tree, with their paths and names
- `NoStale` — no file without a dot is met while the record reads `json`

## Main results

- `readFiles_iff` — when a release build collects the wanted files, and a debug build completes
-/

namespace TerraX

open Memory CString

/-- The characters of a file or folder name, or of a path. -/
abbrev Name := Chars

/-- `FileInfo_t`. -/
structure FileInfo where
  szFilePath : CharArray 256
  szFileName : CharArray 32
  szFileExt : CharArray 8
deriving DecidableEq

/-- `.`. -/
def dot : UInt8 := 46

/-- `TableFileExName`, `json`. -/
def tableFileExName : List UInt8 := [106, 115, 111, 110]

namespace FileReader

/-- `szFilePathTmp.assign(szFilePath).append("\\").append(fileinfo.name)`. -/
def join (szFilePath name : Name) : Name :=
  ⟨szFilePath.val ++ 92 :: name.val, by
    have hpath := szFilePath.property
    have hname := name.property
    simp [hpath, hname]⟩

/-- The folders that are read: their names pass both comparisons. -/
def descends (name : Name) : Bool :=
  !strncmpEq 1 (name.val ++ [0]) [dot, 0] && !strncmpEq 2 (name.val ++ [0]) [dot, dot, 0]

/-- `FileReader::ExtractFileInfo`, which sets the file name and the extension of a record. -/
def extractFileInfo (build : Build) (fullName : Name) (fi : FileInfo) : Except Fault FileInfo :=
  match splitLast dot fullName.val with
  | some (front, back) => do
    let szFileName ← strcpy fi.szFileName front
    let szFileExt ← strcpy fi.szFileExt back
    .ok { fi with szFileName, szFileExt }
  | none => do
    check build False
    .ok fi

/-- `strncmp(fi.szFileExt, TableFileExName, sizeof(TableFileExName)) == 0`. -/
def readsJson (fi : FileInfo) : Bool :=
  strncmpEq (tableFileExName.length + 1) fi.szFileExt.val (tableFileExName ++ [0])

/-- The loop of `FileReader::ReadFiles` over the entries of a directory, with its record. Below a
folder the function starts with a record that nothing has set yet. -/
def readEntries (build : Build) (stack : Name → FileInfo) (szFilePath : Name) :
    Listing Name → FileInfo → Except Fault (List FileInfo)
  | .nil, _ => .ok []
  | .folder name sub rest, fi => do
    let below ←
      if descends name then
        readEntries build stack (join szFilePath name) sub (stack (join szFilePath name))
      else .ok []
    let behind ← readEntries build stack szFilePath rest fi
    .ok (below ++ behind)
  | .file name rest, fi => do
    let fi ← extractFileInfo build name fi
    if readsJson fi then
      let path ← strcpy fi.szFilePath (join szFilePath name).val
      let fi := { fi with szFilePath := path }
      let behind ← readEntries build stack szFilePath rest fi
      .ok (fi :: behind)
    else readEntries build stack szFilePath rest fi

/-- `FileReader::ReadFiles`, with the contents of the record of each call before it is set. -/
def readFiles (build : Build) (stack : Name → FileInfo) (szFilePath : Name)
    (listing : Listing Name) : Except Fault (List FileInfo) :=
  readEntries build stack szFilePath listing (stack szFilePath)

end FileReader

open FileReader

/-! ### What is wanted -/

/-- A folder whose name does not start with a dot. -/
def Visible (name : Name) : Bool := name.val.head? ≠ some dot

/-- The files in folders whose names do not start with a dot. -/
def visibleFiles : Name → Listing Name → List (Name × Name) :=
  Listing.files Visible join

/-- The path and the name of a file whose text behind the last dot is `json`. -/
def wantedFile (f : Name × Name) : Option (List UInt8 × List UInt8) :=
  match splitLast dot f.2.val with
  | some (front, back) => if back = tableFileExName then some ((join f.1 f.2).val, front) else none
  | none => none

/-- The json files of a directory tree, with their paths and names. -/
def wantedFiles (szFilePath : Name) (listing : Listing Name) :
    List (List UInt8 × List UInt8) :=
  (visibleFiles szFilePath listing).filterMap wantedFile

/-- The strings of a record that its readers take. -/
def FileInfo.strings (fi : FileInfo) : Except Fault (List UInt8) × Except Fault (List UInt8) :=
  (charsAt fi.szFilePath.val 0, charsAt fi.szFileName.val 0)

/-- The records are those of the wanted files, each once. -/
def Collects (fis : List FileInfo) (wanted : List (List UInt8 × List UInt8)) : Prop :=
  (fis.map FileInfo.strings).Perm (wanted.map fun f => (.ok f.1, .ok f.2))

/-- The parts of a file fit the fields of a record. -/
def FitsFields (f : Name × Name) : Prop :=
  (join f.1 f.2).val.length < 256 ∧
    ∀ front back, splitLast dot f.2.val = some (front, back) → front.length < 32 ∧ back.length < 8

/-- No file without a dot is met while the record reads `json`. -/
def NoStale (stack : Name → FileInfo) (szFilePath : Name) :
    Listing Name → Bool → Prop
  | .nil, _ => True
  | .folder name sub rest, json =>
    (Visible name →
      NoStale stack (join szFilePath name) sub (readsJson (stack (join szFilePath name)))) ∧
      NoStale stack szFilePath rest json
  | .file name rest, json =>
    match splitLast dot name.val with
    | some (_, back) => NoStale stack szFilePath rest (back == tableFileExName)
    | none => json = false ∧ NoStale stack szFilePath rest false

/-! ### One file -/

theorem descends_eq (name : Name) : descends name = Visible name := by
  obtain ⟨s, hs⟩ := name
  have hzero : (0 : UInt8) ≠ dot := by decide
  rcases s with - | ⟨b, s⟩
  · rfl
  · by_cases hb : b = dot
    · subst hb
      simp [descends, Visible, strncmpEq]
    · simp [descends, Visible, strncmpEq, hb]

theorem readsJson_of_prefix {fi : FileInfo} {back : List UInt8} (hback : 0 ∉ back)
    (h : back ++ [0] <+: fi.szFileExt.val) : readsJson fi = (back == tableFileExName) :=
  strncmpEq_of_prefix hback (by decide) h List.prefix_rfl (Nat.lt_succ_self _)

/-- A name with a dot sets the name and the extension of the record. -/
theorem extractFileInfo_dotted (build : Build) {name : Name} {front back : List UInt8}
    (hsplit : splitLast dot name.val = some (front, back)) (hfront : front.length < 32)
    (hback : back.length < 8) (fi : FileInfo) :
    ∃ fi', extractFileInfo build name fi = .ok fi' ∧ charsAt fi'.szFileName.val 0 = .ok front ∧
      readsJson fi' = (back == tableFileExName) := by
  have hzero : 0 ∉ front ++ dot :: back := by
    rw [← (splitLast_eq_some_iff.mp hsplit).1]
    exact name.property
  rw [List.mem_append, List.mem_cons, not_or, not_or] at hzero
  obtain ⟨szFileName, hname, hnamePrefix⟩ := strcpy_ok fi.szFileName hfront
  obtain ⟨szFileExt, hext, hextPrefix⟩ := strcpy_ok fi.szFileExt hback
  refine ⟨{ fi with szFileName, szFileExt }, ?_, charsAt_of_prefix hzero.1 hnamePrefix,
    readsJson_of_prefix hzero.2.2 hextPrefix⟩
  rw [extractFileInfo, hsplit]
  simp only [hname, hext, ok_bind]

theorem extractFileInfo_release {name : Name} (hsplit : splitLast dot name.val = none)
    (fi : FileInfo) : extractFileInfo .release name fi = .ok fi := by
  rw [extractFileInfo, hsplit]
  rfl

theorem extractFileInfo_debug {name : Name} (hsplit : splitLast dot name.val = none)
    (fi : FileInfo) : extractFileInfo .debug name fi = .error .assertFailed := by
  rw [extractFileInfo, hsplit]
  rfl

/-- A file whose record reads `json` then is collected. -/
theorem readEntries_file {build : Build} (stack : Name → FileInfo) {szFilePath name : Name}
    (rest : Listing Name) {fi fi' : FileInfo} (hfits : FitsFields (szFilePath, name))
    (hextract : extractFileInfo build name fi = .ok fi') (hjson : readsJson fi' = true) :
    ∃ fi'', readsJson fi'' = true ∧ fi''.szFileName = fi'.szFileName ∧
      charsAt fi''.szFilePath.val 0 = .ok (join szFilePath name).val ∧
      readEntries build stack szFilePath (.file name rest) fi = (do
        let behind ← readEntries build stack szFilePath rest fi''
        .ok (fi'' :: behind)) := by
  obtain ⟨path, hpath, hprefix⟩ := strcpy_ok fi'.szFilePath hfits.1
  refine ⟨{ fi' with szFilePath := path }, hjson, rfl,
    charsAt_of_prefix (join szFilePath name).property hprefix, ?_⟩
  rw [readEntries, hextract, ok_bind, if_pos hjson, hpath, ok_bind]

theorem readEntries_skip {build : Build} {stack : Name → FileInfo} {szFilePath name : Name}
    {rest : Listing Name} {fi fi' : FileInfo}
    (hextract : extractFileInfo build name fi = .ok fi') (hjson : readsJson fi' = false) :
    readEntries build stack szFilePath (.file name rest) fi =
      readEntries build stack szFilePath rest fi' := by
  rw [readEntries, hextract, ok_bind, if_neg (by simp [hjson])]

/-- A folder is read before the entries behind it. -/
theorem readEntries_visible (build : Build) (stack : Name → FileInfo) (szFilePath : Name)
    {name : Name} (sub rest : Listing Name) (fi : FileInfo) (h : Visible name = true) :
    readEntries build stack szFilePath (.folder name sub rest) fi = (do
      let below ← readFiles build stack (join szFilePath name) sub
      let behind ← readEntries build stack szFilePath rest fi
      .ok (below ++ behind)) := by
  rw [readEntries, descends_eq, if_pos h]
  rfl

theorem readEntries_hidden (build : Build) (stack : Name → FileInfo) (szFilePath : Name)
    {name : Name} (sub rest : Listing Name) (fi : FileInfo) (h : ¬ Visible name = true) :
    readEntries build stack szFilePath (.folder name sub rest) fi =
      readEntries build stack szFilePath rest fi := by
  rw [readEntries, descends_eq, if_neg h]
  cases hrest : readEntries build stack szFilePath rest fi <;> simp

/-! ### A release build -/

/-- What is read is what is wanted where `p` holds, and more where it does not. -/
structure Reading (fis : List FileInfo) (wanted : List (List UInt8 × List UInt8)) (p : Prop) :
    Prop where
  right : p → fis.map FileInfo.strings = wanted.map fun f => (.ok f.1, .ok f.2)
  le : wanted.length ≤ fis.length
  lt : ¬ p → wanted.length < fis.length

namespace Reading

variable {fis fis' : List FileInfo} {wanted wanted' : List (List UInt8 × List UInt8)} {p p' : Prop}

theorem append (h : Reading fis wanted p) (h' : Reading fis' wanted' p') :
    Reading (fis ++ fis') (wanted ++ wanted') (p ∧ p') where
  right hp := by rw [List.map_append, List.map_append, h.right hp.1, h'.right hp.2]
  le := by
    have hle := h.le
    have hle' := h'.le
    rw [List.length_append, List.length_append]
    omega
  lt hnot := by
    have hle := h.le
    have hle' := h'.le
    rw [List.length_append, List.length_append]
    rcases not_and_or.mp hnot with hp | hp
    · have hlt := h.lt hp
      omega
    · have hlt := h'.lt hp
      omega

theorem cons (h : Reading fis wanted p) {fi : FileInfo} {f : List UInt8 × List UInt8}
    (hfi : fi.strings = (.ok f.1, .ok f.2)) : Reading (fi :: fis) (f :: wanted) p where
  right hp := by rw [List.map_cons, List.map_cons, hfi, h.right hp]
  le := Nat.succ_le_succ h.le
  lt hnot := Nat.succ_lt_succ (h.lt hnot)

/-- A record too many. -/
theorem extra (h : Reading fis wanted p) (fi : FileInfo) (hp : ¬ p') :
    Reading (fi :: fis) wanted p' where
  right hp' := absurd hp' hp
  le := Nat.le_succ_of_le h.le
  lt _ := Nat.lt_succ_of_le h.le

/-- The records are those wanted exactly if there is none too many. -/
theorem collects_iff (h : Reading fis wanted p) : Collects fis wanted ↔ p := by
  constructor
  · intro hperm
    by_contra hnot
    have hlt := h.lt hnot
    have hlen := hperm.length_eq
    rw [List.length_map, List.length_map] at hlen
    omega
  · intro hp
    rw [Collects, h.right hp]

end Reading

theorem wantedFiles_file (szFilePath name : Name) (rest : Listing Name) :
    wantedFiles szFilePath (.file name rest) =
      (wantedFile (szFilePath, name)).toList ++ wantedFiles szFilePath rest := by
  rw [wantedFiles, visibleFiles, Listing.files_file, List.filterMap_cons]
  cases wantedFile (szFilePath, name) <;> rfl

theorem wantedFiles_folder (szFilePath name : Name) (sub rest : Listing Name) :
    wantedFiles szFilePath (.folder name sub rest) =
      (if Visible name then wantedFiles (join szFilePath name) sub else []) ++
        wantedFiles szFilePath rest := by
  rw [wantedFiles, visibleFiles, Listing.files_folder, List.filterMap_append]
  cases Visible name <;> rfl

section File

variable {stack : Name → FileInfo} {szFilePath name : Name} {rest : Listing Name}

/-- A file with a dot sets the record anew, so that nothing is stale behind it. -/
theorem readEntries_release_dotted (hfits : FitsFields (szFilePath, name))
    (hrest : ∀ fi, ∃ fis, readEntries .release stack szFilePath rest fi = .ok fis ∧
      Reading fis (wantedFiles szFilePath rest) (NoStale stack szFilePath rest (readsJson fi)))
    {front back : List UInt8} (hsplit : splitLast dot name.val = some (front, back))
    (fi : FileInfo) :
    ∃ fis, readEntries .release stack szFilePath (.file name rest) fi = .ok fis ∧
      Reading fis (wantedFiles szFilePath (.file name rest))
        (NoStale stack szFilePath rest (back == tableFileExName)) := by
  obtain ⟨hfront, hback⟩ := hfits.2 front back hsplit
  obtain ⟨fi', hextract, hchars, hjson⟩ := extractFileInfo_dotted .release hsplit hfront hback fi
  rw [wantedFiles_file, wantedFile, hsplit]
  by_cases hext : back = tableFileExName
  · have hreads : readsJson fi' = true := by rw [hjson, hext, beq_self_eq_true]
    obtain ⟨fi'', hjson'', hname'', hpath, heq⟩ :=
      readEntries_file stack rest hfits hextract hreads
    obtain ⟨behind, hbehind, hreading⟩ := hrest fi''
    refine ⟨fi'' :: behind, by rw [heq, hbehind, ok_bind], ?_⟩
    simp only [hext, if_pos, Option.toList_some, beq_self_eq_true]
    rw [hjson''] at hreading
    refine hreading.cons ?_
    rw [FileInfo.strings, hpath, hname'', hchars]
  · have hreads : readsJson fi' = false := by rw [hjson, beq_eq_false_iff_ne.mpr hext]
    obtain ⟨behind, hbehind, hreading⟩ := hrest fi'
    refine ⟨behind, by rw [readEntries_skip hextract hreads, hbehind], ?_⟩
    simp only [if_neg hext, Option.toList_none, List.nil_append]
    rwa [hjson] at hreading

/-- A file without a dot leaves the record, and is collected if that reads `json`. -/
theorem readEntries_release_undotted (hfits : FitsFields (szFilePath, name))
    (hrest : ∀ fi, ∃ fis, readEntries .release stack szFilePath rest fi = .ok fis ∧
      Reading fis (wantedFiles szFilePath rest) (NoStale stack szFilePath rest (readsJson fi)))
    (hsplit : splitLast dot name.val = none) (fi : FileInfo) :
    ∃ fis, readEntries .release stack szFilePath (.file name rest) fi = .ok fis ∧
      Reading fis (wantedFiles szFilePath (.file name rest))
        (readsJson fi = false ∧ NoStale stack szFilePath rest false) := by
  have hextract := extractFileInfo_release hsplit fi
  rw [wantedFiles_file, wantedFile, hsplit]
  simp only [Option.toList_none, List.nil_append]
  cases hreads : readsJson fi with
  | true =>
    obtain ⟨fi'', -, -, -, heq⟩ := readEntries_file stack rest hfits hextract hreads
    obtain ⟨behind, hbehind, hreading⟩ := hrest fi''
    exact ⟨fi'' :: behind, by rw [heq, hbehind, ok_bind], hreading.extra fi'' (by simp)⟩
  | false =>
    obtain ⟨behind, hbehind, hreading⟩ := hrest fi
    refine ⟨behind, by rw [readEntries_skip hextract hreads, hbehind], ?_⟩
    rw [hreads] at hreading
    rwa [and_iff_right rfl]

end File

/-- In a release build the function returns. It reads what is wanted exactly if nothing is stale. -/
theorem readEntries_release (stack : Name → FileInfo) {szFilePath : Name} {listing : Listing Name}
    (hfits : ∀ f ∈ visibleFiles szFilePath listing, FitsFields f) (fi : FileInfo) :
    ∃ fis, readEntries .release stack szFilePath listing fi = .ok fis ∧
      Reading fis (wantedFiles szFilePath listing)
        (NoStale stack szFilePath listing (readsJson fi)) := by
  induction listing generalizing szFilePath fi with
  | nil => exact ⟨[], rfl, fun _ => rfl, le_rfl, fun hnot => absurd trivial hnot⟩
  | folder name sub rest ihsub ihrest =>
    obtain ⟨hsub, hrest⟩ := Listing.forall_files_folder.mp hfits
    obtain ⟨behind, hbehind, hreading⟩ := ihrest hrest fi
    rw [wantedFiles_folder, NoStale]
    by_cases hvisible : Visible name = true
    · obtain ⟨below, hbelow, hreading'⟩ := ihsub (hsub hvisible) (stack (join szFilePath name))
      refine ⟨below ++ behind, ?_, ?_⟩
      · rw [readEntries_visible _ _ _ _ _ _ hvisible, readFiles, hbelow, ok_bind, hbehind, ok_bind]
      · rw [if_pos hvisible, forall_prop_of_true hvisible]
        exact hreading'.append hreading
    · refine ⟨behind, by rw [readEntries_hidden _ _ _ _ _ _ hvisible, hbehind], ?_⟩
      rw [if_neg hvisible, List.nil_append, and_iff_right fun hv => absurd hv hvisible]
      exact hreading
  | file name rest ih =>
    rw [visibleFiles, Listing.files_file, List.forall_mem_cons] at hfits
    obtain ⟨hname, hrest⟩ := hfits
    rw [NoStale]
    cases hsplit : splitLast dot name.val with
    | some parts => exact readEntries_release_dotted hname (fun fi => ih hrest fi) hsplit fi
    | none => exact readEntries_release_undotted hname (fun fi => ih hrest fi) hsplit fi

/-! ### A debug build -/

/-- Every file that is met has a dot in its name. -/
def AllDotted (szFilePath : Name) (listing : Listing Name) : Prop :=
  ∀ f ∈ visibleFiles szFilePath listing, dot ∈ f.2.val

/-- A debug build completes exactly if every file that it meets has a dot in its name. -/
theorem readEntries_debug (stack : Name → FileInfo) {szFilePath : Name} {listing : Listing Name}
    (hfits : ∀ f ∈ visibleFiles szFilePath listing, FitsFields f) (fi : FileInfo) :
    (∃ fis, readEntries .debug stack szFilePath listing fi = .ok fis) ↔
      AllDotted szFilePath listing := by
  induction listing generalizing szFilePath fi with
  | nil => exact iff_of_true ⟨[], rfl⟩ fun f hf => by cases hf
  | folder name sub rest ihsub ihrest =>
    obtain ⟨hsub, hrest⟩ := Listing.forall_files_folder.mp hfits
    rw [AllDotted, visibleFiles, Listing.forall_files_folder]
    have hbehind := ihrest hrest fi
    by_cases hvisible : Visible name = true
    · have hbelow := ihsub (hsub hvisible) (stack (join szFilePath name))
      rw [readEntries_visible _ _ _ _ _ _ hvisible, readFiles, forall_prop_of_true hvisible,
        returns_bind₂_iff]
      exact and_congr hbelow hbehind
    · rw [readEntries_hidden _ _ _ _ _ _ hvisible, and_iff_right fun hv => absurd hv hvisible]
      exact hbehind
  | file name rest ih =>
    rw [visibleFiles, Listing.files_file, List.forall_mem_cons] at hfits
    obtain ⟨hname, hrest⟩ := hfits
    rw [AllDotted, visibleFiles, Listing.files_file, List.forall_mem_cons]
    cases hsplit : splitLast dot name.val with
    | some parts =>
      obtain ⟨front, back⟩ := parts
      obtain ⟨hfront, hback⟩ := hname.2 front back hsplit
      obtain ⟨fi', hextract, -, -⟩ := extractFileInfo_dotted .debug hsplit hfront hback fi
      have hdot : dot ∈ name.val := by
        rw [(splitLast_eq_some_iff.mp hsplit).1]
        simp
      rw [and_iff_right hdot]
      cases hreads : readsJson fi' with
      | true =>
        obtain ⟨fi'', -, -, -, heq⟩ :=
          readEntries_file stack rest hname hextract hreads
        rw [heq, returns_bind_iff]
        exact ih hrest fi''
      | false =>
        rw [readEntries_skip hextract hreads]
        exact ih hrest fi'
    | none =>
      refine iff_of_false ?_ fun h => splitLast_eq_none_iff.mp hsplit h.1
      rintro ⟨fis, h⟩
      rw [readEntries, extractFileInfo_debug hsplit, error_bind] at h
      cases h

/-- Where every file has a dot nothing is stale, whatever the record read before. -/
theorem noStale_of_dotted (stack : Name → FileInfo) {szFilePath : Name} {listing : Listing Name}
    (h : AllDotted szFilePath listing) (json : Bool) : NoStale stack szFilePath listing json := by
  induction listing generalizing szFilePath json with
  | nil => trivial
  | folder name sub rest ihsub ihrest =>
    obtain ⟨hsub, hrest⟩ := Listing.forall_files_folder.mp h
    exact ⟨fun hvisible => ihsub (hsub hvisible) _, ihrest hrest json⟩
  | file name rest ih =>
    rw [AllDotted, visibleFiles, Listing.files_file, List.forall_mem_cons] at h
    rw [NoStale]
    cases hsplit : splitLast dot name.val with
    | some parts => exact ih h.2 _
    | none => exact absurd h.1 (splitLast_eq_none_iff.mp hsplit)

/-- What a release build collects is what is wanted, and a debug build completes, exactly if every
file has a dot. In a release build it is enough that none without a dot is met while the record
reads `json`. -/
theorem readFiles_iff {szFilePath : Name} {listing : Listing Name}
    (hfits : ∀ f ∈ visibleFiles szFilePath listing, FitsFields f) (stack : Name → FileInfo) :
    (((∃ fis, readFiles .release stack szFilePath listing = .ok fis ∧
        Collects fis (wantedFiles szFilePath listing)) ∧
      ∃ fis, readFiles .debug stack szFilePath listing = .ok fis) ↔
        AllDotted szFilePath listing) ∧
    ((∃ fis, readFiles .release stack szFilePath listing = .ok fis ∧
        Collects fis (wantedFiles szFilePath listing)) ↔
      NoStale stack szFilePath listing (readsJson (stack szFilePath))) := by
  obtain ⟨fis, hfis, hreading⟩ := readEntries_release stack hfits (stack szFilePath)
  have hrelease : (∃ fis, readFiles .release stack szFilePath listing = .ok fis ∧
      Collects fis (wantedFiles szFilePath listing)) ↔
        NoStale stack szFilePath listing (readsJson (stack szFilePath)) := by
    rw [← hreading.collects_iff]
    constructor
    · rintro ⟨fis', hfis', hcollects⟩
      obtain rfl := Except.ok.inj (hfis.symm.trans hfis')
      exact hcollects
    · exact fun hcollects => ⟨fis, hfis, hcollects⟩
  have hdebug := readEntries_debug stack hfits (stack szFilePath)
  refine ⟨⟨fun h => hdebug.mp h.2, fun h => ⟨hrelease.mpr ?_, hdebug.mpr h⟩⟩, hrelease⟩
  exact noStale_of_dotted stack h _

/-- `.`, the directory that `LoadTables` reads. -/
def currentFolder : Name := ⟨[46], by decide⟩

/-- `a.json`. -/
def jsonName : Name := ⟨[97, 46, 106, 115, 111, 110], by decide⟩

/-- `README`. -/
def plainName : Name := ⟨[82, 69, 65, 68, 77, 69], by decide⟩

/-- A directory with a json file, and behind it a file without a dot. -/
def plainListing : Listing Name := .file jsonName (.file plainName .nil)

/-- A record of zeros. -/
def zeroFileInfo : FileInfo :=
  ⟨⟨List.replicate 256 0, List.length_replicate⟩, ⟨List.replicate 32 0, List.length_replicate⟩,
    ⟨List.replicate 8 0, List.length_replicate⟩⟩

theorem plainListing_fits : ∀ f ∈ visibleFiles currentFolder plainListing, FitsFields f := by
  have hfiles : visibleFiles currentFolder plainListing =
      [(currentFolder, jsonName), (currentFolder, plainName)] := rfl
  rw [hfiles, List.forall_mem_cons, List.forall_mem_singleton]
  constructor
  · refine ⟨by decide, fun front back h => ?_⟩
    rw [show splitLast dot jsonName.val = some ([97], tableFileExName) from rfl] at h
    cases h
    decide
  · refine ⟨by decide, fun front back h => ?_⟩
    rw [show splitLast dot plainName.val = none from rfl] at h
    cases h

/-- The file without a dot is collected under the name of the json file, or fails the assertion. -/
theorem plain_file_collected :
    (readFiles .release (fun _ => zeroFileInfo) currentFolder plainListing).map
        (fun fis => fis.map FileInfo.strings) =
      .ok [(.ok [46, 92, 97, 46, 106, 115, 111, 110], .ok [97]),
        (.ok [46, 92, 82, 69, 65, 68, 77, 69], .ok [97])] ∧
    wantedFiles currentFolder plainListing = [([46, 92, 97, 46, 106, 115, 111, 110], [97])] ∧
    readFiles .debug (fun _ => zeroFileInfo) currentFolder plainListing = .error .assertFailed ∧
    ¬ ∃ fis, readFiles .release (fun _ => zeroFileInfo) currentFolder plainListing = .ok fis ∧
      Collects fis (wantedFiles currentFolder plainListing) := by
  refine ⟨by decide +kernel, by decide, by decide +kernel, ?_⟩
  rintro ⟨fis, hfis, hcollects⟩
  obtain ⟨fis', hfis', hreading⟩ :=
    readEntries_release (fun _ => zeroFileInfo) plainListing_fits zeroFileInfo
  obtain rfl := Except.ok.inj (hfis'.symm.trans hfis)
  have hstale := hreading.collects_iff.mp hcollects
  cases hstale.1

/-- The conditions and the outcome for this directory. -/
theorem readFiles_iff_plain :
    (((∃ fis, readFiles .release (fun _ => zeroFileInfo) currentFolder plainListing = .ok fis ∧
        Collects fis (wantedFiles currentFolder plainListing)) ∧
      ∃ fis, readFiles .debug (fun _ => zeroFileInfo) currentFolder plainListing = .ok fis) ↔
        AllDotted currentFolder plainListing) ∧
    ((∃ fis, readFiles .release (fun _ => zeroFileInfo) currentFolder plainListing = .ok fis ∧
        Collects fis (wantedFiles currentFolder plainListing)) ↔
      NoStale (fun _ => zeroFileInfo) currentFolder plainListing (readsJson zeroFileInfo)) :=
  readFiles_iff plainListing_fits _

end TerraX
