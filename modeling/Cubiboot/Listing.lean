import Cubiboot.Navigation

/-
  Listing a folder: `gm_list_files`, from the entries the directory holds to the list of
  paths the scan works through.

  An entry is passed over if it is hidden, by its attribute or by its name, or if its name
  says nothing of its kind. The others go into the list until it has 1920 of them. A path is
  put together in a buffer of 128 bytes and copied into a field of 128 bytes; neither copy is
  checked: `inBuffer` says whether a copy ends inside what it is written to, and the listing
  is nothing where one does not.

  What is proved:
    1. `listLoop_eq`, `listLoop_none` — what the loop makes of the entries, by their lengths.
    2. `gmListFiles_listing` — a listing that is made is the one the scan starts from.
    3. `list_files_iff` — the listing is the first 1920 entries of the folder that are to be
       listed exactly when the path of each of those is shorter than 128 bytes.
    4. `long_name_overruns` — a name of 127 characters in the root is already too long.

  Correspondence (C ↔ Lean):
    `file_entry_t`, `FILINFO`      ↔ `FileEntryT`, `Filinfo`
    `dvd_custom_readdir`           ↔ `dvdCustomReaddir`, `Directory.entries`
    `gm_get_file_type`             ↔ `gmGetFileType`
    `check_file_hidden`            ↔ `checkFileHidden`
    `gm_list_files`                ↔ `gmListFiles` (`listStore`, one entry; `listLoop`, its loop)
-/

set_option autoImplicit false

namespace Cubiboot

/-! ## What a directory holds -/

/-- A name as `file_entry_t` and `FILINFO` carry it. -/
structure FileName extends DirName where
  noNul : (0 : UInt8) ∉ name
  short : name.length < maxFileName

def fileEntryTypeFile : UInt8 := 0
def fileEntryTypeDir : UInt8 := 1
def fileAttribFlagHidden : UInt8 := 0x02

/-- FatFs' bit for a directory. -/
def amDir : UInt8 := 0x10

structure FileEntryT where
  name : FileName
  type : UInt8
  attrib : UInt8

structure Filinfo where
  fname : FileName
  fattrib : UInt8

/-- The FatFs half of the call, on an entry it finds. -/
def dvdCustomReaddir (fno : Filinfo) : FileEntryT where
  name := fno.fname
  type := if fno.fattrib &&& amDir ≠ 0 then fileEntryTypeDir else fileEntryTypeFile
  attrib := fno.fattrib

/-- An open directory: of the drive, which answers with entries as they are, or of a card. -/
inductive Directory where
  | native (entries : List FileEntryT)
  | card (files : List Filinfo)

/-- What the calls deliver one after the other, before the empty name. -/
def Directory.entries : Directory → List FileEntryT
  | .native entries => entries
  | .card files => files.map dvdCustomReaddir

/-! ## What is listed -/

def validGameExts : List Path := [cstr ".gcm", cstr ".iso", cstr ".fdi"]
def validProgExts : List Path := [cstr ".dol", cstr ".dol+cli"]

/-- `strrchr`: the string from the last `c` on. -/
def strrchr (s : Path) (c : UInt8) : Option Path :=
  if c ∈ s then some (c :: (s.reverse.takeWhile (· ≠ c)).reverse) else none

def gmGetFileType (path : Path) : FileType :=
  match strrchr path dot with
  | none => .unknown
  | some ext =>
    if validGameExts.any (strcasecmpEq ext) then .game
    else if validProgExts.any (strcasecmpEq ext) then .program
    else .unknown

def hiddenFileNames : List Path :=
  [cstr "$RECYCLE.BIN", cstr "System Volume Information", cstr "Recovery", cstr "swiss", cstr "MCBACKUP"]

def tilde : UInt8 := 126

def checkFileHidden (name : Path) : Bool :=
  if name.head? = some dot then true
  else if name.head? = some tilde then true
  else if name.getLast? = some tilde then true
  else hiddenFileNames.any (strcasecmpEq name)

def FileEntryT.hidden (ent : FileEntryT) : Bool := ent.attrib &&& fileAttribFlagHidden ≠ 0

def FileEntryT.fileType (ent : FileEntryT) : FileType :=
  if ent.type = fileEntryTypeDir then .directory else gmGetFileType ent.name.name

/-! ## The listing -/

/-- The entries of `__gm_early_path_list` and of `__gm_sorted_path_list`. -/
def pathListLen : Nat := 2000

/-- `paths` is `__gm_early_path_list` up to `path_entry_count`; `sorted` says which of them
each entry of `__gm_sorted_path_list` points to. -/
structure PathList where
  paths : List PathEntry
  sorted : List Nat
  deriving DecidableEq

/-- The path is put together and stored at `path_entry_count`. -/
def listStore (targetDir : Path) (ent : FileEntryT) (l : PathList) : Option PathList := do
  let fileFullPathBuf ← inBuffer 128 targetDir
  let fileFullPathBuf ← inBuffer 128 (fileFullPathBuf ++ ent.name.name)
  let path ← inBuffer gmPathMax fileFullPathBuf
  if l.paths.length < pathListLen then
    some ⟨l.paths ++ [⟨path, ent.fileType⟩], l.sorted ++ [l.paths.length]⟩
  else none

def listLoop (targetDir : Path) : List FileEntryT → PathList → Option PathList
  | [], l => some l
  | ent :: rest, l =>
    if ent.hidden then listLoop targetDir rest l
    else if checkFileHidden ent.name.name then listLoop targetDir rest l
    else if ent.fileType = .unknown then listLoop targetDir rest l
    else
      match listStore targetDir ent l with
      | none => none
      | some l => if maxPaths ≤ l.paths.length then some l else listLoop targetDir rest l

def gmListFiles (targetDir : Path) (d : Directory) : Option PathList :=
  listLoop targetDir d.entries ⟨[], []⟩

/-! ## What the listing is for -/

/-- A folder's path as `game_enum_path` holds it. -/
structure EnumPath where
  path : Path
  first : path.head? = some slash
  last : path.getLast? = some slash
  short : path.length < enumPathLen

/-- Neither hidden nor of unknown type. -/
def FileEntryT.Listable (ent : FileEntryT) : Prop :=
  ent.hidden = false ∧ checkFileHidden ent.name.name = false ∧ ent.fileType ≠ .unknown

instance (ent : FileEntryT) : Decidable ent.Listable := inferInstanceAs (Decidable (_ ∧ _ ∧ _))

def FileEntryT.pathEntry (targetDir : Path) (ent : FileEntryT) : PathEntry :=
  ⟨targetDir ++ ent.name.name, ent.fileType⟩

/-- Every entry of the folder that is to be listed, in directory order. -/
def Directory.listable (d : Directory) : List FileEntryT := d.entries.filter (·.Listable)

def Directory.listing (d : Directory) (targetDir : Path) : List PathEntry :=
  d.listable.map (·.pathEntry targetDir)

/-- The list with `paths` in it, each pointed to from its own place. -/
def PathList.of (paths : List PathEntry) : PathList := ⟨paths, List.range paths.length⟩

/-! ## The loop -/

variable {targetDir : Path} {ent : FileEntryT} {l : PathList}

theorem inBuffer_of_le {size : Nat} {s : Path} (h : size ≤ s.length) : inBuffer size s = none :=
  inBuffer_eq_none.mpr (Nat.not_lt.mpr h)

/-- What one entry adds where its path fits. -/
theorem listStore_eq (hroom : l.paths.length < pathListLen)
    (hfits : targetDir.length + ent.name.name.length < gmPathMax) :
    listStore targetDir ent l =
      some ⟨l.paths ++ [ent.pathEntry targetDir], l.sorted ++ [l.paths.length]⟩ := by
  have hdir : targetDir.length < 128 := by simp only [gmPathMax] at hfits; omega
  have hpath : (targetDir ++ ent.name.name).length < 128 := by
    rw [List.length_append]; exact hfits
  simp only [listStore, inBuffer_of_lt hdir, inBuffer_of_lt hpath, gmPathMax, hroom, if_true,
    Option.bind_eq_bind, Option.bind_some, FileEntryT.pathEntry]

/-- One of the two copies into the buffer ends outside it. -/
theorem listStore_none (hlong : gmPathMax ≤ targetDir.length + ent.name.name.length) :
    listStore targetDir ent l = none := by
  have hpath : 128 ≤ (targetDir ++ ent.name.name).length := by
    rw [List.length_append]; exact hlong
  by_cases hdir : targetDir.length < 128
  · simp only [listStore, inBuffer_of_lt hdir, inBuffer_of_le hpath, Option.bind_eq_bind,
      Option.bind_some, Option.bind_none]
  · simp only [listStore, inBuffer_of_le (Nat.not_lt.mp hdir), Option.bind_eq_bind, Option.bind_none]

theorem listLoop_skip (h : ¬ ent.Listable) (rest : List FileEntryT) :
    listLoop targetDir (ent :: rest) l = listLoop targetDir rest l := by
  simp only [FileEntryT.Listable, not_and_or, Bool.not_eq_false, ne_eq, not_not] at h
  rw [listLoop]
  obtain h | h | h := h
  · rw [if_pos h]
  · rw [if_pos h, ite_self]
  · rw [if_pos h, ite_self, ite_self]

theorem listLoop_listable (h : ent.Listable) (rest : List FileEntryT) :
    listLoop targetDir (ent :: rest) l =
      match listStore targetDir ent l with
      | none => none
      | some l => if maxPaths ≤ l.paths.length then some l else listLoop targetDir rest l := by
  obtain ⟨hattr, hname, htype⟩ := h
  rw [listLoop, hattr, hname]
  simp only [Bool.false_eq_true, if_false, htype]

/-- The loop from any point on: as many of the entries that are to be listed as there is
room left for under the cap. -/
theorem listLoop_eq (es : List FileEntryT) (hroom : l.paths.length < maxPaths)
    (hfits : ∀ ent ∈ (es.filter (·.Listable)).take (maxPaths - l.paths.length),
      targetDir.length + ent.name.name.length < gmPathMax) :
    listLoop targetDir es l =
      let more := (es.filter (·.Listable)).take (maxPaths - l.paths.length)
      some ⟨l.paths ++ more.map (·.pathEntry targetDir),
        l.sorted ++ List.range' l.paths.length more.length⟩ := by
  induction es generalizing l with
  | nil => simp only [listLoop, List.filter_nil, List.take_nil, List.map_nil, List.length_nil,
      List.range'_zero, List.append_nil]
  | cons ent rest ih =>
    by_cases h : ent.Listable
    · rw [List.filter_cons_of_pos (by simpa using h)] at hfits ⊢
      obtain ⟨left, hleft⟩ : ∃ left, maxPaths - l.paths.length = left + 1 :=
        ⟨maxPaths - l.paths.length - 1, by omega⟩
      rw [hleft, List.take_succ_cons] at hfits
      simp only [hleft, List.take_succ_cons, List.map_cons, List.length_cons, List.range'_succ]
      have hcap : l.paths.length < pathListLen := lt_trans hroom (by decide)
      rw [listLoop_listable h, listStore_eq hcap (hfits ent (List.mem_cons_self ..))]
      have hlen : (l.paths ++ [ent.pathEntry targetDir]).length = l.paths.length + 1 := List.length_append
      simp only [hlen]
      split
      · -- the cap is reached with this entry
        rename_i hfull
        have hzero : left = 0 := by omega
        rw [hzero, List.take_zero, List.map_nil, List.length_nil, List.range'_zero]
      · rename_i hfull
        have hrest : maxPaths - (l.paths.length + 1) = left := by omega
        rw [ih (by simp only [hlen]; omega) (by
          simp only [hlen, hrest]
          exact fun e he => hfits e (List.mem_cons_of_mem _ he))]
        simp only [hlen, hrest, List.append_assoc, List.singleton_append]
    · rw [List.filter_cons_of_neg (by simpa using h)] at hfits ⊢
      rw [listLoop_skip h]
      exact ih hroom hfits

/-- One path that does not fit, among those the loop comes to, and there is no listing. -/
theorem listLoop_none (es : List FileEntryT)
    (hroom : l.paths.length < maxPaths)
    (hlong : ∃ ent ∈ (es.filter (·.Listable)).take (maxPaths - l.paths.length),
      gmPathMax ≤ targetDir.length + ent.name.name.length) :
    listLoop targetDir es l = none := by
  induction es generalizing l with
  | nil => simp only [List.filter_nil, List.take_nil, List.not_mem_nil, false_and, exists_false] at hlong
  | cons ent rest ih =>
    by_cases h : ent.Listable
    · rw [List.filter_cons_of_pos (by simpa using h)] at hlong
      obtain ⟨left, hleft⟩ : ∃ left, maxPaths - l.paths.length = left + 1 :=
        ⟨maxPaths - l.paths.length - 1, by omega⟩
      rw [hleft, List.take_succ_cons] at hlong
      rw [listLoop_listable h]
      by_cases hthis : gmPathMax ≤ targetDir.length + ent.name.name.length
      · rw [listStore_none hthis]
      · have hcap : l.paths.length < pathListLen := lt_trans hroom (by decide)
        have hlen : (l.paths ++ [ent.pathEntry targetDir]).length = l.paths.length + 1 :=
          List.length_append
        rw [listStore_eq hcap (Nat.not_le.mp hthis)]
        obtain ⟨e, he, hlong⟩ := hlong
        have hmem : e ∈ (rest.filter (·.Listable)).take left :=
          (List.mem_cons.mp he).resolve_left fun heq => hthis (heq ▸ hlong)
        -- a later entry is reached, so the cap is not yet
        have hleft0 : left ≠ 0 := fun h0 => by
          rw [h0, List.take_zero] at hmem
          exact List.not_mem_nil hmem
        simp only [hlen]
        rw [if_neg (by omega)]
        refine ih (by simp only [hlen]; omega) ⟨e, ?_, hlong⟩
        rw [hlen, show maxPaths - (l.paths.length + 1) = left by omega]
        exact hmem
    · rw [List.filter_cons_of_neg (by simpa using h)] at hlong
      rw [listLoop_skip h]
      exact ih hroom hlong

/-! ## The listing of a folder -/

theorem gmListFiles_eq (d : Directory)
    (hfits : ∀ ent ∈ d.listable.take maxPaths, targetDir.length + ent.name.name.length < gmPathMax) :
    gmListFiles targetDir d = some (PathList.of ((d.listing targetDir).take maxPaths)) := by
  have h : gmListFiles targetDir d = _ := listLoop_eq (l := ⟨[], []⟩) d.entries (by decide) hfits
  rw [h]
  simp only [List.nil_append, List.length_nil, Nat.sub_zero, PathList.of, Directory.listing,
    Directory.listable, ← List.map_take, List.length_map, List.range_eq_range']

theorem gmListFiles_none (d : Directory)
    (hlong : ∃ ent ∈ d.listable.take maxPaths, gmPathMax ≤ targetDir.length + ent.name.name.length) :
    gmListFiles targetDir d = none :=
  listLoop_none (l := ⟨[], []⟩) d.entries (by decide) hlong

/-- A listing that is made is cut from the folder's own; the scan starts from it. -/
theorem gmListFiles_listing {d : Directory} (h : gmListFiles targetDir d = some l) :
    l = PathList.of ((d.listing targetDir).take maxPaths) := by
  by_cases hfits : ∀ ent ∈ d.listable.take maxPaths, targetDir.length + ent.name.name.length < gmPathMax
  · rw [gmListFiles_eq d hfits] at h
    exact (Option.some.inj h).symm
  · push Not at hfits
    rw [gmListFiles_none d hfits] at h
    contradiction

/-- The listing holds the first 1920 entries of the folder that are to be listed, each under
the folder's path and its own name and pointed to from its place, exactly when each of these
paths fits in 128 bytes. -/
theorem list_files_iff (folder : EnumPath) (d : Directory) :
    gmListFiles folder.path d = some (PathList.of ((d.listing folder.path).take maxPaths)) ↔
      ∀ ent ∈ d.listable.take maxPaths, folder.path.length + ent.name.name.length < gmPathMax := by
  constructor
  · intro hlisted
    by_contra hlong
    push Not at hlong
    rw [gmListFiles_none d hlong] at hlisted
    contradiction
  · exact gmListFiles_eq d

/-! ## A name too long for its field -/

def rootFolder : EnumPath := ⟨[slash], rfl, rfl, by decide⟩

/-- 123 letters and the ending of a disc image. -/
def longGameName : Path := List.replicate 123 97 ++ cstr ".gcm"

def longGame : Filinfo where
  fname :=
    { name := longGameName
      ne := by decide
      noSlash := by decide +kernel
      noNul := by decide +kernel
      short := by decide +kernel }
  fattrib := 0x20

/-- In the root of a card, a disc image with a name of 127 characters is listed nowhere: its
path is one byte too long. -/
theorem long_name_overruns :
    ¬ ∀ (folder : EnumPath) (d : Directory),
      gmListFiles folder.path d = some (PathList.of ((d.listing folder.path).take maxPaths)) := by
  intro hall
  have hcard := hall rootFolder (.card [longGame])
  have hoverrun : gmListFiles rootFolder.path (.card [longGame]) = none := by decide +kernel
  rw [hoverrun] at hcard
  contradiction

end Cubiboot
