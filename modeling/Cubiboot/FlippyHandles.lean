import Cubiboot.Lib.Leads
import Cubiboot.Lib.Leases
import Cubiboot.FileSessions
import Cubiboot.RecentList

/-
  The file layer on a FlippyDrive (`flippy_emu.c`, `fldrv.c`), and the operations of the
  menu that go through it, with the handles the drive gives out.

  The drive answers as it likes (`DriveAnswer`, one for each transfer in turn): an open
  takes a free handle or none and returns what it will, a status query fails or tells of
  the latest open, and what is read may be anything. Where an open took no handle, what is
  told for one is no handle's number. Closing always works.

  `book` is which handles are open, those the present operation has opened, and whether it
  has closed one that was open and not its own. The last three fields of `Native` are about
  what the drive has told, and nothing reads them: an open that takes a handle leaves it
  `untold`; the next status query tells it, unless it fails, and then it is `lost`, as it is
  when something else is opened first; `held` is that a handle was open when the drive was
  taken over. The paths' buffers are those of `Navigation` and `Listing`, and are not
  looked at here.

  Correspondence (C ↔ Lean, in `Flippy`):
    `fldrv_open`, `fldrv_open_flash`, `fldrv_status`        ↔ `fldrvOpen` (both), `fldrvStatus`
    `fldrv_close`, `fldrv_init`                             ↔ `fldrvClose`, `fldrvInit`
    `flippy_emu_mount`                                      ↔ `flippyEmuMount`
    `dvd_custom_open`, `dvd_custom_open_flash`              ↔ `dvdCustomOpen`, `dvdCustomOpenFlash`
    `dvd_custom_status`, its `_status`; `dvd_custom_close`  ↔ `dvdCustomStatus`, `Native.status`; `dvdCustomClose`
    `gm_file_exists`, `gm_dir_is_app`, `get_game_info`      ↔ the programs of `FileSessions` and `GameInfo`,
                                                              put to `fileAnswer`
    `gm_load_banner` (up to its close)                      ↔ `gmLoadBanner`
    `gm_read_last_played`, `gm_last_played_folder`          ↔ `gmReadLastPlayed`, `gmLastPlayedFolder`
    `resolve_default_folder`                                ↔ `resolveDefaultFolder`
    `gm_list_files`, its loop                               ↔ `gmListFiles`, `readdirLoop`
    `emu_update_boot`                                       ↔ `emuUpdateBoot`
-/

set_option autoImplicit false

namespace Cubiboot

namespace Flippy

/-! ## The drive -/

/-- 1 to 31 for files, and the flash's own. -/
def IsHandle (fd : UInt8) : Prop := (1 ≤ fd ∧ fd ≤ 31) ∨ fd = 64

instance (fd : UInt8) : Decidable (IsHandle fd) := inferInstanceAs (Decidable (_ ∨ _))

abbrev Handle := { fd : UInt8 // IsHandle fd }

/-- `file_status_t`. -/
structure FileStatusT where
  result : UInt32
  fsize : UInt64
  fd : UInt8
  deriving DecidableEq

/-- What comes of one transfer: `ret` is what `fldrv_xfer` returns; an open takes `takes`
if it is free, else its result is `refusal` and its handle `noHandle`; the rest is what is
read. -/
structure DriveAnswer where
  ret : UInt32
  takes : Option Handle
  refusal : { result : UInt32 // result ≠ 0 }
  noHandle : { fd : UInt8 // ¬ IsHandle fd }
  fsize : UInt64
  entries : List FileEntryT
  content : List UInt8
  byte : UInt8

structure Native where
  book : Leases.Book Handle
  latest : FileStatusT
  asked : Nat
  mounted : Bool
  released : Bool
  status : FileStatusT
  untold : Bool
  lost : Bool
  held : Bool

variable (drive : Nat → DriveAnswer)

def transfer : StateM Native DriveAnswer := fun s => (drive s.asked, { s with asked := s.asked + 1 })

/-! ## `fldrv.c` -/

def fldrvOpen : StateM Native UInt32 := do
  let a ← transfer drive
  modify fun s =>
    match a.takes.filter fun fd => fd ∉ s.book.out with
    | some fd =>
      { s with book := s.book.take fd, latest := ⟨0, a.fsize, fd⟩, lost := s.lost || s.untold, untold := true }
    | none =>
      { s with latest := ⟨a.refusal, a.fsize, a.noHandle⟩, lost := s.lost || s.untold, untold := false }
  pure a.ret

def fldrvStatus : StateM Native UInt32 := do
  let a ← transfer drive
  modify fun s =>
    if a.ret = 0 then { s with status := s.latest, untold := false }
    else { s with lost := s.lost || s.untold, untold := false }
  pure a.ret

/-- The handle is `fd & 0xFF`. -/
def giveFd (b : Leases.Book Handle) (fd : UInt32) : Leases.Book Handle :=
  if h : IsHandle fd.toUInt8 then b.give ⟨fd.toUInt8, h⟩ else b

def fldrvClose (fd : UInt32) : StateM Native Unit := modify fun s => { s with book := giveFd s.book fd }

/-- The handles `fldrv_init` closes, in order. -/
def initHandles : List UInt32 := (List.range' 1 31).map UInt32.ofNat ++ [64]

def closeEach : List UInt32 → StateM Native Unit
  | [] => pure ()
  | fd :: rest => do
    fldrvClose fd
    closeEach rest

/-- The probe finds the drive. -/
def fldrvInit : StateM Native Bool := do
  let s ← get
  if s.released then pure true
  else do
    modify fun s => { s with held := s.held || decide (s.book.out ≠ ∅) }
    closeEach initHandles
    modify fun s => { s with released := true }
    pure true

/-! ## `flippy_emu.c` -/

def dvdCustomStatus : StateM Native FileStatusT := do
  let ret ← fldrvStatus drive
  if ret ≠ 0 then modify fun s => { s with status := ⟨1, 0, 0⟩ }
  let s ← get
  pure s.status

def dvdCustomClose (fd : UInt8) : StateM Native Unit := fldrvClose fd.toUInt32

/-- `dvd_custom_open_flash` once the drive is mounted. -/
def openFlashMounted : StateM Native UInt32 := do
  let ret ← fldrvOpen drive
  if ret = 0 then pure 0 else fldrvOpen drive

/-- `emu_update_boot`, whether it finds Swiss; `openFlash` is its first call. -/
def updateBoot (openFlash : StateM Native UInt32) : StateM Native Bool := do
  let _ ← openFlash
  let status ← dvdCustomStatus drive
  dvdCustomClose status.fd
  pure (status.result = 0)

/-- The inner call of `emu_update_boot` finds it mounted already. -/
def flippyEmuMount : StateM Native Bool := do
  let s ← get
  if s.mounted then pure true
  else do
    let ok ← fldrvInit
    if !ok then pure false
    else do
      modify fun s => { s with mounted := true }
      let _ ← updateBoot drive (openFlashMounted drive)
      pure true

def dvdCustomOpen (_path : Path) (_type : UInt8) : StateM Native UInt32 := do
  let ok ← flippyEmuMount drive
  if !ok then pure 1 else fldrvOpen drive

def dvdCustomOpenFlash (_path : Path) (type : UInt8) : StateM Native UInt32 := do
  if type ≠ fileEntryTypeFile then pure 1
  else do
    let ok ← flippyEmuMount drive
    if !ok then pure 1 else openFlashMounted drive

def emuUpdateBoot : StateM Native Bool :=
  updateBoot drive (dvdCustomOpenFlash drive (cstr "/swiss-gc.dol") fileEntryTypeFile)

/-- The programs that open files, as the drive answers them; what is loaded from memory may
be anything. -/
def fileAnswer : (q : FileReq) → StateM Native (FileAns q)
  | .openFile path => dvdCustomOpen drive path fileEntryTypeFile
  | .status => do
    let status ← dvdCustomStatus drive
    pure ⟨status.result, status.fsize⟩
  | .read _ _ _ _ => do
    let a ← transfer drive
    pure a.ret
  | .close => do
    let s ← get
    dvdCustomClose s.status.fd
  | .clear _ _ => pure ()
  | .load _ _ => do
    let a ← transfer drive
    pure a.byte

/-! ## The operations -/

def gmFileExists (path : Path) : StateM Native Bool := handled (fileAnswer drive) (Cubiboot.gmFileExists path)

/-- `resident`: the banner is loaded already, or in the cache. -/
def gmLoadBanner (src : BannerSource) (resident : Bool) : StateM Native Bool :=
  if resident then pure true else handled (fileAnswer drive) (readBanner src)

def swissRecentPath : Path := cstr "/swiss/settings/recent.ini"

def gmReadLastPlayed (outLen : Nat) : StateM Native (Option Path) := do
  let ret ← dvdCustomOpen drive swissRecentPath fileEntryTypeFile
  if ret ≠ 0 then pure none
  else do
    let status ← dvdCustomStatus drive
    if status.result ≠ 0 then pure none
    else do
      let a ← transfer drive
      dvdCustomClose status.fd
      pure (Cubiboot.gmReadLastPlayed ⟨0, some 0, a.ret.toNat, a.content⟩ outLen)

/-- The open that says whether a folder is there, and its close. -/
def probeFolder (folder : Path) : StateM Native Bool := do
  let ret ← dvdCustomOpen drive folder fileEntryTypeDir
  if ret ≠ 0 then pure false
  else do
    let status ← dvdCustomStatus drive
    dvdCustomClose status.fd
    pure true

/-- The banner beside an app's file is only looked for where the path names one. -/
def gmRecentEntrySlash (path : Path) : StateM Native (Option Path) := do
  let appBanner ← if namesAppDol path then gmFileExists drive (gmAppBannerPath path) else pure false
  pure (gmRecentEntryFolder appBanner path)

def gmLastPlayedFolder (rememberLastGame : Bool) : StateM Native (Option Path) := do
  if !rememberLastGame then pure none
  else do
    let lastPlayed ← gmReadLastPlayed drive maxFileName
    match lastPlayed with
    | none => pure none
    | some path => do
      let folder ← gmRecentEntrySlash drive path
      match folder.map cutFolder with
      | none => pure none
      | some folder => do
        let opens ← probeFolder drive folder
        pure (if opens then some folder else none)

def resolveDefaultFolder (defaultFolder : Path) : StateM Native Path := do
  if defaultFolder = [] then pure [slash]
  else do
    let path := if defaultFolder.head? = some slash then defaultFolder
      else (slash :: defaultFolder).take (maxFileName - 1)
    let opens ← probeFolder drive path
    pure (if opens then path else [slash])

/-- What `gm_list_files` makes of the entries that are delivered, before the empty name if
`ends` and else before an error, where it panics; the number that is listed. -/
def readdirLoop (ends : Bool) : List FileEntryT → Nat → Option Nat
  | [], n => if ends then some n else none
  | ent :: rest, n =>
    if ent.hidden then readdirLoop ends rest n
    else if checkFileHidden ent.name.name then readdirLoop ends rest n
    else if ent.fileType = .unknown then readdirLoop ends rest n
    else if maxPaths ≤ n + 1 then some (n + 1)
    else readdirLoop ends rest (n + 1)

/-- Nothing where it does not return. -/
def gmListFiles (targetDir : Path) : StateM Native (Option Nat) := do
  let res ← dvdCustomOpen drive targetDir fileEntryTypeDir
  if res ≠ 0 then pure none
  else do
    let status ← dvdCustomStatus drive
    if status.result ≠ 0 then pure none
    else do
      let dirFd := status.fd
      let a ← transfer drive
      match readdirLoop (a.ret = 0) a.entries 0 with
      | none => pure none
      | some n => do
        dvdCustomClose dirFd
        pure (some n)

inductive HandleOp where
  | fileExists (path : Path)
  | dirIsApp (dir : Path)
  | gameInfo (bnrOffsets : List BnrOffset) (path : Path)
  | loadBanner (src : BannerSource) (resident : Bool)
  | readLastPlayed (outLen : Nat)
  | lastPlayedFolder (rememberLastGame : Bool)
  | defaultFolder (folder : Path)
  | listFiles (targetDir : Path)
  | updateBoot

/-- The operation, and whether it returns. -/
def perform : HandleOp → StateM Native Bool
  | .fileExists path => do
    let _ ← gmFileExists drive path
    pure true
  | .dirIsApp dir => do
    let _ ← handled (fileAnswer drive) (gmDirIsApp dir)
    pure true
  | .gameInfo bnrOffsets path => do
    let _ ← handled (fileAnswer drive) (getGameInfo bnrOffsets path)
    pure true
  | .loadBanner src resident => do
    let _ ← gmLoadBanner drive src resident
    pure true
  | .readLastPlayed outLen => do
    let _ ← gmReadLastPlayed drive outLen
    pure true
  | .lastPlayedFolder rememberLastGame => do
    let _ ← gmLastPlayedFolder drive rememberLastGame
    pure true
  | .defaultFolder folder => do
    let _ ← resolveDefaultFolder drive folder
    pure true
  | .listFiles targetDir => do
    let listed ← gmListFiles drive targetDir
    pure listed.isSome
  | .updateBoot => do
    let _ ← emuUpdateBoot drive
    pure true

/-- The state an operation begins in: it has no handle yet, and nothing has been told. -/
def Native.begin (s : Native) : Native :=
  { s with book := .start s.book.out, untold := false, lost := false, held := false }

/-- One operation after another; after one that does not return there is nothing. -/
def handleStep : Option Native → HandleOp → Option Native
  | none, _ => none
  | some s, op =>
    let (returned, s) := perform drive op s.begin
    if returned then some s else none

end Flippy

end Cubiboot
