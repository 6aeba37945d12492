import Cubiboot.GameInfo

/-
  The file sessions of the two threads (`games.c`): what the scan asks of the
  file layer for each path it listed, and what a banner load asks.

  Correspondence (C ↔ Lean):
    `gm_path_entry_t`                     ↔ `PathEntry`
    `gm_file_exists`, `gm_dir_is_app`     ↔ `gmFileExists`, `gmDirIsApp`
    `gm_app_banner_path`                  ↔ `gmAppBannerPath`
    `gm_load_banner` (up to its close)    ↔ `readBanner`
    `gm_check_files` (its file accesses while `gm_evict_on_scroll`) ↔ `checkFilesSessions`
    `gm_line_load` (the same)             ↔ `lineLoadSessions`
-/

set_option autoImplicit false

namespace Cubiboot

/-- `gm_file_type_t`. -/
inductive FileType where
  | unknown | directory | program | game | app
  deriving DecidableEq, Repr

/-- `gm_path_entry_t`. -/
structure PathEntry where
  path : Path
  type : FileType
  deriving DecidableEq, Repr

def gmPathMax : Nat := 128
def appBannerName : Path := cstr "/opening.bnr"
def appDolName : Path := cstr "/default.dol"

/-- `sizeof(BNR)`. -/
def sizeofBnr : UInt32 := 0x1FA0

def gmFileExists (path : Path) : FileProg Bool := do
  let ret ← dvdCustomOpen path
  if ret ≠ 0 then pure false
  else do
    let status ← dvdCustomStatus
    if status.result ≠ 0 then pure false
    else do
      dvdCustomClose
      pure true

/-- The `.dol` to boot, when `dir` is an app folder. -/
def gmDirIsApp (dir : Path) : FileProg (Option Path) := do
  let probe := dir ++ appBannerName
  if gmPathMax ≤ probe.length then pure none
  else do
    let hasBanner ← gmFileExists probe
    if !hasBanner then pure none
    else do
      let dolOut := dir ++ appDolName
      if gmPathMax ≤ dolOut.length then pure none
      else do
        let hasDol ← gmFileExists dolOut
        pure (if hasDol then some dolOut else none)

def slash : UInt8 := 47

/-- What stands before the last slash; nothing if there is none. -/
def dirPart (path : Path) : Path := ((path.reverse.dropWhile (· ≠ slash)).drop 1).reverse

def gmAppBannerPath (dolPath : Path) : Path := dirPart dolPath ++ appBannerName

/-- Where an entry's banner is. -/
structure BannerSource where
  path : Path
  standaloneBnr : Bool
  dvdBnrOffset : UInt32
  deriving DecidableEq, Repr

/-- The file side of `gm_load_banner`, into the static `banner_buffer`. -/
def readBanner (src : BannerSource) : FileProg Bool := do
  if !src.standaloneBnr && src.dvdBnrOffset == 0 then pure false
  else do
    let bnrPath := if src.standaloneBnr then gmAppBannerPath src.path else src.path
    let _ ← dvdCustomOpen bnrPath
    let status ← dvdCustomStatus
    if status.result ≠ 0 then pure false
    else do
      let readLen ← if src.standaloneBnr then do
          clear .bannerBuffer sizeofBnr
          pure (min status.fsize.toUInt32 sizeofBnr)
        else pure sizeofBnr
      let _ ← dvdThreadedRead .bannerBuffer 0 readLen src.dvdBnrOffset
      dvdCustomClose
      pure true

/-- What the scan finds out about one path. -/
inductive Finding where
  | game (info : GameInfo)
  | app (dol : Path)
  | other
  deriving DecidableEq, Repr

variable (bnrOffsets : List BnrOffset)

def checkFile (e : PathEntry) : FileProg Finding := do
  match e.type with
  | .game => do
    let info ← getGameInfo bnrOffsets e.path
    pure (.game info)
  | .directory => do
    let dol ← gmDirIsApp e.path
    match dol with
    | some dol => pure (.app dol)
    | none => pure .other
  | _ => pure .other

def checkFilesSessions : List PathEntry → FileProg (List Finding)
  | [] => pure []
  | e :: rest => do
    let found ← checkFile bnrOffsets e
    let others ← checkFilesSessions rest
    pure (found :: others)

def lineLoadSessions : List BannerSource → FileProg (List Bool)
  | [] => pure []
  | src :: rest => do
    let loaded ← readBanner src
    let others ← lineLoadSessions rest
    pure (loaded :: others)

end Cubiboot
