import Cubiboot.Lib.Slots
import Cubiboot.FileSessions

/-
  List entries, their titles and their banners (`games.c`).

  An entry owns a buffer of the banner pool while its banner is `loaded`. The
  ARAM side of the banner (`aram_offset`, the ARQ request) is written and never
  read, and is left out; so are the icons, which no path here loads.

  Correspondence (C ↔ Lean):
    `gm_file_entry_t`, `gm_extra_t`, `gm_banner_t` ↔ `FileEntry`, `Extra`, `Banner`
    `BNR`, `BNRDesc`                               ↔ `Bnr`, `BnrDesc`
    `gm_banner_pool`, `gm_get_banner_buf`, `gm_count_banner_buf`
                                                   ↔ `BannerPool`, `Slots.takeFirst`, `Slots.usedCount`
    `gm_set_title_from_path`                       ↔ `gmSetTitleFromPath`
    `gm_load_banner`                               ↔ `gmLoadBanner` (its file side is `readBanner`)
    `gm_banner_free`                               ↔ `gmBannerFree`
-/

set_option autoImplicit false

namespace Cubiboot

/-- `gm_load_state_t`. -/
inductive LoadState where
  | none | setup | unloaded | unloading | loading | loaded
  deriving DecidableEq, Repr

/-- `BNRDesc`: the bytes of its fields, 32, 32, 64, 64 and 128 of them. -/
structure BnrDesc where
  gameName : List UInt8
  company : List UInt8
  fullGameName : List UInt8
  fullCompany : List UInt8
  description : List UInt8
  deriving DecidableEq, Repr

/-- A banner file, as far as an entry takes it over: `desc` is `desc[0]`. -/
structure Bnr where
  magic : List UInt8
  pixelData : List UInt8
  desc : BnrDesc
  deriving DecidableEq, Repr

structure Extra where
  gameId : List UInt8
  discNum : UInt8
  discVer : UInt8
  standaloneBnr : Bool
  dvdBnrType : UInt8
  dvdBnrOffset : UInt32
  dvdDolOffset : UInt32
  dvdFstOffset : UInt32
  dvdFstSize : UInt32
  dvdMaxFstSize : UInt32
  deriving DecidableEq, Repr

/-- `buf` is the index of a pool buffer. -/
structure Banner where
  scheduleFree : Bool
  state : LoadState
  buf : Option Nat
  deriving DecidableEq, Repr

/-- `addr` is where the heap put the entry; `second` is the index of the entry's
other disc. -/
structure FileEntry where
  addr : UInt32
  path : Path
  desc : BnrDesc
  extra : Extra
  useBanner : Bool
  banner : Banner
  type : FileType
  second : Option Nat
  deriving DecidableEq, Repr

/-- An entry fresh from `memset`. -/
def FileEntry.zeroed (addr : UInt32) (path : Path) (type : FileType) : FileEntry where
  addr := addr
  path := path
  desc := ⟨List.replicate 32 0, List.replicate 32 0, List.replicate 64 0, List.replicate 64 0,
    List.replicate 128 0⟩
  extra := ⟨List.replicate 6 0, 0, 0, false, 0, 0, 0, 0, 0, 0⟩
  useBanner := false
  banner := ⟨false, .none, none⟩
  type := type
  second := none

/-- Games and apps take a pool buffer. -/
def FileEntry.bearsBanner (e : FileEntry) : Bool := e.type = .game ∨ e.type = .app

/-! ## Titles -/

def bnrFullTextLen : Nat := 64

/-- What stands after the last slash. -/
def baseName (path : Path) : Path := (path.reverse.takeWhile (· ≠ slash)).reverse

def dot : UInt8 := 46

/-- What stands before the last dot; all of it if there is none. -/
def stem (base : Path) : Path :=
  if dot ∈ base then ((base.reverse.dropWhile (· ≠ dot)).drop 1).reverse else base

/-- `xs` copied over the start of a field. -/
def overwrite (field xs : List UInt8) : List UInt8 := xs ++ field.drop xs.length

/-- `strcasecmp(a, b) == 0`. -/
def strcasecmpEq (a b : Path) : Bool := a.map myTolower = b.map myTolower

theorem strcasecmpEq_iff {a b : Path} : strcasecmpEq a b = true ↔ a.map myTolower = b.map myTolower := by
  rw [strcasecmpEq, decide_eq_true_eq]

theorem strcasecmpEq_length {a b : Path} (h : strcasecmpEq a b = true) : a.length = b.length := by
  simpa using congrArg List.length (strcasecmpEq_iff.mp h)

def nkitSuffix : Path := cstr ".nkit"

def gmSetTitleFromPath (e : FileEntry) : FileEntry :=
  let name := (stem (baseName e.path)).take (bnrFullTextLen - 1)
  let title := overwrite e.desc.fullGameName (name ++ [0])
  let cut := name.length - nkitSuffix.length
  let title :=
    if nkitSuffix.length < name.length ∧ strcasecmpEq (name.drop cut) nkitSuffix then title.set cut 0
    else title
  { e with desc := { e.desc with fullGameName := title } }

/-! ## Banners -/

def assetBufferCount : Nat := 128

structure BannerPool where
  used : List Bool
  data : Nat → List UInt8

def BannerPool.fresh : BannerPool := ⟨List.replicate assetBufferCount false, fun _ => []⟩

/-- What `gm_load_banner` gets to see of the banner: the file's bytes, or the
cache's. -/
structure Fetched where
  bnr : Bnr
  cached : Bool
  deriving DecidableEq, Repr

/-- `'2'`. -/
def digitTwo : UInt8 := 50

/-- `dvd_bnr_type`, taken from an app's banner file when that was read. -/
def FileEntry.noteBnrType (e : FileEntry) (f : Fetched) : FileEntry :=
  if !f.cached && e.extra.standaloneBnr then
    let bnrType := if f.bnr.magic.getD 3 0 = digitTwo then 1 else 0
    { e with extra := { e.extra with dvdBnrType := bnrType } }
  else e

/-- The banner put up in pool buffer `k`: an app keeps the banner's own name. -/
def FileEntry.showBanner (e : FileEntry) (k : Nat) (bnr : Bnr) : FileEntry :=
  let e := { e with banner := { e.banner with state := .loaded, buf := some k }, desc := bnr.desc }
  if e.type = .app then e else gmSetTitleFromPath e

def gmLoadBanner (fetched : Option Fetched) (e : FileEntry) (p : BannerPool) :
    Bool × FileEntry × BannerPool :=
  if !e.extra.standaloneBnr && e.extra.dvdBnrOffset == 0 then (false, e, p)
  else if e.banner.state = .loaded then (true, e, p)
  else
    match fetched with
    | none => (false, e, p) -- could not open file
    | some f =>
      let e := e.noteBnrType f
      let e := { e with banner := { e.banner with state := .loading } }
      match Slots.takeFirst p.used with
      | none => (false, e, p) -- could not allocate memory
      | some (k, used) => (true, e.showBanner k f.bnr, ⟨used, Function.update p.data k f.bnr.pixelData⟩)

def gmBannerFree (e : FileEntry) (p : BannerPool) : FileEntry × BannerPool :=
  match e.banner.state with
  | .none | .unloading => (e, p)
  | .loading | .setup => ({ e with banner := { e.banner with scheduleFree := true } }, p)
  | .unloaded | .loaded =>
    let p := match e.banner.buf with
      | some k => { p with used := Slots.release p.used k }
      | none => p
    ({ e with banner := { e.banner with buf := none, state := .unloaded } }, p)

end Cubiboot
