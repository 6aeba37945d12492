import Cubiboot.FileLayer

/-
  `get_game_info` (`dolphin_dvd.c`): what an image file is.

  The disc header, the 32-byte probe and the FST area are static. No read's
  return value is looked at, and nothing is cleared before a read.

  Correspondence (C ↔ Lean):
    `tinf_crc32`              ↔ `tinfCrc32`
    `get_banner_offset_fast`  ↔ `getBannerOffsetFast` (`bnr_offsets` is a parameter)
    `strcasecmp` against a literal ↔ `strcasecmpAt`
    `get_banner_offset_slow`  ↔ `getBannerOffsetSlow`, its loop `fstSearch`
    `get_game_info`           ↔ `getGameInfo`
-/

set_option autoImplicit false

namespace Cubiboot

/-- `dolphin_game_into_t`. -/
structure GameInfo where
  valid : Bool
  gameId : List UInt8
  discNum : UInt8
  discVer : UInt8
  bnrType : UInt8
  bnrOffset : UInt32
  dolOffset : UInt32
  fstOffset : UInt32
  fstSize : UInt32
  maxFstSize : UInt32
  deriving DecidableEq, Repr

/-- `(dolphin_game_into_t) { .valid = false }`. -/
def GameInfo.invalid : GameInfo := ⟨false, List.replicate 6 0, 0, 0, 0, 0, 0, 0, 0, 0⟩

def bannerMagic1 : UInt32 := 0x424E5231
def bannerMagic2 : UInt32 := 0x424E5232

/-- `sizeof(DiskHeader)`, and where its fields are. -/
def sizeofDiskHeader : UInt32 := 0x440
def discIdAt : UInt32 := 0x6
def versionAt : UInt32 := 0x7
def dolOffsetAt : UInt32 := 0x420
def fstOffsetAt : UInt32 := 0x424
def fstSizeAt : UInt32 := 0x428
def maxFstSizeAt : UInt32 := 0x42C

def osRoundUp32B (x : UInt32) : UInt32 := (x + 31) &&& ~~~31

def tinfCrc32Tab : List UInt32 :=
  [0x00000000, 0x1DB71064, 0x3B6E20C8, 0x26D930AC, 0x76DC4190, 0x6B6B51F4, 0x4DB26158, 0x5005713C,
    0xEDB88320, 0xF00F9344, 0xD6D6A3E8, 0xCB61B38C, 0x9B64C2B0, 0x86D3D2D4, 0xA00AE278, 0xBDBDF21C]

def tinfCrc32Nibble (crc : UInt32) : UInt32 :=
  tinfCrc32Tab.getD (crc &&& 0x0F).toNat 0 ^^^ (crc >>> 4)

def tinfCrc32 (data : List UInt8) : UInt32 :=
  if data.length = 0 then 0
  else data.foldl (fun crc b => tinfCrc32Nibble (tinfCrc32Nibble (crc ^^^ b.toUInt32))) 0xFFFFFFFF ^^^ 0xFFFFFFFF

/-- A row of `bnr_offsets`. -/
structure BnrOffset where
  hash : UInt32
  offset : UInt32
  deriving DecidableEq, Repr

variable (bnrOffsets : List BnrOffset)

def getBannerOffsetFast : FileProg UInt32 := do
  let dolOffset ← loadU32 .header dolOffsetAt
  if dolOffset = 0 then pure 0 -- Datel discs
  else do
    let header ← loadBytes .header 0 sizeofDiskHeader.toNat
    let hash := tinfCrc32 header
    match bnrOffsets.find? (·.hash == hash) with
    | some row => pure row.offset
    | none => pure 0

/-- `bnr_info_t`. -/
structure BnrInfo where
  offset : UInt32
  length : UInt32
  deriving DecidableEq, Repr

def fstBase : UInt32 := 0x81700000
def fstLimit : UInt32 := 0x81800000

def openingBnr : List UInt8 := cstr "opening.bnr"

/-- `strcasecmp(p, s) == 0`, for `s` given with its terminator. -/
def strcasecmpAt (p : UInt32) : List UInt8 → FileProg Bool
  | [] => pure true
  | c2 :: rest => do
    let c1 ← load .ram p
    if myTolower c1 = myTolower c2 then strcasecmpAt (p + 1) rest else pure false

/-- The loop over the FST: `left` entries to look at, the first of them `i`. -/
def fstSearch (stringTable : UInt32) : Nat → UInt32 → FileProg BnrInfo
  | 0, _ => pure ⟨0, 0⟩
  | left + 1, i => do
    let entry := fstBase + 12 * i
    let o0 ← load .ram (entry + 1)
    let o1 ← load .ram (entry + 2)
    let o2 ← load .ram (entry + 3)
    let string := stringTable + be32 0 o0 o1 o2
    let filetype ← load .ram entry
    if filetype &&& 0x80 = 0 then do
      let found ← strcasecmpAt string (openingBnr ++ [0])
      if found then do
        let addr ← loadU32 .ram (entry + 4)
        let len ← loadU32 .ram (entry + 8)
        pure ⟨addr, len⟩
      else fstSearch stringTable left (i + 1)
    else fstSearch stringTable left (i + 1)

def getBannerOffsetSlow : FileProg BnrInfo := do
  let fstSize ← loadU32 .header fstSizeAt
  let offset ← loadU32 .header fstOffsetAt
  let _ ← dvdThreadedRead .ram fstBase (osRoundUp32B fstSize) offset
  let totalEntries ← loadU32 .ram (fstBase + 8)
  let stringTable := fstBase + 12 * totalEntries
  if stringTable < fstBase ∨ fstLimit < stringTable then pure ⟨0, 0⟩
  else fstSearch stringTable (totalEntries.toNat - 1) 1

/-- The `info` filled in once the magic at `bnrOffset` is right. -/
def gameInfoAt (magic bnrOffset : UInt32) : FileProg GameInfo := do
  let gameId ← loadBytes .header 0 6
  let discNum ← load .header discIdAt
  let discVer ← load .header versionAt
  let dolOffset ← loadU32 .header dolOffsetAt
  let fstOffset ← loadU32 .header fstOffsetAt
  let fstSize ← loadU32 .header fstSizeAt
  let maxFstSize ← loadU32 .header maxFstSizeAt
  let bnrType := if magic = bannerMagic2 then 1 else 0
  pure ⟨true, gameId, discNum, discVer, bnrType, bnrOffset, dolOffset, fstOffset, fstSize, maxFstSize⟩

/-- The 32-byte read at `bnrOffset` and the look at its magic. -/
def probeBanner (bnrOffset : UInt32) : FileProg (Option GameInfo) := do
  let _ ← dvdThreadedRead .smallBuf 0 32 bnrOffset
  let magic ← loadU32 .smallBuf 0
  if magic = bannerMagic1 ∨ magic = bannerMagic2 then do
    let info ← gameInfoAt magic bnrOffset
    dvdCustomClose
    pure (some info)
  else pure none

/-- The rest of `get_game_info` when the fast table does not answer. -/
def getGameInfoSlow : FileProg GameInfo := do
  let fstSize ← loadU32 .header fstSizeAt
  if 0x100000 < fstSize then do
    dvdCustomClose
    pure .invalid
  else do
    let bnrInfo ← getBannerOffsetSlow
    let hit ← if bnrInfo.offset ≠ 0 then probeBanner bnrInfo.offset else pure none
    match hit with
    | some info => pure info
    | none => do
      dvdCustomClose
      pure .invalid

/-- `get_game_info` once the file is open and has a status. -/
def getGameInfoOpened : FileProg GameInfo := do
  let _ ← dvdThreadedRead .header 0 sizeofDiskHeader 0
  let fastBnrOffset ← getBannerOffsetFast bnrOffsets
  let hit ← if fastBnrOffset ≠ 0 then probeBanner fastBnrOffset else pure none
  match hit with
  | some info => pure info
  | none => getGameInfoSlow

def getGameInfo (gamePath : Path) : FileProg GameInfo := do
  let ret ← dvdCustomOpen gamePath
  if ret ≠ 0 then pure .invalid
  else do
    let status ← dvdCustomStatus
    if status.result ≠ 0 then do
      dvdCustomClose
      pure .invalid
    else getGameInfoOpened bnrOffsets

/-! ## A valid game has its banner's offset -/

/-- A valid result names where the banner is. -/
def GameInfo.Placed (info : GameInfo) : Prop := info.valid = true → info.bnrOffset ≠ 0

theorem invalid_placed : GameInfo.invalid.Placed := by
  intro h
  cases h

theorem probeBanner_placed {bnrOffset : UInt32} (h : bnrOffset ≠ 0) :
    (probeBanner bnrOffset).Ensures fun hit => ∀ info, hit = some info → info.Placed := by
  apply Dialogue.ensures_bind
  intro _
  apply Dialogue.ensures_bind
  intro magic
  split
  · have hinfo : (gameInfoAt magic bnrOffset).Ensures GameInfo.Placed := by
      simp only [gameInfoAt]
      repeat
        apply Dialogue.ensures_bind
        intro _
      exact fun _ => h
    refine hinfo.bind fun info hi => Dialogue.ensures_bind _ fun _ => ?_
    rintro _ ⟨⟩
    exact hi
  · rintro _ ⟨⟩

theorem getGameInfoSlow_placed : getGameInfoSlow.Ensures GameInfo.Placed := by
  have hmiss : (do dvdCustomClose; pure .invalid : FileProg GameInfo).Ensures GameInfo.Placed :=
    Dialogue.ensures_bind _ fun _ => invalid_placed
  apply Dialogue.ensures_bind
  intro fstSize
  split
  · exact hmiss
  · apply Dialogue.ensures_bind
    intro bnrInfo
    split
    · rename_i hne
      refine (probeBanner_placed hne).bind fun hit hi => ?_
      cases hit with
      | some info => exact hi info rfl
      | none => exact hmiss
    · exact hmiss

/-- Whatever the card answers, a game that is found valid has a banner offset. -/
theorem getGameInfo_valid_offset (gamePath : Path) :
    (getGameInfo bnrOffsets gamePath).Ensures GameInfo.Placed := by
  apply Dialogue.ensures_bind
  intro ret
  split
  · exact invalid_placed
  · apply Dialogue.ensures_bind
    intro status
    split
    · exact Dialogue.ensures_bind _ fun _ => invalid_placed
    · apply Dialogue.ensures_bind
      intro _
      apply Dialogue.ensures_bind
      intro fast
      split
      · rename_i hne
        refine (probeBanner_placed hne).bind fun hit hi => ?_
        cases hit with
        | some info => exact hi info rfl
        | none => exact getGameInfoSlow_placed
      · exact getGameInfoSlow_placed

end Cubiboot
