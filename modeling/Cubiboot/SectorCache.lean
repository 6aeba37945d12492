import Mathlib.Logic.Function.Basic
import Cubiboot.Lib.Run

/-
  The sector cache between FatFs and the storage drivers (`sector_cache.c`),
  over the raw device of `diskio.c`.

  A request of a page or more goes straight to the device; a smaller one is
  served page by page from 192 direct-mapped pages of four sectors, filled a
  whole page at a time and written through.

  The device is what sits behind `disk_read_raw` and `disk_write_raw`: it holds
  a sector for every drive and number, a raw write puts its sectors down one
  after another and may stop after any of them, a raw read brings the current
  sectors or fails. How each raw transfer ends is a parameter (`Outcomes`,
  indexed by the count of transfers issued), so every pattern of failures is
  one value of it. Sector contents are only ever moved, never looked at, and
  are a type variable.

  Correspondence (C ↔ Lean):
    `cache_data` / `page_base` / `cache_pdrv` / `cache_magic` / `cache_disabled`
                                              ↔ `SectorCache`
    `cache_reset`, `cache_claim`              ↔ `cacheReset`, `cacheClaim`
    `cache_access` (bulk transfers)           ↔ `cacheBulkRead`, `cacheBulkWrite`
    `cache_access` (the page loop)            ↔ `cachePageRead`, `cachePageWrite`
    `sector_cache_read`, `sector_cache_write` ↔ `sectorCacheRead`, `sectorCacheWrite`
    `disk_initialize`                         ↔ `diskInitialize`
-/

set_option autoImplicit false

namespace Cubiboot

/-- `LBA_t`: `FF_LBA64` is set, so sector numbers are 64 bits and wrap. -/
abbrev LBA := UInt64

inductive DResult where
  | resOk | resError | resWrprt | resNotrdy | resParerr
  deriving DecidableEq, Repr

def pageSectors : Nat := 4
def pageEmpty : LBA := 0xFFFFFFFFFFFFFFFF
def cacheMagicWord : UInt32 := 0x53454331

/-- `DEV_GCLDR`. -/
def devGcldr : UInt8 := 7

def diskIsSd (pdrv : UInt8) : Bool := pdrv == 0 || pdrv == 1 || pdrv == 2
def diskIsGcode (pdrv : UInt8) : Bool := pdrv == devGcldr

variable {Sector : Type}

/-! ## The device -/

/-- What each drive holds, and the number of raw transfers issued so far. -/
structure Device (Sector : Type) where
  content : UInt8 → LBA → Sector
  transfers : Nat

/-- How raw transfers end. `readFails n = some landed`: the `n`th one is a read
that fails with `landed` left in the buffer. `writeStops n = some k`: it is a
write that fails once `k` sectors are down. -/
structure Outcomes (Sector : Type) where
  readFails : Nat → Option (List Sector)
  writeStops : Nat → Option Nat

/-- The `n` sectors from `s` on. -/
def stretch (f : LBA → Sector) (s : LBA) (n : Nat) : List Sector :=
  (List.range n).map fun i => f (s + .ofNat i)

/-- The sectors put down one after another from `s` on. -/
def putSectors (f : LBA → Sector) (s : LBA) : List Sector → LBA → Sector
  | [] => f
  | x :: xs => putSectors (Function.update f s x) (s + 1) xs

def Device.ticked (d : Device Sector) : Device Sector := { d with transfers := d.transfers + 1 }

def Device.wrote (d : Device Sector) (pdrv : UInt8) (s : LBA) (xs : List Sector) : Device Sector :=
  { d.ticked with content := Function.update d.content pdrv (putSectors (d.content pdrv) s xs) }

variable (o : Outcomes Sector)

/-- Result, and the sectors that landed in the buffer. -/
def diskReadRaw (d : Device Sector) (pdrv : UInt8) (s : LBA) (n : Nat) :
    DResult × List Sector × Device Sector :=
  if diskIsSd pdrv || diskIsGcode pdrv then
    match o.readFails d.transfers with
    | none => (.resOk, stretch (d.content pdrv) s n, d.ticked)
    | some landed => (.resError, landed, d.ticked)
  else (.resParerr, [], d.ticked)

def diskWriteRaw (d : Device Sector) (pdrv : UInt8) (s : LBA) (buf : List Sector) :
    DResult × Device Sector :=
  if diskIsSd pdrv || diskIsGcode pdrv then
    match o.writeStops d.transfers with
    | none => (.resOk, d.wrote pdrv s buf)
    | some k => (.resWrprt, d.wrote pdrv s (buf.take k))
  else (.resParerr, d.ticked)

/-! ## The cache -/

structure SectorCache (Sector : Type) where
  cacheData : Nat → Nat → Sector
  pageBase : Nat → LBA
  cachePdrv : UInt8
  cacheMagic : UInt32
  cacheDisabled : Bool

def pageSlot (page : LBA) : Nat := (page % 192).toNat

/-- The page a sector lies in, and its place there. -/
def pageOf (s : LBA) : LBA := s / 4
def pageOffset (s : LBA) : Nat := (s % 4).toNat

/-- The length of the first stretch of one page in a transfer of `n` sectors from `s`. -/
def pageRun (s : LBA) (n : Nat) : Nat := min (pageSectors - pageOffset s) n

def cacheReset (c : SectorCache Sector) (pdrv : UInt8) : SectorCache Sector :=
  { c with pageBase := fun _ => pageEmpty, cachePdrv := pdrv, cacheMagic := cacheMagicWord }

def cacheClaim (c : SectorCache Sector) (pdrv : UInt8) : SectorCache Sector :=
  if c.cacheMagic ≠ cacheMagicWord ∨ pdrv ≠ c.cachePdrv then cacheReset c pdrv else c

def sectorCacheInvalidate (c : SectorCache Sector) : SectorCache Sector := { c with cacheMagic := 0 }

def sectorCacheDisable (c : SectorCache Sector) : SectorCache Sector :=
  { c with cacheDisabled := true, cacheMagic := 0 }

def SectorCache.setBase (c : SectorCache Sector) (slot : Nat) (b : LBA) : SectorCache Sector :=
  { c with pageBase := Function.update c.pageBase slot b }

/-- `xs` copied into the page at `slot` from `offset` on. -/
def SectorCache.copyIn (c : SectorCache Sector) (slot offset : Nat) (xs : List Sector) :
    SectorCache Sector :=
  { c with cacheData := Function.update c.cacheData slot fun i =>
      if offset ≤ i then xs.getD (i - offset) (c.cacheData slot i) else c.cacheData slot i }

/-- `n` sectors of the page at `slot` from `offset` on. -/
def SectorCache.copyOut (c : SectorCache Sector) (slot offset n : Nat) : List Sector :=
  (List.range n).map fun i => c.cacheData slot (offset + i)

def cacheBulkRead (c : SectorCache Sector) (d : Device Sector) (pdrv : UInt8) (s : LBA) (n : Nat) :
    DResult × List Sector × SectorCache Sector × Device Sector :=
  let (res, landed, d) := diskReadRaw o d pdrv s n
  (res, landed, c, d)

/-- The pages covered by `n` sectors from `s` are dropped, sector by sector. -/
def dropCovered (c : SectorCache Sector) (s : LBA) : Nat → SectorCache Sector
  | 0 => c
  | n + 1 =>
    let c := dropCovered c s n
    let page := pageOf (s + .ofNat n)
    if c.pageBase (pageSlot page) = page then c.setBase (pageSlot page) pageEmpty else c

def cacheBulkWrite (c : SectorCache Sector) (d : Device Sector) (pdrv : UInt8) (s : LBA)
    (buf : List Sector) : DResult × SectorCache Sector × Device Sector :=
  let c := dropCovered c s buf.length
  let (res, d) := diskWriteRaw o d pdrv s buf
  (res, c, d)

/-- The page loop for a read; `out` is what the buffer holds already. The fuel
is the number of sectors left, and each round takes at least one. -/
def cachePageRead (pdrv : UInt8) : Nat → SectorCache Sector → Device Sector → LBA → Nat →
    List Sector → DResult × List Sector × SectorCache Sector × Device Sector
  | 0, c, d, _, _, out => (.resOk, out, c, d)
  | fuel + 1, c, d, s, n, out =>
    if n = 0 then (.resOk, out, c, d) else
    let page := pageOf s
    let slot := pageSlot page
    let run := pageRun s n
    if c.pageBase slot = page then
      cachePageRead pdrv fuel c d (s + .ofNat run) (n - run)
        (out ++ c.copyOut slot (pageOffset s) run)
    else
      -- not valid until the read lands
      let c := c.setBase slot pageEmpty
      match diskReadRaw o d pdrv (page * 4) pageSectors with
      | (.resOk, landed, d) =>
        let c := (c.copyIn slot 0 landed).setBase slot page
        cachePageRead pdrv fuel c d (s + .ofNat run) (n - run)
          (out ++ c.copyOut slot (pageOffset s) run)
      | (_, landed, d) =>
        -- serve what was asked for uncached, and leave the slot empty
        let (res, rest, d) := diskReadRaw o d pdrv s n
        (res, out ++ rest, c.copyIn slot 0 landed, d)

/-- The page loop for a write: through to the device, and into the page when it
is held. -/
def cachePageWrite (pdrv : UInt8) : Nat → SectorCache Sector → Device Sector → LBA →
    List Sector → DResult × SectorCache Sector × Device Sector
  | 0, c, d, _, _ => (.resOk, c, d)
  | fuel + 1, c, d, s, buf =>
    if buf.length = 0 then (.resOk, c, d) else
    let page := pageOf s
    let slot := pageSlot page
    let run := pageRun s buf.length
    match diskWriteRaw o d pdrv s (buf.take run) with
    | (.resOk, d) =>
      let c := if c.pageBase slot = page then c.copyIn slot (pageOffset s) (buf.take run) else c
      cachePageWrite pdrv fuel c d (s + .ofNat run) (buf.drop run)
    | (res, d) => (res, c, d)

def cacheAccessRead (c : SectorCache Sector) (d : Device Sector) (pdrv : UInt8) (s : LBA) (n : Nat) :
    DResult × List Sector × SectorCache Sector × Device Sector :=
  if pageSectors ≤ n then cacheBulkRead o c d pdrv s n else cachePageRead o pdrv n c d s n []

def cacheAccessWrite (c : SectorCache Sector) (d : Device Sector) (pdrv : UInt8) (s : LBA)
    (buf : List Sector) : DResult × SectorCache Sector × Device Sector :=
  if pageSectors ≤ buf.length then cacheBulkWrite o c d pdrv s buf
  else cachePageWrite o pdrv buf.length c d s buf

def sectorCacheRead (c : SectorCache Sector) (d : Device Sector) (pdrv : UInt8) (s : LBA) (n : Nat) :
    DResult × List Sector × SectorCache Sector × Device Sector :=
  if n = 0 then (.resOk, [], c, d)
  else if c.cacheDisabled then
    let (res, landed, d) := diskReadRaw o d pdrv s n
    (res, landed, c, d)
  else cacheAccessRead o (cacheClaim c pdrv) d pdrv s n

def sectorCacheWrite (c : SectorCache Sector) (d : Device Sector) (pdrv : UInt8) (s : LBA)
    (buf : List Sector) : DResult × SectorCache Sector × Device Sector :=
  if buf.length = 0 then (.resOk, c, d)
  else if c.cacheDisabled then
    let (res, d) := diskWriteRaw o d pdrv s buf
    (res, c, d)
  else cacheAccessWrite o (cacheClaim c pdrv) d pdrv s buf

/-- `disk_initialize`: what was cached described whatever was behind the drive
before, and now `content` is. -/
def diskInitialize (c : SectorCache Sector) (d : Device Sector) (pdrv : UInt8)
    (content : LBA → Sector) : SectorCache Sector × Device Sector :=
  (sectorCacheInvalidate c, { d with content := Function.update d.content pdrv content })

/-! ## Runs -/

inductive CacheOp (Sector : Type) where
  | read (pdrv : UInt8) (s : LBA) (n : Nat)
  | write (pdrv : UInt8) (s : LBA) (buf : List Sector)
  | invalidate
  | disable
  | reinit (pdrv : UInt8) (content : LBA → Sector)

structure CacheState (Sector : Type) where
  cache : SectorCache Sector
  device : Device Sector

def cacheStep (st : CacheState Sector) : CacheOp Sector → CacheState Sector
  | .read pdrv s n =>
    let (_, _, c, d) := sectorCacheRead o st.cache st.device pdrv s n
    ⟨c, d⟩
  | .write pdrv s buf =>
    let (_, c, d) := sectorCacheWrite o st.cache st.device pdrv s buf
    ⟨c, d⟩
  | .invalidate => { st with cache := sectorCacheInvalidate st.cache }
  | .disable => { st with cache := sectorCacheDisable st.cache }
  | .reinit pdrv content =>
    let (c, d) := diskInitialize st.cache st.device pdrv content
    ⟨c, d⟩

/-- A read from `st`, if it returns `RES_OK`, fills its buffer with the sectors
the device holds at that moment. -/
def ReadTruthful (st : CacheState Sector) (pdrv : UInt8) (s : LBA) (n : Nat) : Prop :=
  (sectorCacheRead o st.cache st.device pdrv s n).1 = .resOk →
    (sectorCacheRead o st.cache st.device pdrv s n).2.1 = stretch (st.device.content pdrv) s n

end Cubiboot
