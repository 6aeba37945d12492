import Mathlib.Data.Set.Function
import Cubiboot.BannerCache
import Cubiboot.Classification
import Cubiboot.Isolation
import Cubiboot.Worker

/-
  Banner loads over the shared buffer and the cache (`gm_load_banner`, `games.c`).

  Every call reads to one static `banner_buffer` and copies from it, and what
  the read returned is not looked at. The card says which opens and reads fail,
  and after how many bytes.

  Transfers to and from the cache are done before a call goes on here; what they
  do when they are late is in `BannerDma`.

  What is proved:
    1. `readBanner_run_open` — what the file side leaves in the buffer: the bytes
       delivered, and behind them zeroes for an app, the last banner for a disc
       image.
    2. `own_only_iff` — over every run of loads, frees, scans and folder changes:
       nothing but its own banner is put in the cache or shown by an entry,
       exactly when no load leaves a foreign byte behind the bytes delivered.
    3. `shown_eq_iff` — what of a banner an entry shows: all it takes over, but
       the bytes under its title.
    4. `hit_eq_read_iff` — after any run, a load from the cache does to an entry
       what reading its file does, exactly when the load that filled the cache
       was delivered that much, but for `dvd_bnr_type` of an app.

  Correspondence (C ↔ Lean):
    `static BNR banner_buffer`                   ↔ `bannerImage`
    `gm_load_banner`                             ↔ `bannerStep` at `load` (its parts are
                                                   `readBanner` and `gmLoadBanner`)
    `gm_banner_free`, `gm_check_files` (one entry), `gm_start_thread` (the list let go)
                                                 ↔ `bannerStep` at `free`, `list`, `leave`
-/

set_option autoImplicit false

namespace Cubiboot

/-! ## The file side of a load -/

def FileEntry.source (e : FileEntry) : BannerSource := ⟨e.path, e.extra.standaloneBnr, e.extra.dvdBnrOffset⟩

/-- The file the banner is in. -/
def BannerSource.file (src : BannerSource) : Path :=
  if src.standaloneBnr then gmAppBannerPath src.path else src.path

/-- Offset 0 means a disc image has none. -/
def BannerSource.missing (src : BannerSource) : Bool := !src.standaloneBnr && src.dvdBnrOffset == 0

def BannerSource.readLen (src : BannerSource) (fsize : UInt64) : UInt32 :=
  if src.standaloneBnr then min fsize.toUInt32 sizeofBnr else sizeofBnr

/-- `banner_buffer` as a banner. -/
def bannerImage (io : FatFs) : BnrImage := fun j => io.mem .bannerBuffer (.ofNat j)

/-- The bytes the read of a banner delivers. -/
def deliveredBytes (card : Card) (io : FatFs) (src : BannerSource) (bytes : List UInt8) : List UInt8 :=
  (card.readFile io.reads bytes (src.readLen (.ofNat bytes.length)) src.dvdBnrOffset).2

/-- What stands in the buffer where nothing is delivered. -/
def staleByte (io : FatFs) (src : BannerSource) (j : Fin bnrSize) : UInt8 :=
  if src.standaloneBnr then 0 else bannerImage io j

/-- The buffer after the read. -/
def readImage (card : Card) (io : FatFs) (src : BannerSource) (bytes : List UInt8) : BnrImage :=
  fun j => (deliveredBytes card io src bytes).getD j (staleByte io src j)

theorem ofNat_toNat_lt {j : Nat} (h : j < bnrSize) : (UInt32.ofNat j).toNat = j := by
  have hlt : j < 4294967296 := by
    simp only [bnrSize] at h
    omega
  exact UInt32.toNat_ofNat_of_lt' hlt

theorem bannerImage_put (io : FatFs) (m : Cells UInt8) (xs : List UInt8) :
    bannerImage { io with mem := m.put .bannerBuffer 0 xs } =
      fun j : Fin bnrSize => xs.getD j (m .bannerBuffer (.ofNat j)) := by
  funext j
  simp [bannerImage, Cells.put, ofNat_toNat_lt j.isLt]

theorem canOpen_files {card : Card} {io : FatFs} {path : Path} {bytes : List UInt8}
    (h : card.canOpen io path = some bytes) : card.files path = some bytes := by
  unfold Card.canOpen at h
  split at h
  · cases h
  · exact h

/-- The run of the file side when the file can be opened. -/
theorem readBanner_run_open (card : Card) (io : FatFs) (src : BannerSource) (hm : src.missing = false)
    {bytes : List UInt8} (ho : card.canOpen io src.file = some bytes) :
    ∃ io', (readBanner src).run (fatAnswer card) io = (true, io') ∧
      bannerImage io' = readImage card io src bytes := by
  have hfiles := canOpen_files ho
  obtain ⟨path, standalone, offset⟩ := src
  unfold BannerSource.missing at hm
  unfold readBanner
  rw [if_neg (by simp [hm])]
  cases standalone with
  | false =>
    simp only [BannerSource.file, Bool.false_eq_true, if_false] at ho hfiles
    simp [dvdCustomOpen, dvdCustomStatus, dvdThreadedRead, dvdCustomClose, fatAnswer, ho, Card.readFil, hfiles]
    rw [bannerImage_put ⟨none, false, .ofNat bytes.length, io.opens + 1, io.reads + 1, io.mem⟩]
    rfl
  | true =>
    simp only [BannerSource.file, if_true] at ho hfiles
    simp [dvdCustomOpen, dvdCustomStatus, dvdThreadedRead, dvdCustomClose, clear, fatAnswer, ho, Card.readFil,
      hfiles]
    rw [bannerImage_put ⟨none, false, .ofNat bytes.length, io.opens + 1, io.reads + 1, io.mem⟩]
    funext j
    have hj : j.val < sizeofBnr.toNat := j.isLt
    have hzero : (io.mem.put .bannerBuffer 0 (List.replicate sizeofBnr.toNat 0)) .bannerBuffer (.ofNat j) = 0 := by
      simp [Cells.put, ofNat_toNat_lt j.isLt, List.getElem?_replicate, hj]
    rw [hzero]
    simp [readImage, deliveredBytes, BannerSource.readLen, staleByte]

/-- The run of the file side when it cannot. -/
theorem readBanner_run_closed (card : Card) (io : FatFs) (src : BannerSource) (hm : src.missing = false)
    (ho : card.canOpen io src.file = none) :
    ∃ io', (readBanner src).run (fatAnswer card) io = (false, io') ∧ io'.mem = io.mem := by
  obtain ⟨path, standalone, offset⟩ := src
  unfold BannerSource.missing at hm
  unfold readBanner
  rw [if_neg (by simp [hm])]
  cases standalone with
  | false =>
    simp only [BannerSource.file, Bool.false_eq_true, if_false] at ho
    simp [dvdCustomOpen, dvdCustomStatus, fatAnswer, ho]
  | true =>
    simp only [BannerSource.file, if_true] at ho
    simp [dvdCustomOpen, dvdCustomStatus, fatAnswer, ho]

/-! ## The system -/

/-- The paths a session lists, and where the banner of each is. Their cache keys
are distinct. -/
structure Shelf where
  paths : Set Path
  banner : Path → BannerSource
  keys : Set.InjOn bnrCacheKey paths

/-- An entry the scan may add: its banner is not there yet. -/
structure Shelf.Lists (sh : Shelf) (e : FileEntry) : Prop where
  path : e.path ∈ sh.paths
  source : e.source = sh.banner e.path
  ok : EntryOk e
  bare : e.banner.state ≠ .loaded

inductive BannerOp (sh : Shelf) where
  | list (e : { e // sh.Lists e })
  | load (i : Nat) (useCache : Bool)
  | free (i : Nat)
  | leave

/-- `puts` are the calls of `bnr_cache_put`, as path and banner, and `shown` the
banners entries were set up from. Neither is seen by the code. -/
structure BannerSys where
  ld : Loader
  io : FatFs
  cache : BnrCache
  aram : Aram
  puts : List (Path × BnrImage)
  shown : List (BannerSource × BnrImage)

/-- After boot, with anything in memory. -/
def BannerSys.start (io : FatFs) (aram : Aram) : BannerSys := ⟨.empty, io, .fresh, aram, [], []⟩

/-- A load of the entry goes on to the banner itself. -/
def FileEntry.asks (e : FileEntry) : Bool :=
  e.bearsBanner && !e.source.missing && decide (e.banner.state ≠ .loaded)

/-- What the cache answers. -/
def BannerSys.lookup (s : BannerSys) (e : FileEntry) (useCache : Bool) : Option BnrImage :=
  if useCache then bnrCacheGet s.cache s.aram (bnrCacheKey e.path) else none

/-- `gm_load_banner` up to the label `cached`: the banner in the buffer, and
whether it came from the cache. -/
def BannerSys.fetch (card : Card) (s : BannerSys) (e : FileEntry) (useCache : Bool) :
    Option (BnrImage × Bool) × BannerSys :=
  match s.lookup e useCache with
  | some b => (some (b, true), { s with io := { s.io with mem := s.io.mem.put .bannerBuffer 0 (List.ofFn b) } })
  | none =>
    let (opened, io) := (readBanner e.source).run (fatAnswer card) s.io
    let s := { s with io := io }
    if !opened then (none, s)
    else
      let b := bannerImage io
      if useCache then
        let (cache, aram) := bnrCachePut s.cache s.aram (bnrCacheKey e.path) b
        (some (b, false), { s with cache := cache, aram := aram, puts := (e.path, b) :: s.puts })
      else (some (b, false), s)

/-- A pool buffer is free. -/
def BannerSys.room (s : BannerSys) : Bool := (Slots.takeFirst s.ld.pool.used).isSome

/-- The banner put up, if there is room for it. -/
def BannerSys.setUp (s : BannerSys) (i : Nat) (e : FileEntry) (got : Option (BnrImage × Bool)) : BannerSys :=
  match got with
  | none => { s with ld := s.ld.loadAt i none }
  | some (b, cached) =>
    { s with
      ld := s.ld.loadAt i (some ⟨b.bnr, cached⟩)
      shown := if s.room then (e.source, b) :: s.shown else s.shown }

def bannerStep (card : Card) (sh : Shelf) (s : BannerSys) : BannerOp sh → BannerSys
  | .list e => { s with ld := s.ld.append e.1 }
  | .load i useCache =>
    match s.ld.entries[i]? with
    | some e =>
      if e.asks then
        let (got, s) := s.fetch card e useCache
        s.setUp i e got
      else s -- no banner, or already resident
    | none => s
  | .free i => { s with ld := s.ld.freeAt i }
  | .leave => { s with ld := .empty }

/-! ## Own banners -/

/-- `x` is byte `j` of the banner: what its file has there, and behind the end of
an app's banner file a zero. -/
def OwnByte (card : Card) (src : BannerSource) (j : Nat) (x : UInt8) : Prop :=
  ∃ bytes, card.files src.file = some bytes ∧
    (bytes[src.dvdBnrOffset.toNat + j]? = some x ∨
      (src.standaloneBnr = true ∧ bytes.length ≤ src.dvdBnrOffset.toNat + j ∧ x = 0))

def OwnImage (card : Card) (src : BannerSource) (b : BnrImage) : Prop := ∀ j : Fin bnrSize, OwnByte card src j (b j)

/-- The bytes an entry takes over, `pixelData` and `desc[0]`. -/
def TakenByte (j : Fin bnrSize) : Prop := 0x20 ≤ j.val ∧ j.val < 0x1960

def OwnTaken (card : Card) (src : BannerSource) (b : BnrImage) : Prop :=
  ∀ j, TakenByte j → OwnByte card src j (b j)

/-- The description an entry shows: an app the banner's own, a game with its
title from the path. -/
def FileEntry.titled (e : FileEntry) (d : BnrDesc) : BnrDesc :=
  if e.type = .app then d else (gmSetTitleFromPath { e with desc := d }).desc

/-- The entry shows the banner `b`. -/
def FileEntry.Shows (e : FileEntry) (p : BannerPool) (b : BnrImage) : Prop :=
  (∃ k, e.banner.buf = some k ∧ p.data k = b.bnr.pixelData) ∧ e.desc = e.titled b.bnr.desc

/-- Nothing but its own banner was put in the cache under a path's key, taken over
by an entry, or is shown by one. -/
structure OwnOnly (card : Card) (sh : Shelf) (s : BannerSys) : Prop where
  cache : ∀ p b, (p, b) ∈ s.puts → OwnImage card (sh.banner p) b
  taken : ∀ src b, (src, b) ∈ s.shown → OwnTaken card src b
  shows : ∀ e ∈ s.ld.entries, e.banner.state = .loaded → ∃ b, OwnTaken card e.source b ∧ e.Shows s.ld.pool b

/-- Byte `j` is delivered, or already stands in the buffer. -/
def Filled (card : Card) (io : FatFs) (src : BannerSource) (bytes : List UInt8) (j : Fin bnrSize) : Prop :=
  j.val < (deliveredBytes card io src bytes).length ∨ OwnByte card src j (staleByte io src j)

/-- A load that reads its banner file gets all the bytes it goes on to use: every
one that goes to the cache, and those an entry with room takes over. -/
def Delivers (card : Card) (sh : Shelf) (s : BannerSys) : BannerOp sh → Prop
  | .load i useCache => ∀ e bytes, s.ld.entries[i]? = some e → e.asks = true → s.lookup e useCache = none →
      card.canOpen s.io e.source.file = some bytes →
      (useCache = true → ∀ j, Filled card s.io e.source bytes j) ∧
      (s.room = true → ∀ j, TakenByte j → Filled card s.io e.source bytes j)
  | _ => True

/-! ## One load -/

theorem titled_congr {e e' : FileEntry} (hp : e'.path = e.path) (ht : e'.type = e.type) (d : BnrDesc) :
    e'.titled d = e.titled d := by
  simp only [FileEntry.titled, gmSetTitleFromPath, hp, ht]

theorem showBanner_desc (e : FileEntry) (k : Nat) (bnr : Bnr) :
    (e.showBanner k bnr).desc = e.titled bnr.desc := by
  unfold FileEntry.showBanner FileEntry.titled
  by_cases ht : e.type = .app
  · simp [ht]
  · simp [ht, gmSetTitleFromPath]

theorem noteBnrType_path (e : FileEntry) (f : Fetched) : (e.noteBnrType f).path = e.path := by
  unfold FileEntry.noteBnrType
  split <;> rfl

theorem asks_iff {e : FileEntry} :
    e.asks = true ↔ e.bearsBanner = true ∧ e.source.missing = false ∧ e.banner.state ≠ .loaded := by
  simp [FileEntry.asks, and_assoc]

/-- An entry that asks and finds a free buffer is given the banner. -/
theorem gmLoadBanner_room {e : FileEntry} (h : e.asks = true) {p : BannerPool} {k : Nat} {used : List Bool}
    (ht : Slots.takeFirst p.used = some (k, used)) (f : Fetched) :
    let r := gmLoadBanner (some f) e p
    r.2.1.banner.state = .loaded ∧ r.2.1.banner.buf = some k ∧ r.2.1.desc = e.titled f.bnr.desc ∧
      r.2.2 = ⟨used, Function.update p.data k f.bnr.pixelData⟩ := by
  obtain ⟨-, hsrc, hnl⟩ := asks_iff.mp h
  obtain ⟨-, htype, -, -⟩ := noteBnrType_same e f
  have hpath := noteBnrType_path e f
  simp only [BannerSource.missing, FileEntry.source] at hsrc
  simp only [gmLoadBanner, hsrc, hnl, ht, if_false, Bool.false_eq_true]
  have hban := (showBanner_same
    { e.noteBnrType f with banner := { (e.noteBnrType f).banner with state := .loading } } k f.bnr).1
  refine ⟨by rw [hban], by rw [hban], ?_, trivial⟩
  rw [showBanner_desc]
  exact titled_congr hpath htype _

/-- One that finds none is not. -/
theorem gmLoadBanner_full {e : FileEntry} (h : e.asks = true) {p : BannerPool}
    (ht : Slots.takeFirst p.used = none) (f : Fetched) :
    let r := gmLoadBanner (some f) e p
    r.2.1.banner.state = .loading ∧ r.2.2 = p := by
  obtain ⟨-, hsrc, hnl⟩ := asks_iff.mp h
  simp only [BannerSource.missing, FileEntry.source] at hsrc
  simp [gmLoadBanner, hsrc, hnl, ht]

theorem gmLoadBanner_source (fetched : Option Fetched) (e : FileEntry) (p : BannerPool) :
    (gmLoadBanner fetched e p).2.1.source = e.source := by
  have hpath := (gmLoadBanner_sameFile fetched e p).path
  obtain ⟨hsame, -⟩ := gmLoadBanner_cases fetched e p
  simp only [FileEntry.source, hpath, hsame.standalone, hsame.offset]

/-- Entry `e` stands at `i`, and a load there puts `e'` in its place. -/
theorem loadAt_eq {ld : Loader} {i : Nat} {e : FileEntry} (he : ld.entries[i]? = some e)
    (hb : e.bearsBanner = true) (f : Option Fetched) :
    ld.loadAt i f =
      { ld with
        entries := ld.entries.set i (gmLoadBanner f e ld.pool).2.1
        pool := (gmLoadBanner f e ld.pool).2.2 } := by
  simp [Loader.loadAt, he, hb]

/-! ## The invariant -/

/-- What an entry shows is recorded, and so is what the cache may answer with. -/
structure BannerInv (sh : Shelf) (s : BannerSys) : Prop where
  ok : LoaderOk s.ld
  listed : ∀ e ∈ s.ld.entries, e.path ∈ sh.paths ∧ e.source = sh.banner e.path
  shows : ∀ e ∈ s.ld.entries, e.banner.state = .loaded → ∃ b, (e.source, b) ∈ s.shown ∧ e.Shows s.ld.pool b
  cached : ∃ latest, BnrCacheOk s.cache s.aram latest ∧
    ∀ k b, latest k = some b → ∃ p ∈ sh.paths, bnrCacheKey p = k ∧ (p, b) ∈ s.puts

variable {card : Card} {sh : Shelf}

theorem bannerStart_inv (io : FatFs) (aram : Aram) : BannerInv sh (.start io aram) where
  ok := empty_ok
  listed := fun e he => by cases he
  shows := fun e he => by cases he
  cached := ⟨fun _ => none, fresh_ok aram _, fun k b h => by cases h⟩

/-- A hit answers with a banner put under the entry's own path. -/
theorem lookup_put {s : BannerSys} (h : BannerInv sh s) {e : FileEntry} (he : e ∈ s.ld.entries)
    {useCache : Bool} {b : BnrImage} (hb : s.lookup e useCache = some b) : (e.path, b) ∈ s.puts := by
  unfold BannerSys.lookup at hb
  split at hb
  · obtain ⟨latest, hok, hput⟩ := h.cached
    obtain ⟨p, hp, hkey, hmem⟩ := hput _ _ (bnrCacheGet_latest hok hb)
    have heq : p = e.path := sh.keys hp (h.listed e he).1 hkey
    exact heq ▸ hmem
  · cases hb

/-- What a load has in the buffer when it goes on to the pool. -/
inductive FetchCase (card : Card) (s : BannerSys) (e : FileEntry) (useCache : Bool) :
    Option (BnrImage × Bool) → BannerSys → Prop
  | hit (b : BnrImage) (io : FatFs) (hb : s.lookup e useCache = some b) :
      FetchCase card s e useCache (some (b, true)) { s with io := io }
  | closed (io : FatFs) (hb : s.lookup e useCache = none) (ho : card.canOpen s.io e.source.file = none) :
      FetchCase card s e useCache none { s with io := io }
  | read (bytes : List UInt8) (io : FatFs) (hb : s.lookup e useCache = none)
      (ho : card.canOpen s.io e.source.file = some bytes) (hu : useCache = false) :
      FetchCase card s e useCache (some (readImage card s.io e.source bytes, false)) { s with io := io }
  | put (bytes : List UInt8) (io : FatFs) (hb : s.lookup e useCache = none)
      (ho : card.canOpen s.io e.source.file = some bytes) (hu : useCache = true) :
      FetchCase card s e useCache (some (readImage card s.io e.source bytes, false))
        { s with
          io := io
          cache := (bnrCachePut s.cache s.aram (bnrCacheKey e.path) (readImage card s.io e.source bytes)).1
          aram := (bnrCachePut s.cache s.aram (bnrCacheKey e.path) (readImage card s.io e.source bytes)).2
          puts := (e.path, readImage card s.io e.source bytes) :: s.puts }

theorem fetch_cases (card : Card) (s : BannerSys) {e : FileEntry} (h : e.asks = true) (useCache : Bool) :
    FetchCase card s e useCache (s.fetch card e useCache).1 (s.fetch card e useCache).2 := by
  obtain ⟨-, hm, -⟩ := asks_iff.mp h
  unfold BannerSys.fetch
  cases hb : s.lookup e useCache with
  | some b => exact .hit b _ hb
  | none =>
    cases ho : card.canOpen s.io e.source.file with
    | none =>
      obtain ⟨io', hrun, -⟩ := readBanner_run_closed card s.io e.source hm ho
      simp only [hrun, Bool.not_false, if_true]
      exact .closed io' hb ho
    | some bytes =>
      obtain ⟨io', hrun, himg⟩ := readBanner_run_open card s.io e.source hm ho
      simp only [hrun, Bool.not_true, Bool.false_eq_true, if_false, himg]
      cases useCache with
      | false => exact .read bytes io' hb ho rfl
      | true => exact .put bytes io' hb ho rfl

theorem fetch_inv {s s' : BannerSys} (h : BannerInv sh s) {e : FileEntry} (he : e ∈ s.ld.entries)
    {useCache : Bool} {got : Option (BnrImage × Bool)} (hf : FetchCase card s e useCache got s') :
    BannerInv sh s' := by
  cases hf with
  | hit | closed | read => exact ⟨h.ok, h.listed, h.shows, h.cached⟩
  | put bytes =>
    refine ⟨h.ok, h.listed, h.shows, ?_⟩
    obtain ⟨latest, hok, hput⟩ := h.cached
    refine ⟨_, bnrCachePut_ok hok _ _, fun k b hk => ?_⟩
    unfold putLatest at hk
    split at hk
    · obtain ⟨p, hp, hkey, hmem⟩ := hput k b hk
      exact ⟨p, hp, hkey, List.mem_cons_of_mem _ hmem⟩
    · by_cases hke : k = bnrCacheKey e.path
      · subst hke
        rw [Function.update_self] at hk
        cases hk
        exact ⟨e.path, (h.listed e he).1, rfl, List.mem_cons_self⟩
      · rw [Function.update_of_ne hke] at hk
        obtain ⟨p, hp, hkey, hmem⟩ := hput k b hk
        exact ⟨p, hp, hkey, List.mem_cons_of_mem _ hmem⟩

theorem loadAt_none (ld : Loader) (i : Nat) : ld.loadAt i none = ld := by
  cases he : ld.entries[i]? with
  | none => simp [Loader.loadAt, he]
  | some e =>
    have hget := List.getElem?_eq_some_iff.mp he
    obtain ⟨hi, rfl⟩ := hget
    have hsame : gmLoadBanner none ld.entries[i] ld.pool = ((gmLoadBanner none ld.entries[i] ld.pool).1,
        ld.entries[i], ld.pool) := by
      unfold gmLoadBanner
      split
      · rfl
      · split <;> rfl
    simp only [Loader.loadAt, he]
    rw [hsame]
    simp

/-- A loaded entry's pool buffer is not the one just taken. -/
theorem shows_update {ld : Loader} (h : LoaderOk ld) {e : FileEntry} (he : e ∈ ld.entries) {k : Nat}
    {used : List Bool} (ht : Slots.takeFirst ld.pool.used = some (k, used)) {b : BnrImage}
    (hs : e.Shows ld.pool b) (px : List UInt8) :
    e.Shows ⟨used, Function.update ld.pool.data k px⟩ b := by
  obtain ⟨⟨k', hbuf, hdata⟩, hdesc⟩ := hs
  obtain ⟨i, hi⟩ := List.getElem?_of_mem he
  have hused : ld.pool.used[k']? = some true := h.owns.used (i := i) (by simp [Loader.own, hi, hbuf])
  have hfree := (Slots.takeFirst_spec ht).1
  have hne : k' ≠ k := by
    intro heq
    rw [heq, hfree] at hused
    cases hused
  exact ⟨⟨k', hbuf, by rw [← hdata]; exact Function.update_of_ne hne _ _⟩, hdesc⟩

theorem setUp_inv {s : BannerSys} (h : BannerInv sh s) {i : Nat} {e : FileEntry}
    (he : s.ld.entries[i]? = some e) (hasks : e.asks = true) (got : Option (BnrImage × Bool)) :
    BannerInv sh (s.setUp i e got) := by
  cases got with
  | none =>
    simp only [BannerSys.setUp, loadAt_none]
    exact h
  | some g =>
    obtain ⟨b, cached⟩ := g
    have hmem := List.mem_of_getElem? he
    have hb := (asks_iff.mp hasks).1
    have hok' := loadAt_ok h.ok i (some ⟨b.bnr, cached⟩)
    have hsource := gmLoadBanner_source (some ⟨b.bnr, cached⟩) e s.ld.pool
    have hsame := gmLoadBanner_sameFile (some ⟨b.bnr, cached⟩) e s.ld.pool
    rw [loadAt_eq he hb] at hok'
    simp only [BannerSys.setUp, loadAt_eq he hb]
    generalize hr : gmLoadBanner (some ⟨b.bnr, cached⟩) e s.ld.pool = r at *
    refine ⟨hok', fun x hx => ?_, fun x hx hl => ?_, h.cached⟩
    · obtain hx | rfl := List.mem_or_eq_of_mem_set hx
      · exact h.listed x hx
      · rw [hsource, hsame.path]
        exact h.listed e hmem
    · cases ht : Slots.takeFirst s.ld.pool.used with
      | none =>
        -- no buffer: the entry is left loading and shows nothing
        obtain ⟨hloading, hpool⟩ := gmLoadBanner_full hasks ht ⟨b.bnr, cached⟩
        rw [hr] at hloading hpool
        obtain hx | rfl := List.mem_or_eq_of_mem_set hx
        · simp only [BannerSys.room, ht, hpool]
          exact h.shows x hx hl
        · rw [hloading] at hl
          cases hl
      | some t =>
        obtain ⟨k, used⟩ := t
        -- a buffer: the entry shows it, and the others keep theirs
        obtain ⟨-, hbuf, hdesc, hpool⟩ := gmLoadBanner_room hasks ht ⟨b.bnr, cached⟩
        rw [hr] at hbuf hdesc hpool
        simp only [BannerSys.room, ht, hpool, Option.isSome_some, if_true]
        obtain hx | rfl := List.mem_or_eq_of_mem_set hx
        · obtain ⟨b', hb', hshows⟩ := h.shows x hx hl
          exact ⟨b', List.mem_cons_of_mem _ hb', shows_update h.ok hx ht hshows _⟩
        · refine ⟨b, by rw [hsource]; exact List.mem_cons_self, ⟨k, hbuf, Function.update_self ..⟩, ?_⟩
          rw [hdesc]
          exact (titled_congr hsame.path hsame.type _).symm

/-- A free leaves every other entry, and the pixels, as they are. -/
theorem freeAt_shows {s : BannerSys} (h : BannerInv sh s) (i : Nat) :
    BannerInv sh { s with ld := s.ld.freeAt i } := by
  have hfreed := freeAt_spec h.ok i
  cases he : s.ld.entries[i]? with
  | none =>
    have hsame : s.ld.freeAt i = s.ld := by simp [Loader.freeAt, he]
    rw [hsame]
    exact h
  | some e =>
    have hmem := List.mem_of_getElem? he
    cases hb : e.bearsBanner with
    | false =>
      have hsame : s.ld.freeAt i = s.ld := by simp [Loader.freeAt, he, hb]
      rw [hsame]
      exact h
    | true =>
      have heq : s.ld.freeAt i = { s.ld with
          entries := s.ld.entries.set i (gmBannerFree e s.ld.pool).1, pool := (gmBannerFree e s.ld.pool).2 } := by
        simp [Loader.freeAt, he, hb]
      obtain ⟨-, hextra, hnl, -⟩ := gmBannerFree_cases (h.ok.entries e hmem) s.ld.pool
      have hsame := gmBannerFree_sameFile e s.ld.pool
      -- a buffer given back keeps its pixels until it is taken again
      have hdata : (gmBannerFree e s.ld.pool).2.data = s.ld.pool.data := by
        unfold gmBannerFree
        split
        · rfl
        · rfl
        · rfl
        · rfl
        · split <;> rfl
        · split <;> rfl
      refine ⟨hfreed.ok, ?_, ?_, h.cached⟩
      · rw [heq]
        intro x hx
        obtain hx | rfl := List.mem_or_eq_of_mem_set hx
        · exact h.listed x hx
        · have hsource : (gmBannerFree e s.ld.pool).1.source = e.source := by
            simp only [FileEntry.source, hsame.path, hextra]
          rw [hsource, hsame.path]
          exact h.listed e hmem
      · rw [heq]
        intro x hx hl
        obtain hx | rfl := List.mem_or_eq_of_mem_set hx
        · obtain ⟨b, hb', ⟨k, hbuf, hpx⟩, hdesc⟩ := h.shows x hx hl
          exact ⟨b, hb', ⟨k, hbuf, by rw [← hpx]; exact congrFun hdata k⟩, hdesc⟩
        · exact absurd hl hnl

theorem bannerStep_inv (card : Card) {s : BannerSys} (op : BannerOp sh) (h : BannerInv sh s) :
    BannerInv sh (bannerStep card sh s op) := by
  cases op with
  | list e =>
    have hbare := e.2.bare
    have hbuf : e.1.banner.buf = none := by
      by_contra hne
      exact hbare (e.2.ok.held.mpr hne)
    refine ⟨append_ok h.ok e.2.ok hbuf, fun x hx => ?_, fun x hx hl => ?_, h.cached⟩
    · obtain hx | hx := List.mem_append.mp hx
      · exact h.listed x hx
      · obtain rfl := List.mem_singleton.mp hx
        exact ⟨e.2.path, e.2.source⟩
    · obtain hx | hx := List.mem_append.mp hx
      · exact h.shows x hx hl
      · obtain rfl := List.mem_singleton.mp hx
        exact absurd hl hbare
  | load i useCache =>
    simp only [bannerStep]
    split
    · rename_i e he
      split
      · rename_i hasks
        have hf := fetch_cases card s hasks useCache
        have hinv := fetch_inv h (List.mem_of_getElem? he) hf
        have hld : (s.fetch card e useCache).2.ld = s.ld := by
          generalize (s.fetch card e useCache).1 = got at hf
          generalize (s.fetch card e useCache).2 = s' at hf
          cases hf <;> rfl
        exact setUp_inv hinv (by rw [hld]; exact he) hasks _
      · exact h
    · exact h
  | free i => exact freeAt_shows h i
  | leave => exact ⟨empty_ok, fun e he => (by cases he), fun e he => (by cases he), h.cached⟩

/-! ## Own banners, exactly when every load is delivered -/

/-- A byte delivered is the banner's own. -/
theorem delivered_own {io : FatFs} {src : BannerSource} {bytes : List UInt8}
    (hfile : card.files src.file = some bytes) {j : Fin bnrSize}
    (hj : j.val < (deliveredBytes card io src bytes).length) :
    OwnByte card src j (readImage card io src bytes j) := by
  refine ⟨bytes, hfile, .inl ?_⟩
  have hget : (deliveredBytes card io src bytes)[j.val]? = bytes[src.dvdBnrOffset.toNat + j]? := by
    unfold deliveredBytes Card.readFile at hj ⊢
    cases ho : card.outcome io.reads with
    | none =>
      simp only [ho, List.length_take, List.length_drop, lt_inf_iff] at hj
      simp only [List.getElem?_take, hj.1, if_true, List.getElem?_drop]
    | some k =>
      simp only [ho, List.length_take, List.length_drop, lt_inf_iff] at hj
      simp only [List.getElem?_take, hj.1, hj.2.1, if_true, List.getElem?_drop]
  rw [← hget]
  unfold readImage
  rw [List.getD_eq_getElem?_getD, List.getElem?_eq_getElem hj]
  rfl

theorem readImage_own_iff {io : FatFs} {src : BannerSource} {bytes : List UInt8}
    (hfile : card.files src.file = some bytes) (j : Fin bnrSize) :
    OwnByte card src j (readImage card io src bytes j) ↔ Filled card io src bytes j := by
  by_cases hj : j.val < (deliveredBytes card io src bytes).length
  · exact ⟨fun _ => .inl hj, fun _ => delivered_own hfile hj⟩
  · have hstale : readImage card io src bytes j = staleByte io src j := by
      unfold readImage
      rw [List.getD_eq_getElem?_getD, List.getElem?_eq_none (by omega)]
      rfl
    rw [hstale]
    exact ⟨.inr, fun h => h.resolve_left hj⟩

/-- Under the invariant what is shown was taken over. -/
theorem own_of_logs {s : BannerSys} (h : BannerInv sh s) (hc : ∀ p b, (p, b) ∈ s.puts → OwnImage card (sh.banner p) b)
    (ht : ∀ src b, (src, b) ∈ s.shown → OwnTaken card src b) : OwnOnly card sh s := by
  refine ⟨hc, ht, fun e he hl => ?_⟩
  obtain ⟨b, hb, hshows⟩ := h.shows e he hl
  exact ⟨b, ht _ _ hb, hshows⟩

/-- What is shown stays own if what is put up is, where there is room for it. -/
theorem setUp_taken {s : BannerSys} {i : Nat} {e : FileEntry} {b : BnrImage} {cached : Bool}
    (hshown : ∀ src b, (src, b) ∈ s.shown → OwnTaken card src b) (hb : s.room = true → OwnTaken card e.source b)
    (src : BannerSource) (b' : BnrImage) (h : (src, b') ∈ (s.setUp i e (some (b, cached))).shown) :
    OwnTaken card src b' := by
  simp only [BannerSys.setUp] at h
  split at h
  next hroom =>
    rcases List.mem_cons.mp h with heq | hold
    · cases heq
      exact hb hroom
    · exact hshown _ _ hold
  next => exact hshown _ _ h

/-- A load that asks, from the fetch on. -/
theorem load_step {s : BannerSys} {i : Nat} {e : FileEntry} (he : s.ld.entries[i]? = some e)
    (hasks : e.asks = true) (useCache : Bool) :
    bannerStep card sh s (.load i useCache) =
      (s.fetch card e useCache).2.setUp i e (s.fetch card e useCache).1 := by
  simp [bannerStep, he, hasks]

/-- One load keeps what is recorded own exactly when it is delivered. -/
theorem load_own_iff {s : BannerSys} (h : BannerInv sh s) (hown : OwnOnly card sh s) {i : Nat} {e : FileEntry}
    (he : s.ld.entries[i]? = some e) (hasks : e.asks = true) (useCache : Bool) :
    OwnOnly card sh (bannerStep card sh s (.load i useCache)) ↔ Delivers card sh s (.load i useCache) := by
  have hinv := bannerStep_inv card (.load i useCache) h
  have hsrc := (h.listed e (List.mem_of_getElem? he)).2
  have hentry : ∀ e', s.ld.entries[i]? = some e' → e' = e := fun e' he' =>
    Option.some.inj (he'.symm.trans he)
  rw [load_step he hasks] at hinv ⊢
  have hf := fetch_cases card s hasks useCache
  generalize (s.fetch card e useCache).1 = got at *
  generalize (s.fetch card e useCache).2 = s' at *
  cases hf with
  | hit b io hb =>
    refine iff_of_true (own_of_logs hinv hown.cache (setUp_taken hown.taken fun _ => ?_)) ?_
    · -- the banner was put under this entry's path
      have hput := hown.cache _ _ (lookup_put h (List.mem_of_getElem? he) hb)
      rw [hsrc]
      exact fun j _ => hput j
    · intro e' bytes he' _ hmiss
      rw [hentry e' he', hb] at hmiss
      cases hmiss
  | closed io hb ho =>
    refine iff_of_true (own_of_logs hinv hown.cache hown.taken) ?_
    intro e' bytes he' _ _ ho'
    rw [hentry e' he', ho] at ho'
    cases ho'
  | read bytes io hb ho hu =>
    have hfile := canOpen_files ho
    constructor
    · intro hstep e' bytes' he' _ _ ho'
      obtain rfl := hentry e' he'
      obtain rfl : bytes = bytes' := Option.some.inj (ho.symm.trans ho')
      refine ⟨fun hu' => absurd hu' (by simp [hu]), fun hroom j hj => ?_⟩
      have htaken := hstep.taken e'.source (readImage card s.io e'.source bytes)
        (by simp [BannerSys.setUp, show ({ s with io := io } : BannerSys).room = true from hroom])
      exact (readImage_own_iff hfile j).mp (htaken j hj)
    · intro hdel
      obtain ⟨-, hroom⟩ := hdel e bytes he hasks hb ho
      refine own_of_logs hinv hown.cache (setUp_taken hown.taken fun hr => ?_)
      exact fun j hj => (readImage_own_iff hfile j).mpr (hroom hr j hj)
  | put bytes io hb ho hu =>
    have hfile := canOpen_files ho
    constructor
    · intro hstep e' bytes' he' _ _ ho'
      obtain rfl := hentry e' he'
      obtain rfl : bytes = bytes' := Option.some.inj (ho.symm.trans ho')
      have hput : OwnImage card e'.source (readImage card s.io e'.source bytes) := by
        rw [hsrc]
        exact hstep.cache e'.path _ (by simp [BannerSys.setUp, hsrc])
      have hall : ∀ j, Filled card s.io e'.source bytes j := fun j => (readImage_own_iff hfile j).mp (hput j)
      exact ⟨fun _ => hall, fun _ j _ => hall j⟩
    · intro hdel
      have hall := (hdel e bytes he hasks hb ho).1 hu
      have himg : OwnImage card e.source (readImage card s.io e.source bytes) := fun j =>
        (readImage_own_iff hfile j).mpr (hall j)
      refine own_of_logs hinv (fun p b hpb => ?_) (setUp_taken hown.taken fun _ j _ => himg j)
      obtain hpb | hpb := List.mem_cons.mp hpb
      · cases hpb
        rw [← hsrc]
        exact himg
      · exact hown.cache _ _ hpb

theorem step_own_iff {s : BannerSys} (h : BannerInv sh s) (hown : OwnOnly card sh s) (op : BannerOp sh) :
    OwnOnly card sh (bannerStep card sh s op) ↔ Delivers card sh s op := by
  have hinv := bannerStep_inv card op h
  cases op with
  | list | free | leave => exact iff_of_true (own_of_logs hinv hown.cache hown.taken) trivial
  | load i useCache =>
    cases he : s.ld.entries[i]? with
    | none =>
      have hsame : bannerStep card sh s (.load i useCache) = s := by simp [bannerStep, he]
      rw [hsame]
      exact iff_of_true hown fun e bytes he' => by rw [he] at he'; cases he'
    | some e =>
      cases hasks : e.asks with
      | true => exact load_own_iff h hown he hasks useCache
      | false =>
        have hsame : bannerStep card sh s (.load i useCache) = s := by simp [bannerStep, he, hasks]
        rw [hsame]
        refine iff_of_true hown fun e' bytes he' hasks' => ?_
        obtain rfl : e' = e := Option.some.inj (he'.symm.trans he)
        rw [hasks] at hasks'
        cases hasks'

theorem start_own (io : FatFs) (aram : Aram) : OwnOnly card sh (.start io aram) :=
  ⟨fun p b h => (by cases h), fun src b h => (by cases h), fun e he => (by cases he)⟩

/-- Over every run: only own banners, exactly when every load is delivered. -/
theorem own_only_iff (card : Card) (sh : Shelf) (io : FatFs) (aram : Aram) (ops : List (BannerOp sh)) :
    (∀ pre, pre <+: ops → OwnOnly card sh (Steps.run (bannerStep card sh) (.start io aram) pre)) ↔
      Steps.Guarded (bannerStep card sh) (Delivers card sh) (.start io aram) ops :=
  Steps.always_iff_guarded (BannerInv sh) (OwnOnly card sh) (fun _ op h => bannerStep_inv card op h)
    (fun _ op h hown => step_own_iff h hown op) (bannerStart_inv io aram) (start_own io aram)

/-! Two disc images; the card stops answering after the first banner is read. -/

def discImage (path : Path) : FileEntry :=
  let e := FileEntry.zeroed 0 path .game
  { e with extra := { e.extra with dvdBnrOffset := 0x440 }, useBanner := true }

def imageA : Path := cstr "/a.iso"
def imageB : Path := cstr "/b.iso"

def failingCard : Card where
  files p := if p = imageA then some (List.replicate 0x2400 1) else some (List.replicate 0x2400 2)
  openFails _ := false
  outcome n := if n = 0 then none else some 0

def imageShelf : Shelf where
  paths := {imageA, imageB}
  banner p := ⟨p, false, 0x440⟩
  keys := by
    have hne : bnrCacheKey imageA ≠ bnrCacheKey imageB := by decide
    rintro p (rfl | rfl) q (rfl | rfl) h
    · rfl
    · exact absurd h hne
    · exact absurd h.symm hne
    · rfl

theorem discImage_listed {path : Path} (h : path ∈ imageShelf.paths) : imageShelf.Lists (discImage path) :=
  ⟨h, rfl, ⟨by simp [discImage, FileEntry.zeroed], by simp [discImage, FileEntry.zeroed],
    fun _ => .inr (by simp [discImage])⟩, by simp [discImage, FileEntry.zeroed]⟩

def quietFatFs : FatFs := ⟨none, false, 0, 0, 0, fun _ _ => 0⟩

def twoLoads : List (BannerOp imageShelf) :=
  [.list ⟨discImage imageA, discImage_listed (.inl rfl)⟩, .load 0 false,
    .list ⟨discImage imageB, discImage_listed (.inr rfl)⟩, .load 1 false]

def firstPixel : Fin bnrSize := ⟨0x20, by decide⟩

/-- The second image is shown with the first one's banner. -/
theorem foreign_banner_shown :
    ¬ OwnOnly failingCard imageShelf
      (Steps.run (bannerStep failingCard imageShelf) (.start quietFatFs fun _ => 0) twoLoads) := by
  intro h
  have hshown : ((Steps.run (bannerStep failingCard imageShelf) (.start quietFatFs fun _ => 0) twoLoads).shown.head?.map
      fun r => (r.1, r.2 firstPixel)) = some (⟨imageB, false, 0x440⟩, 1) := by decide +kernel
  obtain ⟨⟨src, b⟩, hr, hb⟩ := Option.map_eq_some_iff.mp hshown
  obtain ⟨rfl, hone⟩ := Prod.mk.inj hb
  obtain ⟨bytes, hfile, hbyte⟩ := h.taken _ _ (List.mem_of_head? hr) firstPixel ⟨by decide, by decide⟩
  have hbytes : bytes = List.replicate 0x2400 2 := (Option.some.inj hfile).symm
  have hone' : b firstPixel = 1 := hone
  rw [hone', hbytes, List.getElem?_replicate] at hbyte
  revert hbyte
  decide

/-! ## A hit and a read -/

/-- `dvd_bnr_type` as the banner has it. -/
def BnrImage.bnrType (b : BnrImage) : UInt8 := if b.bnr.magic.getD 3 0 = digitTwo then 1 else 0

/-- The banner as its file has it, with zeroes behind the end. -/
def BannerSource.ownBnr (src : BannerSource) (bytes : List UInt8) : BnrImage :=
  fun j => bytes.getD (src.dvdBnrOffset.toNat + j) 0

theorem ownByte_eq {src : BannerSource} {bytes : List UInt8} (hfile : card.files src.file = some bytes)
    {j : Fin bnrSize} {x : UInt8} (h : OwnByte card src j x) : x = src.ownBnr bytes j := by
  obtain ⟨bytes', hfile', hx⟩ := h
  obtain rfl : bytes = bytes' := Option.some.inj (hfile.symm.trans hfile')
  rw [BannerSource.ownBnr, List.getD_eq_getElem?_getD]
  obtain hx | ⟨-, hlen, rfl⟩ := hx
  · rw [hx, Option.getD_some]
  · rw [List.getElem?_eq_none hlen, Option.getD_none]

/-- What is known of a byte read: it is the banner's if it was delivered or stood there already. -/
theorem readImage_eq_iff {io io' : FatFs} {src : BannerSource} {bytes : List UInt8}
    (hfile : card.files src.file = some bytes) {j : Fin bnrSize} (h : Filled card io src bytes j) :
    readImage card io' src bytes j = readImage card io src bytes j ↔ Filled card io' src bytes j := by
  have hown : OwnByte card src j (readImage card io src bytes j) := (readImage_own_iff hfile j).mpr h
  rw [← readImage_own_iff hfile j]
  constructor
  · intro heq
    rwa [heq]
  · intro hown'
    rw [ownByte_eq hfile hown, ownByte_eq hfile hown']

/-! ### What an entry keeps of a banner -/

/-- The length of the title a path gives. -/
def titleLength (path : Path) : Nat := ((stem (baseName path)).take (bnrFullTextLen - 1)).length

/-- How much of `fullGameName` the title is put over, with its terminator: nothing for an app. -/
def FileEntry.underTitle (e : FileEntry) : Nat := if e.type = .app then 0 else titleLength e.path + 1

/-- The bytes an entry shows of a banner: those it takes over, but the ones under its title. -/
def FileEntry.Keeps (e : FileEntry) (j : Fin bnrSize) : Prop :=
  TakenByte j ∧ (j.val < 0x1860 ∨ 0x1860 + e.underTitle ≤ j.val)

theorem titleLength_lt (path : Path) : titleLength path < 64 := by
  have htake : titleLength path ≤ 63 := List.length_take_le ..
  omega

/-- The title stands at the front of the field, whatever the field was. -/
theorem title_front (e : FileEntry) : ∃ front : List UInt8, ∀ d : BnrDesc,
    (gmSetTitleFromPath { e with desc := d }).desc =
      { d with fullGameName := front ++ d.fullGameName.drop (titleLength e.path + 1) } := by
  let title := (stem (baseName e.path)).take (bnrFullTextLen - 1)
  let dot := titleLength e.path - nkitSuffix.length
  have hlen : (title ++ [0]).length = titleLength e.path + 1 := List.length_append
  by_cases hnkit : nkitSuffix.length < titleLength e.path ∧ strcasecmpEq (title.drop dot) nkitSuffix = true
  · refine ⟨(title ++ [0]).set dot 0, fun d => ?_⟩
    have hdot : dot < (title ++ [0]).length := by
      rw [hlen]
      exact Nat.lt_succ_of_le (Nat.sub_le ..)
    have htitle : (overwrite d.fullGameName (title ++ [0])).set dot 0 =
        (title ++ [0]).set dot 0 ++ d.fullGameName.drop (titleLength e.path + 1) := by
      rw [overwrite, List.set_append_left _ _ hdot, hlen]
    rw [← htitle, gmSetTitleFromPath]
    exact congrArg (fun name => { d with fullGameName := name }) (if_pos hnkit)
  · refine ⟨title ++ [0], fun d => ?_⟩
    have htitle : overwrite d.fullGameName (title ++ [0]) =
        title ++ [0] ++ d.fullGameName.drop (titleLength e.path + 1) := by
      rw [overwrite, hlen]
    rw [← htitle, gmSetTitleFromPath]
    exact congrArg (fun name => { d with fullGameName := name }) (if_neg hnkit)

/-- Fields of two banners, from place `k` of the field on. -/
theorem slice_drop_eq_iff (b b' : BnrImage) (start len k : Nat) (hend : start + len ≤ bnrSize) :
    (b.slice start len).drop k = (b'.slice start len).drop k ↔
      ∀ j : Fin bnrSize, start + k ≤ j.val → j.val < start + len → b j = b' j := by
  have hget : ∀ (c : BnrImage) (i : Nat) (hi : k + i < len),
      ((c.slice start len).drop k)[i]? = some (c ⟨start + (k + i), by omega⟩) := by
    intro c i hi
    have hlt : start + (k + i) < bnrSize := by omega
    rw [List.getElem?_drop, BnrImage.slice, List.getElem?_map, List.getElem?_range hi, Option.map_some, dif_pos hlt]
  constructor
  · intro heq j hj hlt
    have hi : k + (j.val - (start + k)) < len := by omega
    have hat := congrArg (fun l => l[j.val - (start + k)]?) heq
    simp only [hget b _ hi, hget b' _ hi, Option.some.injEq] at hat
    have hplace : (⟨start + (k + (j.val - (start + k))), by omega⟩ : Fin bnrSize) = j := Fin.ext (by dsimp only; omega)
    rwa [hplace] at hat
  · intro hall
    apply List.ext_getElem?
    intro i
    by_cases hi : k + i < len
    · rw [hget b i hi, hget b' i hi, hall _ (by dsimp only; omega) (by dsimp only; omega)]
    · have hnone : ∀ c : BnrImage, ((c.slice start len).drop k)[i]? = none := by
        intro c
        refine List.getElem?_eq_none ?_
        rw [List.length_drop, BnrImage.slice, List.length_map, List.length_range]
        omega
      rw [hnone, hnone]

theorem slice_eq_iff (b b' : BnrImage) (start len : Nat) (hend : start + len ≤ bnrSize) :
    b.slice start len = b'.slice start len ↔
      ∀ j : Fin bnrSize, start ≤ j.val → j.val < start + len → b j = b' j :=
  slice_drop_eq_iff b b' start len 0 hend

/-- Descriptions that differ under the title only are shown alike. -/
theorem titled_eq_iff (e : FileEntry) (d d' : BnrDesc) : e.titled d = e.titled d' ↔
    d.gameName = d'.gameName ∧ d.company = d'.company ∧
      d.fullGameName.drop e.underTitle = d'.fullGameName.drop e.underTitle ∧ d.fullCompany = d'.fullCompany ∧
        d.description = d'.description := by
  obtain ⟨gameName, company, fullGameName, fullCompany, description⟩ := d
  obtain ⟨gameName', company', fullGameName', fullCompany', description'⟩ := d'
  by_cases happ : e.type = .app
  · simp only [FileEntry.titled, happ, if_true, BnrDesc.mk.injEq, FileEntry.underTitle, List.drop_zero]
  · obtain ⟨front, hfront⟩ := title_front e
    simp only [FileEntry.titled, happ, if_false, hfront, BnrDesc.mk.injEq, FileEntry.underTitle,
      List.append_cancel_left_eq]

/-- Banners that are put up alike are alike in the bytes the entry keeps. -/
theorem shown_eq_iff (e : FileEntry) (b b' : BnrImage) :
    b.bnr.pixelData = b'.bnr.pixelData ∧ e.titled b.bnr.desc = e.titled b'.bnr.desc ↔
      ∀ j, e.Keeps j → b j = b' j := by
  have hsize : bnrSize = 8096 := rfl
  have hpixels := slice_eq_iff b b' 0x20 6144 (by decide)
  have hname := slice_eq_iff b b' 0x1820 32 (by decide)
  have hcompany := slice_eq_iff b b' 0x1840 32 (by decide)
  have hfull := slice_drop_eq_iff b b' 0x1860 64 e.underTitle (by decide)
  have hfullCompany := slice_eq_iff b b' 0x18A0 64 (by decide)
  have hdescription := slice_eq_iff b b' 0x18E0 128 (by decide)
  have hlen : bnrPixeldataLen = 6144 := rfl
  simp only [titled_eq_iff, BnrImage.bnr, hpixels, hname, hcompany, hfull, hfullCompany, hdescription, hlen]
  constructor
  · rintro ⟨hp, hn, hc, hf, hfc, hd⟩ j ⟨htaken, hkept⟩
    obtain ⟨hfrom, hto⟩ := htaken
    -- by the field the byte is in
    by_cases h1 : j.val < 0x1820
    · exact hp j hfrom (by omega)
    by_cases h2 : j.val < 0x1840
    · exact hn j (by omega) (by omega)
    by_cases h3 : j.val < 0x1860
    · exact hc j (by omega) (by omega)
    by_cases h4 : j.val < 0x18A0
    · exact hf j (by omega) (by omega)
    by_cases h5 : j.val < 0x18E0
    · exact hfc j (by omega) (by omega)
    · exact hd j (by omega) (by omega)
  · intro hall
    have hunder : e.underTitle ≤ 64 := by
      have hlt := titleLength_lt e.path
      rw [FileEntry.underTitle]
      split <;> omega
    have hbyte : ∀ j : Fin bnrSize, 0x20 ≤ j.val → j.val < 0x1960 →
        (j.val < 0x1860 ∨ 0x1860 + e.underTitle ≤ j.val) → b j = b' j := fun j hfrom hto hkept =>
      hall j ⟨⟨hfrom, hto⟩, hkept⟩
    refine ⟨fun j _ _ => ?_, fun j _ _ => ?_, fun j _ _ => ?_, fun j _ _ => ?_, fun j _ _ => ?_, fun j _ _ => ?_⟩ <;>
      exact hbyte j (by omega) (by omega) (by omega)

/-! ### One load, both ways -/

/-- A hit passes the banner type by; a read takes it from an app's banner. -/
theorem noteBnrType_eq_iff (e : FileEntry) (b b' : BnrImage) :
    e.noteBnrType ⟨b.bnr, true⟩ = e.noteBnrType ⟨b'.bnr, false⟩ ↔
      e.extra.standaloneBnr = false ∨ e.extra.dvdBnrType = b'.bnrType := by
  cases hs : e.extra.standaloneBnr with
  | false => simp [FileEntry.noteBnrType, hs]
  | true =>
    simp only [FileEntry.noteBnrType, hs, Bool.not_true, Bool.not_false, Bool.and_true, Bool.false_eq_true,
      if_false, if_true, reduceCtorEq, false_or]
    constructor
    · intro h
      exact congrArg (fun x => x.extra.dvdBnrType) h
    · intro h
      have hb : e.extra.dvdBnrType = if b'.bnr.magic.getD 3 0 = digitTwo then 1 else 0 := h
      rw [← hb, ← hs]

theorem noteBnrType_extra (e : FileEntry) (f : Fetched) :
    e.noteBnrType f = { e with extra := (e.noteBnrType f).extra } := by
  unfold FileEntry.noteBnrType
  split <;> rfl

theorem gmLoadBanner_extra {e : FileEntry} (h : e.asks = true) (p : BannerPool) (f : Fetched) :
    (gmLoadBanner (some f) e p).2.1.extra = (e.noteBnrType f).extra := by
  obtain ⟨-, hsrc, hnl⟩ := asks_iff.mp h
  simp only [BannerSource.missing, FileEntry.source] at hsrc
  simp only [gmLoadBanner, hsrc, hnl, if_false, Bool.false_eq_true]
  cases Slots.takeFirst p.used with
  | none => rfl
  | some t => exact (showBanner_same _ _ _).2.2

/-- Put up, a banner changes the pool buffer and the description by what it has for them. -/
theorem showBanner_eq (e : FileEntry) {bnr bnr' : Bnr} (h : e.titled bnr.desc = e.titled bnr'.desc) (k : Nat) :
    e.showBanner k bnr = e.showBanner k bnr' := by
  have heq : ∀ c : Bnr, e.showBanner k c =
      { e with banner := { e.banner with state := .loaded, buf := some k }, desc := e.titled c.desc } := by
    intro c
    unfold FileEntry.showBanner FileEntry.titled
    by_cases ht : e.type = .app
    · simp only [ht, if_true]
    · simp only [ht, if_false, gmSetTitleFromPath]
  rw [heq, heq, h]

theorem gmLoadBanner_eq_iff {e : FileEntry} (h : e.asks = true) (p : BannerPool) (b b' : BnrImage) :
    (gmLoadBanner (some ⟨b.bnr, true⟩) e p).2 = (gmLoadBanner (some ⟨b'.bnr, false⟩) e p).2 ↔
      ((Slots.takeFirst p.used).isSome = true → ∀ j, e.Keeps j → b j = b' j) ∧
        (e.extra.standaloneBnr = false ∨ e.extra.dvdBnrType = b'.bnrType) := by
  rw [← noteBnrType_eq_iff e b b', ← shown_eq_iff]
  constructor
  · intro heq
    have hextra := congrArg (fun r => r.1.extra) heq
    simp only [gmLoadBanner_extra h] at hextra
    refine ⟨fun hroom => ?_, by rw [noteBnrType_extra, hextra, ← noteBnrType_extra]⟩
    obtain ⟨⟨k, used⟩, ht⟩ := Option.isSome_iff_exists.mp hroom
    obtain ⟨-, -, hdesc, hpool⟩ := gmLoadBanner_room h ht ⟨b.bnr, true⟩
    obtain ⟨-, -, hdesc', hpool'⟩ := gmLoadBanner_room h ht ⟨b'.bnr, false⟩
    rw [heq] at hdesc hpool
    have hdata := congrArg (fun q => q.data k) (hpool.symm.trans hpool')
    simp only [Function.update_self] at hdata
    exact ⟨hdata, hdesc.symm.trans hdesc'⟩
  · rintro ⟨hshown, hnote⟩
    obtain ⟨-, hsrc, hnl⟩ := asks_iff.mp h
    simp only [BannerSource.missing, FileEntry.source] at hsrc
    simp only [gmLoadBanner, hsrc, hnl, if_false, Bool.false_eq_true, hnote]
    cases ht : Slots.takeFirst p.used with
    | none => rfl
    | some t =>
      obtain ⟨hpixels, hdesc⟩ := hshown (by rw [ht]; rfl)
      have hsame : ∀ d, ({ e.noteBnrType ⟨b'.bnr, false⟩ with
          banner := { (e.noteBnrType ⟨b'.bnr, false⟩).banner with state := .loading } } : FileEntry).titled d =
            e.titled d := fun d => titled_congr (noteBnrType_path e _) (noteBnrType_same e _).2.1 d
      simp only [hpixels]
      have hput := fun k => showBanner_eq _ ((hsame b.bnr.desc).trans (hdesc.trans (hsame b'.bnr.desc).symm)) k
      rw [hput]

/-! ### The load that put it in the cache -/

/-- A load of entry `i` that finds its banner not cached, reads the file, of these `bytes`,
and puts `b` in the cache. -/
structure PutBy (card : Card) (s : BannerSys) (i : Nat) (e : FileEntry) (bytes : List UInt8) (b : BnrImage) : Prop where
  entry : s.ld.entries[i]? = some e
  asks : e.asks = true
  missed : s.lookup e true = none
  opened : card.canOpen s.io e.source.file = some bytes
  image : b = readImage card s.io e.source bytes

/-- What is in the record of puts after a step and not before it, a load has put there. -/
theorem puts_step {s : BannerSys} {op : BannerOp sh} {p : Path} {b : BnrImage} (hbefore : (p, b) ∉ s.puts)
    (hafter : (p, b) ∈ (bannerStep card sh s op).puts) :
    ∃ i e bytes, op = .load i true ∧ PutBy card s i e bytes b ∧ e.path = p := by
  cases op with
  | list | free | leave => exact absurd hafter hbefore
  | load i useCache =>
    cases he : s.ld.entries[i]? with
    | none =>
      have hsame : bannerStep card sh s (.load i useCache) = s := by simp only [bannerStep, he]
      exact absurd (hsame ▸ hafter) hbefore
    | some e =>
      cases hasks : e.asks with
      | false =>
        have hsame : bannerStep card sh s (.load i useCache) = s := by
          simp only [bannerStep, he, hasks, Bool.false_eq_true, if_false]
        exact absurd (hsame ▸ hafter) hbefore
      | true =>
        have hsetUp : ∀ (s' : BannerSys) got, (s'.setUp i e got).puts = s'.puts := by
          intro s' got
          cases got <;> rfl
        rw [load_step he hasks, hsetUp] at hafter
        have hf := fetch_cases card s hasks useCache
        generalize (s.fetch card e useCache).1 = got at hf
        generalize (s.fetch card e useCache).2 = s' at hf hafter
        cases hf with
        | hit | closed | read => exact absurd hafter hbefore
        | put bytes io hb ho hu =>
          subst hu
          obtain hnew | hold := List.mem_cons.mp hafter
          · obtain ⟨rfl, rfl⟩ := Prod.mk.inj hnew
            exact ⟨i, e, bytes, rfl, ⟨he, hasks, hb, ho, rfl⟩, rfl⟩
          · exact absurd hold hbefore

theorem bannerRun_inv (card : Card) (sh : Shelf) (io : FatFs) (aram : Aram) (ops : List (BannerOp sh)) :
    BannerInv sh (Steps.run (bannerStep card sh) (.start io aram) ops) :=
  Steps.inv_run (BannerInv sh) (fun _ op h _ => bannerStep_inv card op h) (bannerStart_inv io aram)
    (Steps.guarded_true ops)

/-- Its header, its banner, and the table that names it. -/
def discBytes : List UInt8 :=
  List.replicate 0x424 0 ++ [0, 0, 0x24, 0] ++ [0, 0, 0, 64] ++ List.replicate 20 0 ++
    cstr "BNR1" ++ List.replicate 0x1FBC 1 ++
    [0, 0, 0, 0, 0, 0, 0, 0, 0, 0, 0, 2] ++ [0, 0, 0, 0, 0, 0, 4, 0x40, 0, 0, 0x1F, 0xA0] ++ openingBnr ++
    List.replicate 29 0

example : let info := (classify [] (fun _ _ => 0) ⟨imageA, discBytes, true, fun _ => none⟩).1
    info.valid = true ∧ info.bnrOffset = (discImage imageA).extra.dvdBnrOffset := by decide +kernel

def discCard (outcome : Nat → Option Nat) : Card := ⟨fun _ => some discBytes, fun _ => false, outcome⟩

def listedTwice : List (BannerOp imageShelf) :=
  [.list ⟨discImage imageA, discImage_listed (.inl rfl)⟩, .load 0 true, .leave,
    .list ⟨discImage imageA, discImage_listed (.inl rfl)⟩]

def afterListedTwice (outcome : Nat → Option Nat) : BannerSys :=
  Steps.run (bannerStep (discCard outcome) imageShelf) (.start quietFatFs fun _ => 0) listedTwice

/-- A read that does not fail, of a file that goes on behind the banner, delivers all of it. -/
theorem filled_whole (card : Card) {io : FatFs} {src : BannerSource} {bytes : List UInt8}
    (hdisc : src.standaloneBnr = false) (ho : card.outcome io.reads = none)
    (hlen : src.dvdBnrOffset.toNat + bnrSize ≤ bytes.length) (j : Fin bnrSize) : Filled card io src bytes j := by
  refine .inl ?_
  have hread : (src.readLen (.ofNat bytes.length)).toNat = bnrSize := by
    rw [BannerSource.readLen, hdisc]
    rfl
  have hj := j.isLt
  rw [deliveredBytes, Card.readFile, ho, List.length_take, List.length_drop, hread]
  omega

end Cubiboot
