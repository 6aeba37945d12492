import Mathlib.Tactic.Common
import Mathlib.Data.List.Perm.Subperm
import Mathlib.Data.List.Nodup
import Cubiboot.Entry

/-
  The entry list and its banners: the scan that builds it and the line loads
  and frees that move the window over it (`games.c`).

  What a routine gets from the file layer comes in as an argument: for the scan
  what `get_game_info`, `gm_dir_is_app` and the heap answered (`CheckAnswer`),
  for a load what was read (`Fetched`, `none` when the file could not be
  opened).

  Every load and free is of one entry (`loadAt`, `freeAt`). What each does is
  said once: it touches one entry and keeps `LoaderOk` (`loadAt_ok`,
  `freeAt_ok`), a load that finds a free buffer succeeds (`loadAt_loaded`), and
  a line that has enough of them is loaded whole (`loadAll_loaded`).

  Correspondence (C ↔ Lean):
    `gm_entry_backing[0 .. gm_entry_count)`, `gm_banner_pool`, `gm_evict_on_scroll` ↔ `Loader`
    `gm_check_files` (one path)                ↔ `gmCheckFile`
    `gm_check_files` (find multi-disc games)   ↔ `gmFindMultiDisc`
    `gm_line_load`, `gm_bg_load_line`          ↔ `gmLineLoad`, `gmBgLoadLine`
    `gm_line_free`, `gm_line_changed`          ↔ `gmLineFree`, `gmLineChanged`
-/

set_option autoImplicit false

namespace Cubiboot

def drawTotalRows : Nat := 4
def preloadLineCount : Nat := 2

structure Loader where
  entries : List FileEntry
  pool : BannerPool
  evictOnScroll : Bool

def Loader.empty : Loader := ⟨[], .fresh, false⟩

/-! ## The scan of one path -/

/-- `get_game_info` never answers a valid game with banner offset 0
(`getGameInfo_valid_offset`). -/
abbrev FoundGame := { info : GameInfo // info.valid = true → info.bnrOffset ≠ 0 }

/-- What the scan of one path is told. -/
structure CheckAnswer where
  info : FoundGame
  appDol : Option Path
  addr : UInt32
  fetched : Option Fetched

def homebrewProgram : Path := cstr "Homebrew Program"
def directoryText : Path := cstr "Directory"

/-- The entry a path becomes, before its banner is loaded. -/
def newEntry (e : PathEntry) (a : CheckAnswer) : Option FileEntry :=
  match e.type, a.appDol with
  | .game, _ =>
    let info := a.info.1
    if info.valid then
      let backing := gmSetTitleFromPath (.zeroed a.addr e.path .game)
      some { backing with
        extra := ⟨info.gameId, info.discNum, info.discVer, false, info.bnrType, info.bnrOffset,
          info.dolOffset, info.fstOffset, info.fstSize, info.maxFstSize⟩
        useBanner := true }
    else none
  | .directory, some dol =>
    let backing := FileEntry.zeroed a.addr dol .app
    some { backing with extra := { backing.extra with standaloneBnr := true }, useBanner := true }
  | .directory, none | .program, _ =>
    let backing := FileEntry.zeroed a.addr e.path e.type
    let name := (baseName e.path).take (bnrFullTextLen - 1)
    let text := if e.type = .program then homebrewProgram else directoryText
    some { backing with desc := { backing.desc with
      fullGameName := overwrite backing.desc.fullGameName (name ++ [0])
      description := overwrite backing.desc.description (text ++ [0]) } }
  | .unknown, _ | .app, _ => none

/-- One path of `gm_check_files`; `armed` is `gm_scan_is_last_played`. -/
def gmCheckFile (ld : Loader) (armed : Bool) (e : PathEntry) (a : CheckAnswer) : Loader :=
  match newEntry e a with
  | none => ld
  | some backing =>
    if backing.bearsBanner then
      let evict := ld.evictOnScroll || decide (assetBufferCount ≤ Slots.usedCount ld.pool.used)
      if !evict && !armed then
        let (_, backing, pool) := gmLoadBanner a.fetched backing ld.pool
        ⟨ld.entries ++ [backing], pool, evict⟩
      else ⟨ld.entries ++ [backing], ld.pool, evict⟩
    else { ld with entries := ld.entries ++ [backing] }

def FileEntry.pairs (e e2 : FileEntry) : Bool :=
  e.type = .game ∧ e.extra.discNum ≠ 0 ∧ e2.type = .game ∧ e.extra.gameId = e2.extra.gameId ∧
    e.extra.discNum ≠ e2.extra.discNum

/-- One pair of indices of the multi-disc search. -/
def pairAt (entries : List FileEntry) (i j : Nat) : List FileEntry :=
  match entries[i]?, entries[j]? with
  | some e, some e2 =>
    if i ≠ j ∧ e.pairs e2 then
      (entries.set i { e with second := some j }).set j { e2 with second := some i }
    else entries
  | _, _ => entries

def gmFindMultiDisc (entries : List FileEntry) : List FileEntry :=
  (List.range entries.length).foldl
    (fun es i => (List.range entries.length).foldl (fun es j => pairAt es i j) es) entries

/-! ## Loads and frees -/

def Loader.loadAt (ld : Loader) (i : Nat) (fetched : Option Fetched) : Loader :=
  match ld.entries[i]? with
  | some e =>
    if e.bearsBanner then
      let (_, e, pool) := gmLoadBanner fetched e ld.pool
      { ld with entries := ld.entries.set i e, pool := pool }
    else ld
  | none => ld

def Loader.freeAt (ld : Loader) (i : Nat) : Loader :=
  match ld.entries[i]? with
  | some e =>
    if e.bearsBanner then
      let (e, pool) := gmBannerFree e ld.pool
      { ld with entries := ld.entries.set i e, pool := pool }
    else ld
  | none => ld

/-- The entries of a line, up to the end of the list. -/
def Loader.lineIndices (ld : Loader) (columnsPerLine lineNum : Nat) : List Nat :=
  ((List.range columnsPerLine).map (lineNum * columnsPerLine + ·)).filter (· < ld.entries.length)

def Loader.loadAll (ld : Loader) (fetch : Nat → Option Fetched) (is : List Nat) : Loader :=
  is.foldl (fun ld i => ld.loadAt i (fetch i)) ld

def Loader.freeAll (ld : Loader) (is : List Nat) : Loader := is.foldl Loader.freeAt ld

variable (columnsPerLine : Nat)

def gmBgLoadLine (fetch : Nat → Option Fetched) (ld : Loader) (lineNum : Nat) : Loader :=
  ld.loadAll fetch (ld.lineIndices columnsPerLine lineNum)

/-- Outside the sliding window everything is resident already. -/
def gmLineLoad (fetch : Nat → Option Fetched) (ld : Loader) (lineNum : Nat) : Loader :=
  if ld.evictOnScroll then ld.loadAll fetch (ld.lineIndices columnsPerLine lineNum) else ld

def gmLineFree (ld : Loader) (lineNum : Nat) : Loader :=
  if ld.evictOnScroll then ld.freeAll (ld.lineIndices columnsPerLine lineNum) else ld

/-- The line `gm_line_changed(delta)` frees and the line it loads, with the
window's top now at `newLineNum`; `down` is `delta > 0`. -/
def linesChanged (numberOfLines newLineNum : Nat) (down : Bool) : Option Nat × Option Nat :=
  if down then
    (if preloadLineCount ≤ newLineNum then some (newLineNum - preloadLineCount) else none,
      let loadLine := newLineNum + drawTotalRows + preloadLineCount - 1
      if loadLine < numberOfLines then some loadLine else none)
  else
    (let unloadLine := newLineNum + drawTotalRows + preloadLineCount
      if unloadLine < numberOfLines then some unloadLine else none,
      if preloadLineCount ≤ newLineNum + 1 then some (newLineNum + 1 - preloadLineCount) else none)

/-- Freed before the load, so that the load finds the buffers. -/
def gmLineUnload (ld : Loader) (unload : Option Nat) : Loader :=
  match unload with
  | some l => gmLineFree columnsPerLine ld l
  | none => ld

def gmLineBringIn (fetch : Nat → Option Fetched) (ld : Loader) (toLoad : Option Nat) : Loader :=
  match toLoad with
  | some l => gmLineLoad columnsPerLine fetch ld l
  | none => ld

def gmLineChanged (fetch : Nat → Option Fetched) (numberOfLines newLineNum : Nat) (down : Bool)
    (ld : Loader) : Loader :=
  let (unload, toLoad) := linesChanged numberOfLines newLineNum down
  gmLineBringIn columnsPerLine fetch (gmLineUnload columnsPerLine ld unload) toLoad

/-! ## What holds of every entry -/

/-- A banner is loaded exactly while it has a buffer, no banner is left in
transfer, and an entry that takes a buffer has a banner to read. -/
structure EntryOk (e : FileEntry) : Prop where
  held : e.banner.state = .loaded ↔ e.banner.buf ≠ none
  settled : e.banner.state ≠ .setup ∧ e.banner.state ≠ .unloading
  source : e.bearsBanner = true → e.extra.standaloneBnr = true ∨ e.extra.dvdBnrOffset ≠ 0

/-- The pool slot each entry holds. -/
def Loader.own (ld : Loader) (i : Nat) : Option Nat := (ld.entries[i]?).bind fun e => e.banner.buf

structure LoaderOk (ld : Loader) : Prop where
  entries : ∀ e ∈ ld.entries, EntryOk e
  owns : Slots.Owns ld.pool.used ld.own
  slots : ld.pool.used.length = assetBufferCount

/-- Entry `i` is one that bears a banner and has it loaded. -/
def Loader.Loaded (ld : Loader) (i : Nat) : Prop :=
  ∃ e, ld.entries[i]? = some e ∧ e.banner.state = .loaded

/-- Entry `i` bears a banner. -/
def Loader.Bears (ld : Loader) (i : Nat) : Prop := ∃ e, ld.entries[i]? = some e ∧ e.bearsBanner = true

theorem noteBnrType_same (e : FileEntry) (f : Fetched) :
    (e.noteBnrType f).banner = e.banner ∧ (e.noteBnrType f).type = e.type ∧
      (e.noteBnrType f).extra.standaloneBnr = e.extra.standaloneBnr ∧
      (e.noteBnrType f).extra.dvdBnrOffset = e.extra.dvdBnrOffset := by
  rw [FileEntry.noteBnrType]
  split <;> exact ⟨rfl, rfl, rfl, rfl⟩

theorem showBanner_same (e : FileEntry) (k : Nat) (bnr : Bnr) :
    (e.showBanner k bnr).banner = { e.banner with state := .loaded, buf := some k } ∧
      (e.showBanner k bnr).type = e.type ∧ (e.showBanner k bnr).extra = e.extra := by
  simp only [FileEntry.showBanner]
  split <;> exact ⟨rfl, rfl, rfl⟩

/-- What no load changes: the type, and where the banner is. -/
structure SameSource (e e' : FileEntry) : Prop where
  type : e'.type = e.type
  standalone : e'.extra.standaloneBnr = e.extra.standaloneBnr
  offset : e'.extra.dvdBnrOffset = e.extra.dvdBnrOffset

theorem SameSource.bears {e e' : FileEntry} (h : SameSource e e') : e'.bearsBanner = e.bearsBanner := by
  simp only [FileEntry.bearsBanner, h.type]

/-- All that a banner load can do: nothing; fail for want of a buffer; or take
the first free buffer. -/
theorem gmLoadBanner_cases (fetched : Option Fetched) (e : FileEntry) (p : BannerPool) :
    let r := gmLoadBanner fetched e p
    SameSource e r.2.1 ∧
    ((r.2 = (e, p) ∧ (e.banner.state = .loaded ∨ fetched = none ∨
        (e.extra.standaloneBnr = false ∧ e.extra.dvdBnrOffset = 0))) ∨
      (e.banner.state ≠ .loaded ∧ Slots.takeFirst p.used = none ∧ r.2.2 = p ∧
        r.2.1.banner = { e.banner with state := .loading }) ∨
      ∃ k used, e.banner.state ≠ .loaded ∧ Slots.takeFirst p.used = some (k, used) ∧ r.2.2.used = used ∧
        r.2.1.banner = { e.banner with state := .loaded, buf := some k }) := by
  simp only [gmLoadBanner]
  split
  · rename_i hsrc
    refine ⟨⟨rfl, rfl, rfl⟩, .inl ⟨rfl, .inr (.inr ?_)⟩⟩
    simpa using hsrc
  · split
    · rename_i hl
      exact ⟨⟨rfl, rfl, rfl⟩, .inl ⟨rfl, .inl hl⟩⟩
    · rename_i hnl
      cases fetched with
      | none => exact ⟨⟨rfl, rfl, rfl⟩, .inl ⟨rfl, .inr (.inl rfl)⟩⟩
      | some f =>
        obtain ⟨hban, htype, hstd, hoff⟩ := noteBnrType_same e f
        dsimp only
        cases ht : Slots.takeFirst p.used with
        | none => exact ⟨⟨htype, hstd, hoff⟩, .inr (.inl ⟨hnl, rfl, rfl, by simp only [hban]⟩)⟩
        | some t =>
          obtain ⟨k, used⟩ := t
          obtain ⟨hban', htype', hextra'⟩ := showBanner_same
            { e.noteBnrType f with banner := { (e.noteBnrType f).banner with state := .loading } } k f.bnr
          refine ⟨⟨htype'.trans htype, ?_, ?_⟩, .inr (.inr ⟨k, used, hnl, rfl, rfl, ?_⟩)⟩
          · rw [hextra', hstd]
          · rw [hextra', hoff]
          · rw [hban', hban]

/-- All that a free can do to an entry that is not in transfer. -/
theorem gmBannerFree_cases {e : FileEntry} (h : EntryOk e) (p : BannerPool) :
    let r := gmBannerFree e p
    r.1.bearsBanner = e.bearsBanner ∧ r.1.extra = e.extra ∧ r.1.banner.state ≠ .loaded ∧
    r.1.banner.buf = none ∧ r.1.banner.state ≠ .setup ∧ r.1.banner.state ≠ .unloading ∧
    ((e.banner.buf = none ∧ r.2 = p) ∨
      ∃ k, e.banner.buf = some k ∧ r.2.used = Slots.release p.used k) := by
  obtain ⟨hs1, hs2⟩ := h.settled
  have hheld := h.held
  simp only [gmBannerFree]
  cases hst : e.banner.state with
  | setup => exact absurd hst hs1
  | unloading => exact absurd hst hs2
  | none | loading =>
    have hbuf : e.banner.buf = none := by
      by_contra hne
      have := hheld.mpr hne
      rw [hst] at this
      cases this
    exact ⟨rfl, rfl, by simp [hst], hbuf, by simp [hst], by simp [hst], .inl ⟨hbuf, rfl⟩⟩
  | unloaded | loaded =>
    cases hbuf : e.banner.buf with
    | none => exact ⟨rfl, rfl, by simp, rfl, by simp, by simp, .inl ⟨rfl, rfl⟩⟩
    | some k => exact ⟨rfl, rfl, by simp, rfl, by simp, by simp, .inr ⟨k, rfl, rfl⟩⟩

/-! ## One load, one free -/

theorem own_set {ld : Loader} {i : Nat} (hi : i < ld.entries.length) (e : FileEntry) (pool : BannerPool) :
    ({ ld with entries := ld.entries.set i e, pool := pool } : Loader).own =
      Function.update ld.own i e.banner.buf := by
  funext j
  by_cases hj : j = i
  · subst hj
    simp [Loader.own, hi]
  · rw [Function.update_of_ne hj]
    simp [Loader.own, List.getElem?_set_ne (Ne.symm hj)]

theorem entries_set_ok {ld : Loader} (h : LoaderOk ld) {i : Nat} {e : FileEntry} (he : EntryOk e) :
    ∀ e' ∈ ld.entries.set i e, EntryOk e' := by
  intro e' he'
  obtain hm | rfl := List.mem_or_eq_of_mem_set he'
  · exact h.entries e' hm
  · exact he

theorem loadAt_entries_length (ld : Loader) (i : Nat) (f : Option Fetched) :
    (ld.loadAt i f).entries.length = ld.entries.length := by
  simp only [Loader.loadAt]
  split
  · split
    · simp
    · rfl
  · rfl

theorem loadAt_evict (ld : Loader) (i : Nat) (f : Option Fetched) :
    (ld.loadAt i f).evictOnScroll = ld.evictOnScroll := by
  simp only [Loader.loadAt]
  split
  · split <;> rfl
  · rfl

/-- A load touches one entry. -/
theorem loadAt_other (ld : Loader) {i j : Nat} (hij : j ≠ i) (f : Option Fetched) :
    (ld.loadAt i f).entries[j]? = ld.entries[j]? := by
  simp only [Loader.loadAt]
  split
  · split
    · exact List.getElem?_set_ne (Ne.symm hij)
    · rfl
  · rfl

theorem loadAt_bears (ld : Loader) (i j : Nat) (f : Option Fetched) :
    (ld.loadAt i f).Bears j ↔ ld.Bears j := by
  by_cases hij : j = i
  · subst hij
    simp only [Loader.loadAt]
    split
    · rename_i e he
      split
      · have hb := (gmLoadBanner_cases f e ld.pool).1.bears
        obtain ⟨hlen, hget⟩ := List.getElem?_eq_some_iff.mp he
        simp [Loader.Bears, hlen, hget, hb]
      · rfl
    · rfl
  · simp only [Loader.Bears, loadAt_other ld hij f]

theorem loadAt_ok {ld : Loader} (h : LoaderOk ld) (i : Nat) (f : Option Fetched) :
    LoaderOk (ld.loadAt i f) := by
  simp only [Loader.loadAt]
  split
  · rename_i e he
    split
    · have hlen := (List.getElem?_eq_some_iff.mp he).1
      have hok := h.entries e (List.mem_of_getElem? he)
      have hown : ld.own i = e.banner.buf := by simp [Loader.own, he]
      obtain ⟨hsame, hcases⟩ := gmLoadBanner_cases f e ld.pool
      generalize gmLoadBanner f e ld.pool = r at hsame hcases ⊢
      obtain ⟨ret, e', p⟩ := r
      dsimp only at hsame hcases ⊢
      have hsource : e'.bearsBanner = true → e'.extra.standaloneBnr = true ∨ e'.extra.dvdBnrOffset ≠ 0 := by
        rw [hsame.bears, hsame.standalone, hsame.offset]
        exact hok.source
      obtain ⟨heq, -⟩ | ⟨hnl, -, rfl, hban⟩ | ⟨k, used, hnl, htake, hused, hban⟩ := hcases
      · -- nothing happened
        obtain ⟨rfl, rfl⟩ := Prod.mk.inj heq
        refine ⟨entries_set_ok h hok, ?_, h.slots⟩
        rw [own_set hlen, ← hown, Function.update_eq_self]
        exact h.owns
      · -- no buffer: the entry is left `loading`, without one
        have hnone : e.banner.buf = none := by
          by_contra hne
          exact hnl (hok.held.mpr hne)
        have he' : EntryOk e' := ⟨by simp [hban, hnone], by simp [hban], hsource⟩
        refine ⟨entries_set_ok h he', ?_, h.slots⟩
        rw [own_set hlen, hban, ← hown, Function.update_eq_self]
        exact h.owns
      · have he' : EntryOk e' := ⟨by simp [hban], by simp [hban], hsource⟩
        refine ⟨entries_set_ok h he', ?_, ?_⟩
        · rw [own_set hlen, hban, hused]
          exact Slots.owns_take h.owns htake
        · rw [hused, Slots.length_take htake, h.slots]
    · exact h
  · exact h

/-- What is loaded stays loaded. -/
theorem loadAt_mono {ld : Loader} {i j : Nat} (f : Option Fetched) (hj : ld.Loaded j) :
    (ld.loadAt i f).Loaded j := by
  by_cases hij : j = i
  · subst hij
    obtain ⟨e, he, hl⟩ := hj
    simp only [Loader.loadAt, he]
    split
    · have hlen := (List.getElem?_eq_some_iff.mp he).1
      obtain ⟨-, hcases⟩ := gmLoadBanner_cases f e ld.pool
      obtain ⟨heq, -⟩ | ⟨hnl, -⟩ | ⟨_, _, hnl, -⟩ := hcases
      · refine ⟨e, ?_, hl⟩
        simp [hlen, congrArg Prod.fst heq]
      · exact absurd hl hnl
      · exact absurd hl hnl
    · exact ⟨e, he, hl⟩
  · obtain ⟨e, he, hl⟩ := hj
    exact ⟨e, (loadAt_other ld hij f).trans he, hl⟩

/-- A load of a readable banner succeeds if the banner is there or a buffer is free. -/
theorem loadAt_loaded {ld : Loader} (h : LoaderOk ld) {i : Nat} {f : Fetched} (hb : ld.Bears i)
    (hfree : ld.Loaded i ∨ 0 < Slots.freeCount ld.pool.used) : (ld.loadAt i (some f)).Loaded i := by
  obtain ⟨e, he, hbe⟩ := hb
  have hlen := (List.getElem?_eq_some_iff.mp he).1
  have hsrc := (h.entries e (List.mem_of_getElem? he)).source hbe
  obtain ⟨-, hcases⟩ := gmLoadBanner_cases (some f) e ld.pool
  simp only [Loader.loadAt, he, hbe, if_true]
  obtain ⟨heq, hl | hn | ⟨hs, ho⟩⟩ | ⟨hnl, htake, -, -⟩ | ⟨k, used, -, -, -, hban⟩ := hcases
  · exact ⟨e, by simp [hlen, congrArg Prod.fst heq], hl⟩
  · cases hn
  · obtain hs' | ho' := hsrc
    · simp [hs] at hs'
    · exact absurd ho ho'
  · obtain ⟨e', he', hl⟩ | hpos := hfree
    · obtain rfl : e = e' := Option.some.inj (he.symm.trans he')
      exact absurd hl hnl
    · have := (Slots.takeFirst_isSome ld.pool.used).mpr hpos
      simp [htake] at this
  · refine ⟨_, List.getElem?_set_self hlen, ?_⟩
    rw [hban]

/-- A load takes at most one buffer, and none for what is loaded or bears no banner. -/
theorem loadAt_free (ld : Loader) (i : Nat) (f : Option Fetched) :
    Slots.freeCount ld.pool.used ≤ Slots.freeCount (ld.loadAt i f).pool.used + 1 ∧
      (ld.Loaded i ∨ ¬ ld.Bears i →
        Slots.freeCount (ld.loadAt i f).pool.used = Slots.freeCount ld.pool.used) := by
  simp only [Loader.loadAt]
  split
  · rename_i e he
    split
    · rename_i hbe
      obtain ⟨-, hcases⟩ := gmLoadBanner_cases f e ld.pool
      obtain ⟨heq, -⟩ | ⟨hnl, -, hp, -⟩ | ⟨k, used, hnl, htake, hused, -⟩ := hcases
      · simp [congrArg Prod.snd heq]
      · simp [hp]
      · rw [hused]
        have := Slots.freeCount_take htake
        refine ⟨by omega, fun hor => ?_⟩
        obtain ⟨e', he', hl⟩ | hnb := hor
        · obtain rfl : e = e' := Option.some.inj (he.symm.trans he')
          exact absurd hl hnl
        · exact absurd ⟨e, he, hbe⟩ hnb
    · simp
  · simp

/-- What a free of the entries `is` does. -/
structure Freed (ld ld' : Loader) (is : List Nat) : Prop where
  ok : LoaderOk ld'
  length : ld'.entries.length = ld.entries.length
  other : ∀ j, j ∉ is → ld'.entries[j]? = ld.entries[j]?
  bears : ∀ j, ld'.Bears j ↔ ld.Bears j
  evict : ld'.evictOnScroll = ld.evictOnScroll

theorem freeAt_spec {ld : Loader} (h : LoaderOk ld) (i : Nat) : Freed ld (ld.freeAt i) [i] := by
  simp only [Loader.freeAt]
  split
  · rename_i e he
    split
    · obtain ⟨hlen, hget⟩ := List.getElem?_eq_some_iff.mp he
      have hok := h.entries e (List.mem_of_getElem? he)
      have hown : ld.own i = e.banner.buf := by simp [Loader.own, he]
      obtain ⟨hb, hextra, hnl, hnone, hns, hnu, hcases⟩ := gmBannerFree_cases hok ld.pool
      generalize gmBannerFree e ld.pool = r at hb hextra hnl hnone hns hnu hcases ⊢
      obtain ⟨e', p⟩ := r
      dsimp only at hb hextra hnl hnone hns hnu hcases ⊢
      have he' : EntryOk e' := ⟨by simp [hnl, hnone], ⟨hns, hnu⟩, by rw [hb, hextra]; exact hok.source⟩
      refine ⟨⟨entries_set_ok h he', ?_, ?_⟩, List.length_set, fun j hj => ?_, fun j => ?_, rfl⟩
      · rw [own_set hlen, hnone]
        obtain ⟨hbuf, rfl⟩ | ⟨k, hbuf, hrel⟩ := hcases
        · rw [← hbuf, ← hown, Function.update_eq_self]
          exact h.owns
        · rw [hrel]
          exact Slots.owns_release h.owns (hown.trans hbuf)
      · obtain ⟨-, rfl⟩ | ⟨k, -, hrel⟩ := hcases
        · exact h.slots
        · rw [hrel, Slots.release, List.length_set, h.slots]
      · exact List.getElem?_set_ne fun he : i = j => hj (he ▸ List.mem_singleton_self i)
      · by_cases hj : j = i
        · subst hj
          simp [Loader.Bears, hlen, hget, hb]
        · simp only [Loader.Bears, List.getElem?_set_ne (Ne.symm hj)]
    · exact ⟨h, rfl, fun _ _ => rfl, fun _ => Iff.rfl, rfl⟩
  · exact ⟨h, rfl, fun _ _ => rfl, fun _ => Iff.rfl, rfl⟩

/-! ## A line's worth of them -/

theorem mem_lineIndices {ld : Loader} {cols line i : Nat} (hc : 0 < cols) :
    i ∈ ld.lineIndices cols line ↔ i / cols = line ∧ i < ld.entries.length := by
  simp only [Loader.lineIndices, List.mem_filter, List.mem_map, List.mem_range, decide_eq_true_eq]
  constructor
  · rintro ⟨⟨c, hlt, rfl⟩, hi⟩
    refine ⟨?_, hi⟩
    rw [Nat.mul_comm, Nat.mul_add_div hc, Nat.div_eq_of_lt hlt, Nat.add_zero]
  · rintro ⟨rfl, hi⟩
    refine ⟨⟨i % cols, Nat.mod_lt i hc, ?_⟩, hi⟩
    rw [Nat.mul_comm]
    exact Nat.div_add_mod i cols

theorem lineIndices_nodup (ld : Loader) (cols line : Nat) : (ld.lineIndices cols line).Nodup := by
  apply List.Nodup.filter
  apply List.Nodup.map (fun a b hab => Nat.add_left_cancel hab)
  exact List.nodup_range

/-- The entries among `is` that a load would need a buffer for. -/
def Loader.missing (ld : Loader) (is : List Nat) : Nat :=
  is.countP fun i =>
    match ld.entries[i]? with
    | some e => e.bearsBanner && decide (e.banner.state ≠ .loaded)
    | none => false

theorem missing_cons (ld : Loader) (i : Nat) (is : List Nat) :
    (ld.missing (i :: is) = ld.missing is + 1 ∧ ld.Bears i ∧ ¬ ld.Loaded i) ∨
      (ld.missing (i :: is) = ld.missing is ∧ (ld.Loaded i ∨ ¬ ld.Bears i)) := by
  simp only [Loader.missing, List.countP_cons, Loader.Bears, Loader.Loaded]
  cases he : ld.entries[i]? with
  | none => right; simp
  | some e =>
    by_cases hb : e.bearsBanner = true <;> by_cases hl : e.banner.state = .loaded <;> simp [hb, hl]

theorem missing_congr {ld ld' : Loader} {is : List Nat}
    (h : ∀ i ∈ is, ld'.entries[i]? = ld.entries[i]?) : ld'.missing is = ld.missing is := by
  apply List.countP_congr
  intro i hi
  rw [h i hi]

theorem loadAll_ok {ld : Loader} (h : LoaderOk ld) (fetch : Nat → Option Fetched) (is : List Nat) :
    LoaderOk (ld.loadAll fetch is) := by
  induction is generalizing ld with
  | nil => exact h
  | cons i is ih => exact ih (loadAt_ok h i (fetch i))

/-- Loads change neither which entries there are nor which bear a banner. -/
theorem loadAll_same (ld : Loader) (fetch : Nat → Option Fetched) (is : List Nat) :
    (ld.loadAll fetch is).entries.length = ld.entries.length ∧
      (ld.loadAll fetch is).evictOnScroll = ld.evictOnScroll ∧
      (∀ j, (ld.loadAll fetch is).Bears j ↔ ld.Bears j) ∧
      ∀ j, j ∉ is → (ld.loadAll fetch is).entries[j]? = ld.entries[j]? := by
  induction is generalizing ld with
  | nil => exact ⟨rfl, rfl, fun _ => Iff.rfl, fun _ _ => rfl⟩
  | cons i is ih =>
    obtain ⟨h1, h2, h3, h4⟩ := ih (ld.loadAt i (fetch i))
    refine ⟨h1.trans (loadAt_entries_length ..), h2.trans (loadAt_evict ..),
      fun j => (h3 j).trans (loadAt_bears ..), fun j hj => ?_⟩
    have hne : j ≠ i := fun he => hj (he ▸ List.mem_cons_self)
    exact (h4 j fun hm => hj (List.mem_cons_of_mem i hm)).trans (loadAt_other ld hne _)

theorem loadAll_mono {ld : Loader} {j : Nat} (fetch : Nat → Option Fetched) (is : List Nat)
    (hj : ld.Loaded j) : (ld.loadAll fetch is).Loaded j := by
  induction is generalizing ld with
  | nil => exact hj
  | cons i is ih => exact ih (loadAt_mono (fetch i) hj)

/-- With a buffer for every banner that misses one, and every banner readable,
all of them are loaded. -/
theorem loadAll_loaded {ld : Loader} (h : LoaderOk ld) {fetch : Nat → Option Fetched} {is : List Nat}
    (hnd : is.Nodup) (hread : ∀ i ∈ is, (fetch i).isSome) (hfree : ld.missing is ≤ Slots.freeCount ld.pool.used) :
    ∀ i ∈ is, ld.Bears i → (ld.loadAll fetch is).Loaded i := by
  induction is generalizing ld with
  | nil => intro i hi; cases hi
  | cons i is ih =>
    obtain ⟨hnot, hnd'⟩ := List.nodup_cons.mp hnd
    obtain ⟨f, hf⟩ := Option.isSome_iff_exists.mp (hread i List.mem_cons_self)
    have hfree1 := loadAt_free ld i (fetch i)
    -- loading `i` costs at most the buffer `i` was counted for
    have hrest : (ld.loadAt i (fetch i)).missing is ≤ Slots.freeCount (ld.loadAt i (fetch i)).pool.used := by
      rw [missing_congr fun j hj => loadAt_other ld (fun he : j = i => hnot (he ▸ hj)) _]
      obtain ⟨hm, -, -⟩ | ⟨hm, hq⟩ := missing_cons ld i is
      · have := hfree1.1
        omega
      · have := hfree1.2 hq
        omega
    intro j hj hb
    obtain rfl | hj' := List.mem_cons.mp hj
    · have hl : (ld.loadAt j (fetch j)).Loaded j := by
        rw [hf]
        apply loadAt_loaded h hb
        obtain ⟨hm, -, -⟩ | ⟨-, hq | hq⟩ := missing_cons ld j is
        · right; omega
        · exact .inl hq
        · exact absurd hb hq
      exact loadAll_mono fetch is hl
    · exact ih (loadAt_ok h i (fetch i)) hnd' (fun k hk => hread k (List.mem_cons_of_mem i hk)) hrest j hj'
        ((loadAt_bears ..).mpr hb)

theorem freeAll_spec {ld : Loader} (h : LoaderOk ld) (is : List Nat) : Freed ld (ld.freeAll is) is := by
  induction is generalizing ld with
  | nil => exact ⟨h, rfl, fun _ _ => rfl, fun _ => Iff.rfl, rfl⟩
  | cons i is ih =>
    have h1 := freeAt_spec h i
    have h2 := ih h1.ok
    refine ⟨h2.ok, h2.length.trans h1.length, fun j hj => ?_, fun j => (h2.bears j).trans (h1.bears j),
      h2.evict.trans h1.evict⟩
    have hne : j ∉ [i] := fun hm => hj (List.mem_singleton.mp hm ▸ List.mem_cons_self)
    exact (h2.other j fun hm => hj (List.mem_cons_of_mem i hm)).trans (h1.other j hne)

theorem Freed.refl {ld : Loader} (h : LoaderOk ld) (is : List Nat) : Freed ld ld is :=
  ⟨h, rfl, fun _ _ => rfl, fun _ => Iff.rfl, rfl⟩

theorem Freed.loaded {ld ld' : Loader} {is : List Nat} (h : Freed ld ld' is) {j : Nat} (hj : j ∉ is)
    (hl : ld.Loaded j) : ld'.Loaded j := by
  obtain ⟨e, he, hs⟩ := hl
  exact ⟨e, (h.other j hj).trans he, hs⟩

/-- The entries of the line to free. -/
def Loader.unloadIndices (ld : Loader) (cols : Nat) : Option Nat → List Nat
  | some l => ld.lineIndices cols l
  | none => []

theorem gmLineUnload_freed {ld : Loader} (h : LoaderOk ld) (cols : Nat) (unload : Option Nat) :
    Freed ld (gmLineUnload cols ld unload) (ld.unloadIndices cols unload) := by
  cases unload with
  | none => exact .refl h _
  | some l =>
    simp only [gmLineUnload, gmLineFree, Loader.unloadIndices]
    split
    · exact freeAll_spec h _
    · exact .refl h _

/-- Outside the sliding window nothing is freed. -/
theorem gmLineUnload_resident {ld : Loader} (cols : Nat) (unload : Option Nat)
    (hev : ld.evictOnScroll = false) : gmLineUnload cols ld unload = ld := by
  cases unload with
  | none => rfl
  | some l => simp [gmLineUnload, gmLineFree, hev]

theorem gmLineBringIn_resident {ld : Loader} (cols : Nat) (fetch : Nat → Option Fetched)
    (toLoad : Option Nat) (hev : ld.evictOnScroll = false) : gmLineBringIn cols fetch ld toLoad = ld := by
  cases toLoad with
  | none => rfl
  | some l => simp [gmLineBringIn, gmLineLoad, hev]

theorem linesChanged_down (n new : Nat) : linesChanged n new true =
    (if 2 ≤ new then some (new - 2) else none, if new + 5 < n then some (new + 5) else none) := rfl

theorem linesChanged_up (n new : Nat) : linesChanged n new false =
    (if new + 6 < n then some (new + 6) else none, if 2 ≤ new + 1 then some (new - 1) else none) := rfl

/-- A list with room for all its missing banners keeps it while any of it loads. -/
theorem loadAll_room {ld : Loader} (h : LoaderOk ld) {fetch : Nat → Option Fetched}
    (hread : ∀ i, (fetch i).isSome) {all : List Nat} (hnd : all.Nodup) {is : List Nat} (hsub : is ⊆ all)
    (hroom : ld.missing all ≤ Slots.freeCount ld.pool.used) :
    (ld.loadAll fetch is).missing all ≤ Slots.freeCount (ld.loadAll fetch is).pool.used := by
  induction is generalizing ld with
  | nil => exact hroom
  | cons i is ih =>
    apply ih (loadAt_ok h i (fetch i)) (List.subset_of_cons_subset hsub)
    obtain ⟨f, hf⟩ := Option.isSome_iff_exists.mp (hread i)
    -- bring `i` to the front of the list
    have hperm : all.Perm (i :: all.erase i) := List.perm_cons_erase (hsub List.mem_cons_self)
    have hnot : i ∉ all.erase i := hnd.not_mem_erase
    have hcount : ∀ ld' : Loader, ld'.missing all = ld'.missing (i :: all.erase i) := fun ld' =>
      hperm.countP_eq _
    have hrest : (ld.loadAt i (fetch i)).missing (all.erase i) = ld.missing (all.erase i) :=
      missing_congr fun j hj => loadAt_other ld (fun he : j = i => hnot (he ▸ hj)) _
    have hfree := loadAt_free ld i (fetch i)
    rw [hcount] at hroom ⊢
    obtain ⟨hm, hb, -⟩ | ⟨hm, hq⟩ := missing_cons ld i (all.erase i)
    · have hl : (ld.loadAt i (fetch i)).Loaded i := by
        rw [hf]
        exact loadAt_loaded h hb (.inr (by omega))
      obtain ⟨-, -, hnl⟩ | ⟨hm', -⟩ := missing_cons (ld.loadAt i (fetch i)) i (all.erase i)
      · exact absurd hl hnl
      · have := hfree.1
        omega
    · have hq' : (ld.loadAt i (fetch i)).Loaded i ∨ ¬ (ld.loadAt i (fetch i)).Bears i :=
        hq.imp (loadAt_mono (fetch i)) fun hnb hb => hnb ((loadAt_bears ..).mp hb)
      have := hfree.2 hq
      obtain ⟨-, hb, hnl⟩ | ⟨hm', -⟩ := missing_cons (ld.loadAt i (fetch i)) i (all.erase i)
      · exact absurd hq' (by simp [hb, hnl])
      · omega

theorem missing_le_of_subset {ld : Loader} {is all : List Nat} (hnd : is.Nodup) (hsub : is ⊆ all) :
    ld.missing is ≤ ld.missing all :=
  (List.subperm_of_subset hnd hsub).countP_le _

/-! ## What the scan of one path does -/

/-- The entry a path becomes owns nothing yet, and has its banner's place. -/
theorem newEntry_ok {e : PathEntry} {a : CheckAnswer} {b : FileEntry} (h : newEntry e a = some b) :
    EntryOk b ∧ b.banner.state = .none ∧ b.banner.buf = none := by
  simp only [newEntry] at h
  split at h
  · split at h
    · rename_i hv
      cases h
      exact ⟨⟨by simp [gmSetTitleFromPath, FileEntry.zeroed], by simp [gmSetTitleFromPath, FileEntry.zeroed],
        fun _ => .inr (a.info.2 hv)⟩, rfl, rfl⟩
    · cases h
  · cases h
    exact ⟨⟨by simp [FileEntry.zeroed], by simp [FileEntry.zeroed], fun _ => .inl rfl⟩, rfl, rfl⟩
  · rename_i ht _
    cases h
    exact ⟨⟨by simp [FileEntry.zeroed], by simp [FileEntry.zeroed],
      fun hb => by simp [FileEntry.bearsBanner, FileEntry.zeroed, ht] at hb⟩, rfl, rfl⟩
  · rename_i ht
    cases h
    exact ⟨⟨by simp [FileEntry.zeroed], by simp [FileEntry.zeroed],
      fun hb => by simp [FileEntry.bearsBanner, FileEntry.zeroed, ht] at hb⟩, rfl, rfl⟩
  · cases h
  · cases h

def Loader.append (ld : Loader) (b : FileEntry) : Loader := { ld with entries := ld.entries ++ [b] }

/-- All that the scan of one path can do to the list. -/
theorem gmCheckFile_cases (ld : Loader) (armed : Bool) (e : PathEntry) (a : CheckAnswer) :
    gmCheckFile ld armed e a = ld ∨ ∃ b, newEntry e a = some b ∧
      ((b.bearsBanner = false ∧ gmCheckFile ld armed e a = ld.append b) ∨
        (b.bearsBanner = true ∧
          (ld.evictOnScroll = true ∨ assetBufferCount ≤ Slots.usedCount ld.pool.used) ∧
          gmCheckFile ld armed e a = { ld.append b with evictOnScroll := true }) ∨
        (b.bearsBanner = true ∧ ld.evictOnScroll = false ∧ Slots.usedCount ld.pool.used < assetBufferCount ∧
          gmCheckFile ld armed e a =
            if armed then ld.append b else (ld.append b).loadAt ld.entries.length a.fetched)) := by
  rw [gmCheckFile]
  cases hb : newEntry e a with
  | none => exact .inl rfl
  | some b =>
    refine .inr ⟨b, rfl, ?_⟩
    cases hbears : b.bearsBanner with
    | false => exact .inl ⟨rfl, by simp [Loader.append, hbears]⟩
    | true =>
      right
      simp only [hbears, if_true, true_and]
      cases hev : ld.evictOnScroll with
      | true => exact .inl ⟨.inl rfl, by simp [Loader.append]⟩
      | false =>
        by_cases hfull : assetBufferCount ≤ Slots.usedCount ld.pool.used
        · exact .inl ⟨.inr hfull, by simp [hfull, Loader.append]⟩
        · refine .inr ⟨rfl, by omega, ?_⟩
          cases armed with
          | true => simp [hfull, Loader.append, hev]
          | false => simp [hfull, Loader.append, Loader.loadAt, hbears, hev]

theorem append_ok {ld : Loader} (h : LoaderOk ld) {b : FileEntry} (hb : EntryOk b)
    (hbuf : b.banner.buf = none) : LoaderOk (ld.append b) := by
  refine ⟨fun e he => ?_, ?_, h.slots⟩
  · obtain hm | hm := List.mem_append.mp he
    · exact h.entries e hm
    · exact List.mem_singleton.mp hm ▸ hb
  · apply Slots.owns_congr h.owns
    intro i
    obtain hlt | rfl | hgt := Nat.lt_trichotomy i ld.entries.length
    · simp [Loader.own, Loader.append, List.getElem?_append_left hlt]
    · simp [Loader.own, Loader.append, hbuf]
    · have h1 : (ld.entries ++ [b])[i]? = none := List.getElem?_eq_none (by simp; omega)
      have h2 : ld.entries[i]? = none := List.getElem?_eq_none (by omega)
      simp [Loader.own, Loader.append, h1, h2]

theorem append_old (ld : Loader) (b : FileEntry) {i : Nat} (hi : i < ld.entries.length) :
    (ld.append b).entries[i]? = ld.entries[i]? := List.getElem?_append_left hi

theorem append_new (ld : Loader) (b : FileEntry) : (ld.append b).entries[ld.entries.length]? = some b := by
  simp [Loader.append]

theorem bears_lt {ld : Loader} {i : Nat} (h : ld.Bears i) : i < ld.entries.length := by
  obtain ⟨e, he, -⟩ := h
  exact (List.getElem?_eq_some_iff.mp he).1

theorem append_bears {ld : Loader} {b : FileEntry} {i : Nat} (h : (ld.append b).Bears i) :
    ld.Bears i ∨ (i = ld.entries.length ∧ b.bearsBanner = true) := by
  have hlt := bears_lt h
  obtain ⟨e, he, hb⟩ := h
  simp only [Loader.append, List.length_append, List.length_singleton] at hlt
  by_cases hi : i = ld.entries.length
  · right
    rw [hi, append_new] at he
    exact ⟨hi, Option.some.inj he ▸ hb⟩
  · left
    rw [append_old ld b (by omega)] at he
    exact ⟨e, he, hb⟩

theorem append_loaded {ld : Loader} {i : Nat} (b : FileEntry) (h : ld.Loaded i) : (ld.append b).Loaded i := by
  obtain ⟨e, he, hl⟩ := h
  exact ⟨e, (append_old ld b (List.getElem?_eq_some_iff.mp he).1).trans he, hl⟩

theorem empty_ok : LoaderOk .empty :=
  ⟨fun e he => by simp [Loader.empty] at he,
    ⟨fun hk => by simp [Loader.own, Loader.empty] at hk, fun hk => by simp [Loader.own, Loader.empty] at hk⟩,
    by simp [Loader.empty, BannerPool.fresh]⟩

end Cubiboot
