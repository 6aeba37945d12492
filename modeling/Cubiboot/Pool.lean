import Cubiboot.Lib.Run
import Cubiboot.Background

/-
  The banner pool over a whole session: scans, folder changes, background loads
  of the last played game's folder, line loads and line frees, each one step, in
  any order and with any reads failing (`games.c`).

  What is proved:
    1. `poolStep_ok` — every step keeps `PoolOk`: loaded entries own slots in use,
       no two the same, and every slot in use has an owner that bears a banner.
    2. `scan_resident` — a scan whose list bears at most 128 banners never finds
       the pool full, since no slot in use is without an owner in the list.
    3. `pool_owned` — both, in every state of every session.

  Correspondence (C ↔ Lean):
    `gm_check_files`, the sorted paths being `found`   ↔ `gmCheckFiles`
    `gm_start_thread` (free all entries, reset pools)  ↔ `gmDropEntries`
    `gm_bg_load_last_played`                           ↔ `gmBgLoadLastPlayed`
-/

set_option autoImplicit false

namespace Cubiboot

/-- A scan that is cut short has seen fewer paths; `armed` is
`gm_scan_is_last_played`. -/
def gmCheckFiles (armed : Bool) (found : List (PathEntry × CheckAnswer)) (ld : Loader) : Loader :=
  let ld := { ld with evictOnScroll := false }
  let ld := found.foldl (fun ld p => gmCheckFile ld armed p.1 p.2) ld
  { ld with entries := gmFindMultiDisc ld.entries }

def gmDropEntries (ld : Loader) : Loader :=
  let ld := ld.freeAll (List.range ld.entries.length)
  { ld with entries := [], pool := .fresh }

/-- `stopRequested l` is what the enum mutex says before line `l` of the fill. -/
def gmBgLoadLastPlayed (columnsPerLine : Nat) (targetSlot : Int) (stopRequested : Nat → Bool)
    (fetch : Nat → Option Fetched) (ld : Loader) : Loader :=
  let resident := decide (ld.bannerCount ≤ assetBufferCount)
  let ld := { ld with evictOnScroll := !resident }
  let numberOfLines := linesFor columnsPerLine ld.entries.length
  let (first, last) := bgWindow columnsPerLine numberOfLines targetSlot
  let ld := (List.range' first (last + 1 - first)).foldl (gmBgLoadLine columnsPerLine fetch) ld
  if resident then
    let rest := (List.range numberOfLines).filter fun l => !decide (first ≤ l ∧ l ≤ last)
    (rest.takeWhile (!stopRequested ·)).foldl (gmBgLoadLine columnsPerLine fetch) ld
  else ld

/-- What touches the pool, with what the grid's layout is then and which reads
come through. -/
inductive PoolOp where
  | scan (armed : Bool) (found : List (PathEntry × CheckAnswer))
  | changeFolder
  | bgLoad (columnsPerLine : Nat) (targetSlot : Int) (stopRequested : Nat → Bool)
      (fetch : Nat → Option Fetched)
  | lineLoad (columnsPerLine lineNum : Nat) (fetch : Nat → Option Fetched)
  | lineFree (columnsPerLine lineNum : Nat)

def poolStep (ld : Loader) : PoolOp → Loader
  | .scan armed found => gmCheckFiles armed found ld
  | .changeFolder => gmDropEntries ld
  | .bgLoad columnsPerLine targetSlot stopRequested fetch =>
    gmBgLoadLastPlayed columnsPerLine targetSlot stopRequested fetch ld
  | .lineLoad columnsPerLine lineNum fetch => gmLineLoad columnsPerLine fetch ld lineNum
  | .lineFree columnsPerLine lineNum => gmLineFree columnsPerLine ld lineNum

/-! ## The invariant -/

structure PoolOk (ld : Loader) : Prop where
  ok : LoaderOk ld
  covers : Slots.Covers ld.pool.used ld.own
  bearers : ∀ i k, ld.own i = some k → ld.Bears i

theorem own_eq {ld : Loader} {i : Nat} {e : FileEntry} (he : ld.entries[i]? = some e) :
    ld.own i = e.banner.buf := by
  rw [Loader.own, he]
  rfl

theorem own_none {ld : Loader} (h : LoaderOk ld) {i : Nat} {e : FileEntry} (he : ld.entries[i]? = some e)
    (hl : e.banner.state ≠ .loaded) : e.banner.buf = none := by
  by_contra hne
  exact hl ((h.entries e (List.mem_of_getElem? he)).held.mpr hne)

/-- One entry and its slot change hands, the entry a bearer still. -/
theorem PoolOk.set {ld : Loader} (h : PoolOk ld) {i : Nat} {e e' : FileEntry} {pool : BannerPool}
    (he : ld.entries[i]? = some e) (hb : e'.bearsBanner = e.bearsBanner) (hbears : e.bearsBanner = true)
    (hok : LoaderOk { ld with entries := ld.entries.set i e', pool := pool })
    (hcov : Slots.Covers pool.used (Function.update ld.own i e'.banner.buf)) :
    PoolOk { ld with entries := ld.entries.set i e', pool := pool } := by
  have hi : i < ld.entries.length := (List.getElem?_eq_some_iff.mp he).1
  refine ⟨hok, ?_, ?_⟩
  · rw [own_set hi]
    exact hcov
  · intro j k hj
    by_cases hji : j = i
    · rw [hji]
      exact ⟨e', by rw [List.getElem?_set_self hi], hb.trans hbears⟩
    · rw [own_set hi, Function.update_of_ne hji] at hj
      obtain ⟨f, hf, hbf⟩ := h.bearers j k hj
      exact ⟨f, by rw [List.getElem?_set_ne (Ne.symm hji), hf], hbf⟩

theorem loadAt_pool {ld : Loader} (h : PoolOk ld) (i : Nat) (f : Option Fetched) : PoolOk (ld.loadAt i f) := by
  have hok := loadAt_ok h.ok i f
  simp only [Loader.loadAt] at hok ⊢
  cases he : ld.entries[i]? with
  | none =>
    dsimp only
    exact h
  | some e =>
    rw [he] at hok
    dsimp only at hok ⊢
    split
    · rename_i hb
      rw [if_pos hb] at hok
      have hown := own_eq he
      obtain ⟨hsame, hcases⟩ := gmLoadBanner_cases f e ld.pool
      generalize gmLoadBanner f e ld.pool = r at hok hsame hcases ⊢
      obtain ⟨ret, e', pool⟩ := r
      apply h.set he hsame.bears hb hok
      obtain ⟨heq, -⟩ | ⟨-, -, rfl, hban⟩ | ⟨k, used, hnl, htake, hused, hban⟩ := hcases
      · cases heq
        rw [← hown, Function.update_eq_self]
        exact h.covers
      · rw [hban, ← hown, Function.update_eq_self]
        exact h.covers
      · rw [hused, hban]
        exact Slots.covers_take h.covers (hown.trans (own_none h.ok he hnl)) htake
    · exact h

theorem freeAt_pool {ld : Loader} (h : PoolOk ld) (i : Nat) : PoolOk (ld.freeAt i) := by
  have hok := (freeAt_spec h.ok i).ok
  simp only [Loader.freeAt] at hok ⊢
  cases he : ld.entries[i]? with
  | none =>
    dsimp only
    exact h
  | some e =>
    rw [he] at hok
    dsimp only at hok ⊢
    split
    · rename_i hb
      rw [if_pos hb] at hok
      have hown := own_eq he
      obtain ⟨hbears, -, -, hnone, -, -, hcases⟩ :=
        gmBannerFree_cases (h.ok.entries e (List.mem_of_getElem? he)) ld.pool
      apply h.set he hbears hb hok
      rw [hnone]
      obtain ⟨hbuf, hpool⟩ | ⟨k, hbuf, hrel⟩ := hcases
      · rw [hpool, ← hbuf, ← hown, Function.update_eq_self]
        exact h.covers
      · rw [hrel]
        exact Slots.covers_release h.covers (hown.trans hbuf)
    · exact h

theorem loadAll_pool {ld : Loader} (h : PoolOk ld) (fetch : Nat → Option Fetched) (is : List Nat) :
    PoolOk (ld.loadAll fetch is) := by
  induction is generalizing ld with
  | nil => exact h
  | cons i is ih => exact ih (loadAt_pool h i (fetch i))

theorem freeAll_pool {ld : Loader} (h : PoolOk ld) (is : List Nat) : PoolOk (ld.freeAll is) := by
  induction is generalizing ld with
  | nil => exact h
  | cons i is ih => exact ih (freeAt_pool h i)

theorem loadLines_pool {ld : Loader} (h : PoolOk ld) (columnsPerLine : Nat) (fetch : Nat → Option Fetched)
    (lines : List Nat) : PoolOk (lines.foldl (gmBgLoadLine columnsPerLine fetch) ld) := by
  induction lines generalizing ld with
  | nil => exact h
  | cons l lines ih => exact ih (loadAll_pool h fetch _)

/-- The list's flag is nobody's slot. -/
theorem PoolOk.evict {ld : Loader} (h : PoolOk ld) (b : Bool) : PoolOk { ld with evictOnScroll := b } :=
  ⟨⟨h.ok.entries, h.ok.owns, h.ok.slots⟩, h.covers, h.bearers⟩

theorem append_pool {ld : Loader} (h : PoolOk ld) {b : FileEntry} (hb : EntryOk b)
    (hbuf : b.banner.buf = none) : PoolOk (ld.append b) := by
  have hown : ∀ i, (ld.append b).own i = ld.own i := by
    intro i
    obtain hlt | rfl | hgt := Nat.lt_trichotomy i ld.entries.length
    · rw [Loader.own, append_old ld b hlt]
      rfl
    · rw [own_eq (append_new ld b), hbuf, Loader.own, List.getElem?_eq_none (Nat.le_refl _)]
      rfl
    · have h1 : (ld.append b).entries[i]? = none :=
        List.getElem?_eq_none (by simp only [Loader.append, List.length_append, List.length_singleton]; omega)
      rw [Loader.own, h1, Loader.own, List.getElem?_eq_none (Nat.le_of_lt hgt)]
  refine ⟨append_ok h.ok hb hbuf, Slots.covers_congr h.covers hown, fun i k hi => ?_⟩
  rw [hown i] at hi
  have hbears := h.bearers i k hi
  obtain ⟨e, he, hbe⟩ := hbears
  exact ⟨e, (append_old ld b (List.getElem?_eq_some_iff.mp he).1).trans he, hbe⟩

theorem gmCheckFile_pool {ld : Loader} (h : PoolOk ld) (armed : Bool) (e : PathEntry) (a : CheckAnswer) :
    PoolOk (gmCheckFile ld armed e a) := by
  obtain heq | ⟨b, hb, hcases⟩ := gmCheckFile_cases ld armed e a
  · rw [heq]
    exact h
  · obtain ⟨hbok, -, hbuf⟩ := newEntry_ok hb
    have happ := append_pool h hbok hbuf
    obtain ⟨-, heq⟩ | ⟨-, -, heq⟩ | ⟨-, -, -, heq⟩ := hcases <;> rw [heq]
    · exact happ
    · exact happ.evict true
    · cases armed with
      | true => exact happ
      | false => exact loadAt_pool happ _ _

/-- The other disc is nobody's slot. -/
theorem PoolOk.unpaired {ld : Loader} (h : PoolOk ld) {es : List FileEntry}
    (hes : es.map FileEntry.unpaired = ld.entries.map FileEntry.unpaired) :
    PoolOk { ld with entries := es } := by
  refine ⟨⟨fun e' he' => ?_, ?_, h.ok.slots⟩, ?_, fun i k hi => ?_⟩
  · obtain ⟨e, he, heq⟩ := unpaired_mem hes he'
    have hok : EntryOk e.unpaired := ⟨(h.ok.entries e he).held, (h.ok.entries e he).settled,
      (h.ok.entries e he).source⟩
    rw [heq] at hok
    exact ⟨hok.held, hok.settled, hok.source⟩
  · rw [unpaired_own hes]
    exact h.ok.owns
  · rw [unpaired_own hes]
    exact h.covers
  · rw [unpaired_own hes] at hi
    obtain ⟨e, he, hb⟩ := h.bearers i k hi
    have hi' : (es.map FileEntry.unpaired)[i]? = some e.unpaired := by
      rw [hes, List.getElem?_map, he]
      rfl
    rw [List.getElem?_map, Option.map_eq_some_iff] at hi'
    obtain ⟨e', he', heq⟩ := hi'
    refine ⟨e', he', ?_⟩
    calc e'.bearsBanner = e'.unpaired.bearsBanner := rfl
      _ = e.unpaired.bearsBanner := by rw [heq]
      _ = true := hb

theorem checkAll_pool {ld : Loader} (h : PoolOk ld) (armed : Bool) (found : List (PathEntry × CheckAnswer)) :
    PoolOk (found.foldl (fun ld p => gmCheckFile ld armed p.1 p.2) ld) := by
  induction found generalizing ld with
  | nil => exact h
  | cons p found ih => exact ih (gmCheckFile_pool h armed p.1 p.2)

/-- An empty list and a pool reset outright. -/
theorem dropped_pool (evict : Bool) : PoolOk ⟨[], .fresh, evict⟩ := by
  have hempty : PoolOk .empty := by
    refine ⟨empty_ok, fun k hk => ?_, fun i k hi => ?_⟩
    · have hlt := (List.getElem?_eq_some_iff.mp hk).1
      simp only [Loader.empty, BannerPool.fresh, List.length_replicate] at hlt
      simp [Loader.empty, BannerPool.fresh, hlt] at hk
    · simp [Loader.own, Loader.empty] at hi
  exact hempty.evict evict

theorem poolStep_ok (ld : Loader) (op : PoolOp) (h : PoolOk ld) : PoolOk (poolStep ld op) := by
  cases op with
  | scan armed found =>
    exact (checkAll_pool (h.evict false) armed found).unpaired (gmFindMultiDisc_unpaired _)
  | changeFolder => exact dropped_pool _
  | bgLoad columnsPerLine targetSlot stopRequested fetch =>
    have hwindow := loadLines_pool (h.evict !decide (ld.bannerCount ≤ assetBufferCount)) columnsPerLine fetch
    simp only [poolStep, gmBgLoadLastPlayed]
    split
    · exact loadLines_pool (hwindow _) columnsPerLine fetch _
    · exact hwindow _
  | lineLoad columnsPerLine lineNum fetch =>
    simp only [poolStep, gmLineLoad]
    split
    · exact loadAll_pool h fetch _
    · exact h
  | lineFree columnsPerLine lineNum =>
    simp only [poolStep, gmLineFree]
    split
    · exact freeAll_pool h _
    · exact h

/-! ## No more slots than bearers -/

theorem bannerCount_eq (ld : Loader) : ld.bannerCount =
    (List.range ld.entries.length).countP fun i => (ld.entries[i]?).any FileEntry.bearsBanner :=
  (countP_range ld.entries FileEntry.bearsBanner).symm

theorem usedCount_le_bannerCount {ld : Loader} (h : PoolOk ld) :
    Slots.usedCount ld.pool.used ≤ ld.bannerCount := by
  rw [bannerCount_eq, List.countP_eq_length_filter]
  apply Slots.usedCount_le h.covers
  intro i k hi
  obtain ⟨e, he, hb⟩ := h.bearers i k hi
  apply List.mem_filter.mpr
  refine ⟨List.mem_range.mpr (List.getElem?_eq_some_iff.mp he).1, ?_⟩
  rw [he]
  exact hb

theorem loadAt_bannerCount (ld : Loader) (i : Nat) (f : Option Fetched) :
    (ld.loadAt i f).bannerCount = ld.bannerCount := by
  rw [bannerCount_eq, bannerCount_eq, loadAt_entries_length]
  apply List.countP_congr
  intro j _
  have hbears := loadAt_bears ld i j f
  simp only [Loader.Bears] at hbears
  rw [Option.any_eq_true, Option.any_eq_true]
  exact hbears

theorem append_bannerCount (ld : Loader) (b : FileEntry) :
    (ld.append b).bannerCount = ld.bannerCount + if b.bearsBanner then 1 else 0 := by
  rw [Loader.bannerCount, Loader.append, List.countP_append, List.countP_singleton]
  rfl

theorem unpaired_bannerCount {es es' : List FileEntry}
    (h : es'.map FileEntry.unpaired = es.map FileEntry.unpaired) :
    es'.countP FileEntry.bearsBanner = es.countP FileEntry.bearsBanner := by
  have hcount : ∀ es : List FileEntry,
      es.countP FileEntry.bearsBanner = (es.map FileEntry.unpaired).countP FileEntry.bearsBanner := by
    intro es
    rw [List.countP_map]
    rfl
  rw [hcount es', h, ← hcount es]

/-- A path adds a bearer or leaves their number; the pool is found full only
where more than 128 have been listed. -/
theorem gmCheckFile_resident {ld : Loader} (h : PoolOk ld) (armed : Bool) (e : PathEntry) (a : CheckAnswer) :
    ld.bannerCount ≤ (gmCheckFile ld armed e a).bannerCount ∧
      (ld.evictOnScroll = false → (gmCheckFile ld armed e a).bannerCount ≤ assetBufferCount →
        (gmCheckFile ld armed e a).evictOnScroll = false) := by
  obtain heq | ⟨b, -, ⟨-, heq⟩ | ⟨hb, hfull, heq⟩ | ⟨-, -, -, heq⟩⟩ := gmCheckFile_cases ld armed e a
  · rw [heq]
    exact ⟨Nat.le_refl _, fun hev _ => hev⟩
  · rw [heq, append_bannerCount]
    exact ⟨Nat.le_add_right _ _, fun hev _ => hev⟩
  · have hcount : (gmCheckFile ld armed e a).bannerCount = ld.bannerCount + 1 := by
      rw [heq]
      show (ld.append b).bannerCount = ld.bannerCount + 1
      rw [append_bannerCount, if_pos hb]
    have hused := usedCount_le_bannerCount h
    refine ⟨by omega, fun hev hfew => ?_⟩
    obtain hev' | hall := hfull
    · rw [hev] at hev'
      cases hev'
    · omega
  · have hcount : (gmCheckFile ld armed e a).bannerCount = (ld.append b).bannerCount := by
      rw [heq]
      cases armed with
      | true => rfl
      | false => exact loadAt_bannerCount ..
    rw [hcount, append_bannerCount]
    refine ⟨Nat.le_add_right _ _, fun hev _ => ?_⟩
    rw [heq]
    cases armed with
    | true => exact hev
    | false => exact (loadAt_evict ..).trans hev

theorem checkAll_resident {ld : Loader} (h : PoolOk ld) (armed : Bool)
    (found : List (PathEntry × CheckAnswer)) :
    ld.bannerCount ≤ (found.foldl (fun ld p => gmCheckFile ld armed p.1 p.2) ld).bannerCount ∧
      (ld.evictOnScroll = false →
        (found.foldl (fun ld p => gmCheckFile ld armed p.1 p.2) ld).bannerCount ≤ assetBufferCount →
        (found.foldl (fun ld p => gmCheckFile ld armed p.1 p.2) ld).evictOnScroll = false) := by
  induction found generalizing ld with
  | nil => exact ⟨Nat.le_refl _, fun hev _ => hev⟩
  | cons p found ih =>
    obtain ⟨hle, hevict⟩ := gmCheckFile_resident h armed p.1 p.2
    obtain ⟨hle', hevict'⟩ := ih (gmCheckFile_pool h armed p.1 p.2)
    refine ⟨Nat.le_trans hle hle', fun hev hfew => hevict' (hevict hev ?_) hfew⟩
    exact Nat.le_trans hle' hfew

theorem gmCheckFiles_bannerCount (armed : Bool) (found : List (PathEntry × CheckAnswer)) (ld : Loader) :
    (gmCheckFiles armed found ld).bannerCount =
      (found.foldl (fun ld p => gmCheckFile ld armed p.1 p.2) { ld with evictOnScroll := false }).bannerCount := by
  rw [gmCheckFiles, Loader.bannerCount, Loader.bannerCount, unpaired_bannerCount (gmFindMultiDisc_unpaired _)]

theorem scan_resident {ld : Loader} (h : PoolOk ld) (armed : Bool) (found : List (PathEntry × CheckAnswer))
    (hfew : (gmCheckFiles armed found ld).bannerCount ≤ assetBufferCount) :
    (gmCheckFiles armed found ld).evictOnScroll = false := by
  apply (checkAll_resident (h.evict false) armed found).2 rfl
  rwa [gmCheckFiles_bannerCount] at hfew

/-! ## Who owns what -/

structure PoolOwned (ld : Loader) : Prop where
  slots : ∀ k, ld.pool.used[k]? = some true → ∃ i, ld.Loaded i ∧ ∀ j, ld.own j = some k ↔ j = i
  loaded : ∀ i, ld.Loaded i → ∃! k, ld.own i = some k ∧ ld.pool.used[k]? = some true
  alone : ∀ i j k, ld.own i = some k → ld.own j = some k → i = j

theorem PoolOk.owned {ld : Loader} (h : PoolOk ld) : PoolOwned ld := by
  have hentry : ∀ i k, ld.own i = some k → ∃ e, ld.entries[i]? = some e ∧ e.banner.buf = some k :=
    fun i k hi => Option.bind_eq_some_iff.mp hi
  constructor
  · intro k hk
    obtain ⟨i, hi⟩ := h.covers k hk
    obtain ⟨e, he, hbuf⟩ := hentry i k hi
    have hl : e.banner.state = .loaded :=
      (h.ok.entries e (List.mem_of_getElem? he)).held.mpr (by rw [hbuf]; exact Option.some_ne_none k)
    refine ⟨i, ⟨e, he, hl⟩, fun j => ⟨fun hj => h.ok.owns.inj hj hi, ?_⟩⟩
    rintro rfl
    exact hi
  · intro i ⟨e, he, hl⟩
    have hsome := (h.ok.entries e (List.mem_of_getElem? he)).held.mp hl
    obtain ⟨k, hk⟩ := Option.ne_none_iff_exists'.mp hsome
    have hown : ld.own i = some k := (own_eq he).trans hk
    refine ⟨k, ⟨hown, h.ok.owns.used hown⟩, fun m hm => ?_⟩
    exact Option.some.inj (hm.1.symm.trans hown)
  · intro i j k hi hj
    exact h.ok.owns.inj hi hj

theorem poolOk_run (ops : List PoolOp) : PoolOk (Steps.run poolStep .empty ops) := by
  apply Steps.inv_run PoolOk (fun ld op h _ => poolStep_ok ld op h) (dropped_pool false)
  exact Steps.guarded_true ops

/-- After every session: slots in use and loaded entries are one to one, and a
scan of a list with at most 128 banners leaves them all resident. -/
theorem pool_owned (ops : List PoolOp) :
    PoolOwned (Steps.run poolStep .empty ops) ∧
      ∀ armed found, (gmCheckFiles armed found (Steps.run poolStep .empty ops)).bannerCount ≤ assetBufferCount →
        (gmCheckFiles armed found (Steps.run poolStep .empty ops)).evictOnScroll = false :=
  ⟨(poolOk_run ops).owned, fun armed found => scan_resident (poolOk_run ops) armed found⟩

/-- A scan of 136 games, eight to a line, fills the pool; then the first line is freed and the
last one loaded. -/
def scrolledSession : List PoolOp :=
  [.scan false (armedGames 136), .lineFree 8 0, .lineLoad 8 16 fun _ => some plainBanner]

theorem scan_games : gmCheckFiles false (armedGames 136) .empty = (armedGames 136).foldl
    (fun ld p => gmCheckFile ld false p.1 p.2) { Loader.empty with evictOnScroll := false } := by
  rw [gmCheckFiles, gmFindMultiDisc_single]
  decide +kernel

/-- The pool is full again, the first game's slot being the 129th's; a folder of 128 games
after it stays resident. -/
theorem pool_owned_scrolled :
    (Slots.usedCount (Steps.run poolStep .empty scrolledSession).pool.used = 128 ∧
      (Steps.run poolStep .empty scrolledSession).own 0 = none ∧
      (Steps.run poolStep .empty scrolledSession).own 128 = some 0) ∧
    PoolOwned (Steps.run poolStep .empty scrolledSession) ∧
    (gmCheckFiles false (armedGames 128)
      (Steps.run poolStep .empty (scrolledSession ++ [.changeFolder]))).evictOnScroll = false := by
  have hfew : (gmCheckFiles false (armedGames 128)
      (Steps.run poolStep .empty (scrolledSession ++ [.changeFolder]))).bannerCount ≤ assetBufferCount := by
    rw [gmCheckFiles_bannerCount]
    decide +kernel
  refine ⟨?_, (pool_owned scrolledSession).1, (pool_owned _).2 false (armedGames 128) hfew⟩
  simp only [scrolledSession, Steps.run_cons, Steps.run_nil, poolStep, scan_games]
  decide +kernel

end Cubiboot
