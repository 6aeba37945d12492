import Cubiboot.Window

/-
  The last-played start: an armed scan, the match, and the background loader
  that runs on the worker while the menu takes the jump (`gm_match_last_played`,
  `gm_bg_load_last_played`, `gm_apply_pending_last_played`).

  The worker publishes a slot in `gm_pending_last_played_slot` and then reads it
  back to pass it to the loader. A frame of the menu that falls in between takes
  the jump and clears the variable, and the loader gets -1: it loads the top of
  the list instead of the window on the screen.

  What is proved:
    1. `bgStep_inv` — what each step of the worker has loaded, and that it never
       runs out of buffers.
    2. `bgStep_fate` — whether the window will be loaded is settled by the one
       frame that can fall in between; every other step leaves it as it is.
    3. `bg_window_iff` — when the loader has returned and the jump is taken, the
       lines shown are loaded if and only if that frame met `TakenInTime`.
-/

set_option autoImplicit false

namespace Cubiboot

/-- `gm_find_multi_disc`'s list after the paths, none of them with a banner yet. -/
def armedScan (found : List (PathEntry × CheckAnswer)) : Loader :=
  let ld := found.foldl (fun ld p => gmCheckFile ld true p.1 p.2) .empty
  { ld with entries := gmFindMultiDisc ld.entries }

/-- What boots through the loader and lands in its recent list. -/
def FileEntry.bootable (e : FileEntry) : Bool := e.type = .game ∨ e.type = .app ∨ e.type = .program

/-- The slot `gm_match_last_played` publishes: 0 if the file is not listed. -/
def gmMatchLastPlayed (entries : List FileEntry) (lastPlayed : Path) : Nat :=
  (entries.findIdx? fun e => e.bootable && strcasecmpEq e.path lastPlayed).getD 0

/-- `gm_apply_pending_last_played`, on the variable and the grid. -/
def gmApplyPendingLastPlayed (entryCount : Nat) (pending : Int) (g : Grid) : Int × Grid :=
  if pending < 0 then (pending, g)
  else (-1, if (entryCount : Int) ≤ pending then g else gridJumpToSlot pending g)

def Loader.bannerCount (ld : Loader) : Nat := ld.entries.countP FileEntry.bearsBanner

/-- The lines `first` to `last` that the loader reads first. -/
def bgWindow (columnsPerLine numberOfLines : Nat) (targetSlot : Int) : Nat × Nat :=
  let targetSlot := if targetSlot < 0 then 0 else targetSlot
  let start := windowStart columnsPerLine numberOfLines targetSlot.toNat
  let last := start + drawTotalRows + preloadLineCount
  (start - preloadLineCount, if numberOfLines ≤ last then numberOfLines - 1 else last)

/-- Where the worker is, with the locals of `gm_bg_load_last_played`. -/
inductive BgPc where
  | matchSlot
  | readSlot
  | window (resident : Bool) (first last line : Nat)
  | fill (first last line : Nat)
  | done
  deriving DecidableEq

structure BgState where
  ld : Loader
  grid : Grid
  lastPlayed : Path
  pending : Int
  pc : BgPc

/-- The worker goes on, with what a banner read brings; or the menu draws a frame. -/
inductive BgLabel where
  | worker (banners : Nat → Fetched)
  | frame

/-- After `gm_setup_grid(gm_entry_count, false)`, at `gm_match_last_played`. -/
def BgState.start (found : List (PathEntry × CheckAnswer)) (t : GridType) (g : Grid) (lastPlayed : Path) :
    BgState where
  ld := armedScan found
  grid := gmSetupGrid t (armedScan found).entries.length false (gmSetupGrid t found.length true g)
  lastPlayed := lastPlayed
  pending := -1
  pc := .matchSlot

def BgState.loadLine (st : BgState) (fetch : Nat → Option Fetched) (line : Nat) : Loader :=
  gmBgLoadLine st.grid.columnsPerLine fetch st.ld line

/-- The worker, when nothing asks it to stop. -/
def bgWorker (fetch : Nat → Option Fetched) (st : BgState) : BgState :=
  match st.pc with
  | .matchSlot =>
    { st with pending := gmMatchLastPlayed st.ld.entries st.lastPlayed, pc := .readSlot }
  | .readSlot =>
    let resident := decide (st.ld.bannerCount ≤ assetBufferCount)
    let (first, last) := bgWindow st.grid.columnsPerLine st.grid.numberOfLines st.pending
    { st with ld := { st.ld with evictOnScroll := !resident }, pc := .window resident first last first }
  | .window resident first last line =>
    if line ≤ last then
      { st with ld := st.loadLine fetch line, pc := .window resident first last (line + 1) }
    else if resident then { st with pc := .fill first last 0 }
    else { st with pc := .done }
  | .fill first last line =>
    if line < st.grid.numberOfLines then
      if first ≤ line ∧ line ≤ last then { st with pc := .fill first last (line + 1) }
      else { st with ld := st.loadLine fetch line, pc := .fill first last (line + 1) }
    else { st with pc := .done }
  | .done => st

def bgStep (st : BgState) : BgLabel → BgState
  | .frame =>
    let (pending, grid) := gmApplyPendingLastPlayed st.ld.entries.length st.pending st.grid
    { st with pending := pending, grid := grid }
  | .worker banners => bgWorker (fun i => some (banners i)) st

/-! ## The armed scan -/

/-- An entry without its other disc: what the multi-disc search leaves alone. -/
def FileEntry.unpaired (e : FileEntry) : FileEntry := { e with second := none }

theorem pairAt_unpaired (es : List FileEntry) (i j : Nat) :
    (pairAt es i j).map FileEntry.unpaired = es.map FileEntry.unpaired := by
  simp only [pairAt]
  split
  · rename_i e e2 he he2
    split
    · rename_i hpair
      apply List.ext_getElem?
      intro k
      rw [List.getElem?_map, List.getElem?_map]
      by_cases hkj : j = k
      · subst hkj
        have hlen := (List.getElem?_eq_some_iff.mp he2).1
        rw [List.getElem?_set_self (by simpa using hlen), he2]
        rfl
      · rw [List.getElem?_set_ne hkj]
        by_cases hki : i = k
        · subst hki
          rw [List.getElem?_set_self (List.getElem?_eq_some_iff.mp he).1, he]
          rfl
        · rw [List.getElem?_set_ne hki]
    · rfl
  · rfl

theorem foldl_same {α β γ : Type} (f : α → β → α) (m : α → γ) (hf : ∀ a b, m (f a b) = m a) (a : α)
    (bs : List β) : m (bs.foldl f a) = m a := by
  induction bs generalizing a with
  | nil => rfl
  | cons b bs ih => exact (ih (f a b)).trans (hf a b)

theorem gmFindMultiDisc_unpaired (es : List FileEntry) :
    (gmFindMultiDisc es).map FileEntry.unpaired = es.map FileEntry.unpaired := by
  apply foldl_same _ (List.map FileEntry.unpaired)
  intro es' i
  apply foldl_same _ (List.map FileEntry.unpaired)
  intro es'' j
  exact pairAt_unpaired es'' i j

theorem unpaired_mem {es es' : List FileEntry} (h : es'.map FileEntry.unpaired = es.map FileEntry.unpaired)
    {e' : FileEntry} (he : e' ∈ es') : ∃ e ∈ es, e.unpaired = e'.unpaired := by
  have hm : e'.unpaired ∈ es.map FileEntry.unpaired := h ▸ List.mem_map_of_mem he
  simpa using hm

theorem unpaired_own {ld : Loader} {es : List FileEntry}
    (h : es.map FileEntry.unpaired = ld.entries.map FileEntry.unpaired) :
    ({ ld with entries := es } : Loader).own = ld.own := by
  funext i
  have hi : (es.map FileEntry.unpaired)[i]? = (ld.entries.map FileEntry.unpaired)[i]? := by rw [h]
  have hbuf : ∀ es : List FileEntry, ((es.map FileEntry.unpaired)[i]?).bind (fun e => e.banner.buf) =
      (es[i]?).bind fun e => e.banner.buf := by
    intro es
    rw [List.getElem?_map]
    cases es[i]? <;> rfl
  calc (es[i]?).bind (fun e => e.banner.buf)
      = ((es.map FileEntry.unpaired)[i]?).bind (fun e => e.banner.buf) := (hbuf es).symm
    _ = ((ld.entries.map FileEntry.unpaired)[i]?).bind (fun e => e.banner.buf) := by rw [hi]
    _ = ld.own i := hbuf ld.entries

/-- No banner of the list is loaded and no buffer is taken. -/
structure Bare (ld : Loader) : Prop where
  ok : LoaderOk ld
  pool : ld.pool = .fresh
  evict : ld.evictOnScroll = false
  none : ∀ e ∈ ld.entries, e.banner.state = .none

theorem usedCount_fresh : Slots.usedCount BannerPool.fresh.used = 0 := by
  simp [Slots.usedCount, BannerPool.fresh, List.count_replicate]

theorem freeCount_fresh : Slots.freeCount BannerPool.fresh.used = assetBufferCount := by
  simp [Slots.freeCount, BannerPool.fresh]

/-- An armed scan finds no pool full and loads nothing. -/
theorem gmCheckFile_bare {ld : Loader} (h : Bare ld) (e : PathEntry) (a : CheckAnswer) :
    Bare (gmCheckFile ld true e a) := by
  have happ : ∀ b, newEntry e a = some b → Bare (ld.append b) := by
    intro b hb
    obtain ⟨hbok, hstate, hbuf⟩ := newEntry_ok hb
    refine ⟨append_ok h.ok hbok hbuf, h.pool, h.evict, fun e' he' => ?_⟩
    obtain hm | hm := List.mem_append.mp he'
    · exact h.none e' hm
    · exact List.mem_singleton.mp hm ▸ hstate
  obtain heq | ⟨b, hb, ⟨-, heq⟩ | ⟨-, hfull, -⟩ | ⟨-, -, -, heq⟩⟩ := gmCheckFile_cases ld true e a
  · rw [heq]
    exact h
  · rw [heq]
    exact happ b hb
  · obtain hev | hused := hfull
    · rw [h.evict] at hev
      cases hev
    · rw [h.pool, usedCount_fresh] at hused
      exact absurd hused (by decide)
  · rw [heq]
    exact happ b hb

theorem armedScan_bare (found : List (PathEntry × CheckAnswer)) : Bare (armedScan found) := by
  have hscan : ∀ (ld : Loader), Bare ld → Bare (found.foldl (fun ld p => gmCheckFile ld true p.1 p.2) ld) := by
    induction found with
    | nil => intro ld h; exact h
    | cons p found ih => intro ld h; exact ih _ (gmCheckFile_bare h p.1 p.2)
  have h := hscan .empty ⟨empty_ok, rfl, rfl, fun e he => by cases he⟩
  simp only [armedScan]
  generalize found.foldl (fun ld p => gmCheckFile ld true p.1 p.2) .empty = ld at h ⊢
  have hpair := gmFindMultiDisc_unpaired ld.entries
  refine ⟨⟨fun e' he' => ?_, ?_, h.ok.slots⟩, h.pool, h.evict, fun e' he' => ?_⟩
  · obtain ⟨e, he, heq⟩ := unpaired_mem hpair he'
    have hok : EntryOk e.unpaired := ⟨(h.ok.entries e he).held, (h.ok.entries e he).settled,
      (h.ok.entries e he).source⟩
    rw [heq] at hok
    exact ⟨hok.held, hok.settled, hok.source⟩
  · rw [unpaired_own hpair]
    exact h.ok.owns
  · obtain ⟨e, he, heq⟩ := unpaired_mem hpair he'
    have hban : e.unpaired.banner = e'.unpaired.banner := by rw [heq]
    change e.banner = e'.banner at hban
    rw [← hban]
    exact h.none e he

theorem Bare.not_loaded {ld : Loader} (h : Bare ld) (i : Nat) : ¬ ld.Loaded i := by
  rintro ⟨e, he, hl⟩
  rw [h.none e (List.mem_of_getElem? he)] at hl
  cases hl

/-! ## What the worker has loaded -/

/-- The top line on the screen once a pending jump is taken. -/
def BgState.shownTop (st : BgState) : Int :=
  if 0 ≤ st.pending ∧ st.pending < st.ld.entries.length then
    windowStart st.grid.columnsPerLine st.grid.numberOfLines st.pending.toNat
  else st.grid.topLineNum

/-- Entry `i` bears a banner and is on one of the four lines shown. -/
def BgState.Shown (st : BgState) (i : Nat) : Prop :=
  st.ld.Bears i ∧ st.shownTop ≤ (i / st.grid.columnsPerLine : Nat) ∧
    (i / st.grid.columnsPerLine : Nat) ≤ st.shownTop + 3

/-- The entries the worker goes through. -/
def BgState.plan (st : BgState) (resident : Bool) (first last : Nat) : List Nat :=
  (List.range st.ld.entries.length).filter fun i =>
    resident || decide (first ≤ i / st.grid.columnsPerLine ∧ i / st.grid.columnsPerLine ≤ last)

def BgState.HasRoom (st : BgState) (resident : Bool) (first last : Nat) : Prop :=
  st.ld.missing (st.plan resident first last) ≤ Slots.freeCount st.ld.pool.used

/-- What is loaded at each point of the worker. -/
def BgState.Progress (st : BgState) : Prop :=
  match st.pc with
  | .matchSlot => Bare st.ld ∧ st.pending = -1
  | .readSlot => Bare st.ld ∧ (0 ≤ st.pending → st.pending < st.ld.entries.length ∨ st.ld.entries = [])
  | .window resident first last line =>
    last < st.grid.numberOfLines ∧ first ≤ line ∧ line ≤ last + 1 ∧ st.HasRoom resident first last ∧
    ∀ i, st.ld.Bears i →
      (st.ld.Loaded i ↔ first ≤ i / st.grid.columnsPerLine ∧ i / st.grid.columnsPerLine < line)
  | .fill first last line =>
    st.HasRoom true first last ∧
    ∀ i, st.ld.Bears i →
      (first ≤ i / st.grid.columnsPerLine ∧ i / st.grid.columnsPerLine ≤ last) ∨
        i / st.grid.columnsPerLine < line → st.ld.Loaded i
  | .done => True

structure BgInv (st : BgState) : Prop where
  ok : LoaderOk st.ld
  columns : 0 < st.grid.columnsPerLine ∧ st.grid.columnsPerLine ≤ 8
  lines : st.grid.numberOfLines = linesFor st.grid.columnsPerLine st.ld.entries.length
  progress : st.Progress

/-! ### Room for the plan -/

theorem plan_nodup (st : BgState) (resident : Bool) (first last : Nat) : (st.plan resident first last).Nodup :=
  List.nodup_range.filter _

theorem countP_range (es : List FileEntry) (p : FileEntry → Bool) :
    (List.range es.length).countP (fun i => (es[i]?).any p) = es.countP p := by
  have hmap : (List.range es.length).map (fun i => es[i]?) = es.map some := by
    apply List.ext_getElem?
    intro k
    by_cases hk : k < es.length
    · simp [hk]
    · simp [Nat.not_lt.mp hk]
  calc (List.range es.length).countP (fun i => (es[i]?).any p)
      = ((List.range es.length).map fun i => es[i]?).countP (Option.any p) := by rw [List.countP_map]; rfl
    _ = es.countP p := by rw [hmap, List.countP_map]; rfl

/-- Loading everything takes no more buffers than there are banners. -/
theorem missing_le_bannerCount (ld : Loader) (is : List Nat) (hnd : is.Nodup)
    (hsub : is ⊆ List.range ld.entries.length) : ld.missing is ≤ ld.bannerCount := by
  calc ld.missing is
      ≤ ld.missing (List.range ld.entries.length) := missing_le_of_subset hnd hsub
    _ ≤ (List.range ld.entries.length).countP (fun i => (ld.entries[i]?).any FileEntry.bearsBanner) := by
        apply List.countP_mono_left
        intro i _ hi
        cases he : ld.entries[i]? with
        | none => simp [he] at hi
        | some e =>
          simp only [he, Bool.and_eq_true] at hi
          simpa using hi.1
    _ = ld.bannerCount := countP_range ..

/-- Nine lines of at most eight columns fit in the pool. -/
theorem window_plan_length {st : BgState} {first last : Nat} (hc : 0 < st.grid.columnsPerLine)
    (hc8 : st.grid.columnsPerLine ≤ 8) (hw : last ≤ first + 8) :
    (st.plan false first last).length ≤ assetBufferCount := by
  have hsub : st.plan false first last ⊆
      List.range' (first * st.grid.columnsPerLine) (9 * st.grid.columnsPerLine) := by
    intro i hi
    simp only [BgState.plan, Bool.false_or, List.mem_filter, decide_eq_true_eq] at hi
    obtain ⟨-, h1, h2⟩ := hi
    have hlow := (Nat.le_div_iff_mul_le hc).mp h1
    have hhigh : i < (first + 9) * st.grid.columnsPerLine := (Nat.div_lt_iff_lt_mul hc).mp (by omega)
    rw [List.mem_range'_1]
    rw [Nat.add_mul] at hhigh
    exact ⟨hlow, hhigh⟩
  have hlen := (List.subperm_of_subset (plan_nodup st false first last) hsub).length_le
  rw [List.length_range'] at hlen
  simp only [assetBufferCount]
  omega

theorem bgWindow_eq (cols n : Nat) (target : Int) :
    bgWindow cols n target = (windowStart cols n target.toNat - 2,
      if n ≤ windowStart cols n target.toNat + 6 then n - 1 else windowStart cols n target.toNat + 6) := by
  have ht : (if target < 0 then 0 else target).toNat = target.toNat := by
    split <;> omega
  rw [bgWindow, ht]
  rfl

theorem bgWindow_spec (cols n : Nat) (target : Int) (hn : 4 ≤ n) :
    (bgWindow cols n target).2 < n ∧ (bgWindow cols n target).1 ≤ (bgWindow cols n target).2 ∧
      (bgWindow cols n target).2 ≤ (bgWindow cols n target).1 + 8 := by
  obtain ⟨h1, -, -⟩ := windowStart_spec cols n target.toNat
  rw [bgWindow_eq]
  dsimp only
  split <;> omega

/-- The loader's lines cover the four shown at the jump target. -/
theorem bgWindow_covers {cols n : Nat} {target : Int} {l : Nat} (hl : l < n)
    (h1 : (windowStart cols n target.toNat : Int) ≤ l) (h2 : (l : Int) ≤ windowStart cols n target.toNat + 3) :
    (bgWindow cols n target).1 ≤ l ∧ l ≤ (bgWindow cols n target).2 := by
  rw [bgWindow_eq]
  dsimp only
  split <;> omega

/-- Without a target the loader reads from the top. -/
theorem bgWindow_top {cols n : Nat} {target : Int} (ht : target < 0) {l : Nat} (hl : l < n) :
    (bgWindow cols n target).1 ≤ l ∧ l ≤ (bgWindow cols n target).2 ↔ l ≤ 6 := by
  have hstart : windowStart cols n target.toNat = 0 := by
    rw [Int.toNat_of_nonpos (by omega)]
    simp [windowStart]
  rw [bgWindow_eq, hstart]
  dsimp only
  split <;> omega

/-! ### One line -/

theorem BgInv.line_lt {st : BgState} (h : BgInv st) {i : Nat} (hb : st.ld.Bears i) :
    i / st.grid.columnsPerLine < st.grid.numberOfLines := by
  rw [h.lines]
  exact line_lt_linesFor h.columns.1 (bears_lt hb)

theorem mem_plan {st : BgState} {resident : Bool} {first last i : Nat} :
    i ∈ st.plan resident first last ↔ i < st.ld.entries.length ∧
      (resident = true ∨ (first ≤ i / st.grid.columnsPerLine ∧ i / st.grid.columnsPerLine ≤ last)) := by
  simp [BgState.plan]

/-- What loading one line of the plan does. -/
structure LineLoaded (st : BgState) (resident : Bool) (first last line : Nat) (ld : Loader) : Prop where
  ok : LoaderOk ld
  length : ld.entries.length = st.ld.entries.length
  bears : ∀ i, ld.Bears i ↔ st.ld.Bears i
  loaded : ∀ i, st.ld.Bears i → (ld.Loaded i ↔ st.ld.Loaded i ∨ i / st.grid.columnsPerLine = line)
  room : ld.missing (st.plan resident first last) ≤ Slots.freeCount ld.pool.used

theorem loadLine_spec {st : BgState} (h : BgInv st) (banners : Nat → Fetched) {resident : Bool}
    {first last line : Nat} (hroom : st.HasRoom resident first last)
    (hline : resident = true ∨ (first ≤ line ∧ line ≤ last)) :
    LineLoaded st resident first last line (st.loadLine (fun i => some (banners i)) line) := by
  simp only [BgState.loadLine, gmBgLoadLine]
  have hmem : ∀ i, i ∈ st.ld.lineIndices st.grid.columnsPerLine line ↔
      i / st.grid.columnsPerLine = line ∧ i < st.ld.entries.length := fun i => mem_lineIndices h.columns.1
  have hsub : st.ld.lineIndices st.grid.columnsPerLine line ⊆ st.plan resident first last := by
    intro i hi
    obtain ⟨rfl, hlt⟩ := (hmem i).mp hi
    exact mem_plan.mpr ⟨hlt, hline⟩
  have hnd := lineIndices_nodup st.ld st.grid.columnsPerLine line
  have hfree := (missing_le_of_subset hnd hsub).trans hroom
  obtain ⟨hlen, -, hbears, hother⟩ := loadAll_same st.ld (fun i => some (banners i))
    (st.ld.lineIndices st.grid.columnsPerLine line)
  refine ⟨loadAll_ok h.ok _ _, hlen, hbears, fun i hb => ⟨fun hl => ?_, fun hl => ?_⟩,
    loadAll_room h.ok (fun _ => rfl) (plan_nodup ..) hsub hroom⟩
  · by_cases hi : i / st.grid.columnsPerLine = line
    · exact .inr hi
    · left
      obtain ⟨e, he, hs⟩ := hl
      exact ⟨e, (hother i fun hm => hi ((hmem i).mp hm).1) ▸ he, hs⟩
  · obtain hl | hl := hl
    · exact loadAll_mono _ _ hl
    · exact loadAll_loaded h.ok hnd (fun _ _ => rfl) hfree i ((hmem i).mpr ⟨hl, bears_lt hb⟩) hb

/-! ## The invariant -/

/-- A frame moves the cursor and the window, takes the jump, and nothing else. -/
theorem frame_eq (st : BgState) : ∃ pending top slot, bgStep st .frame =
    { st with pending := pending, grid := { st.grid with topLineNum := top, selectedSlot := slot } } ∧
    pending < 0 ∧ (st.pending < 0 → pending = st.pending) ∧ (bgStep st .frame).shownTop = st.shownTop := by
  by_cases hp : st.pending < 0
  · refine ⟨st.pending, st.grid.topLineNum, st.grid.selectedSlot, ?_, hp, fun _ => rfl, ?_⟩ <;>
      simp [bgStep, gmApplyPendingLastPlayed, hp]
  · by_cases hlen : (st.ld.entries.length : Int) ≤ st.pending
    · refine ⟨-1, st.grid.topLineNum, st.grid.selectedSlot, ?_, by omega, fun h => absurd h hp, ?_⟩
      · simp [bgStep, gmApplyPendingLastPlayed, hp, hlen]
      · simp [bgStep, gmApplyPendingLastPlayed, hp, hlen, BgState.shownTop]
    · refine ⟨-1, windowStart st.grid.columnsPerLine st.grid.numberOfLines st.pending.toNat, st.pending, ?_,
        by omega, fun h => absurd h hp, ?_⟩
      · simp [bgStep, gmApplyPendingLastPlayed, hp, hlen, gridJumpToSlot]
      · simp [bgStep, gmApplyPendingLastPlayed, hp, hlen, gridJumpToSlot, BgState.shownTop, Int.not_lt.mp hp,
          Int.not_le.mp hlen]

theorem start_bgInv (found : List (PathEntry × CheckAnswer)) (t : GridType) (g : Grid) (lastPlayed : Path) :
    BgInv (.start found t g lastPlayed) := by
  have hbare := armedScan_bare found
  exact ⟨hbare.ok, ⟨t.columns_pos, t.columns_le⟩, rfl, hbare, rfl⟩

theorem match_lt (entries : List FileEntry) (lastPlayed : Path) :
    (gmMatchLastPlayed entries lastPlayed : Int) < entries.length ∨ entries = [] := by
  rw [gmMatchLastPlayed]
  cases hf : entries.findIdx? fun e => e.bootable && strcasecmpEq e.path lastPlayed with
  | some i =>
    left
    have := (List.findIdx?_eq_some_iff_getElem.mp hf).1
    exact Int.ofNat_lt.mpr this
  | none =>
    cases entries with
    | nil => exact .inr rfl
    | cons e es => left; simp

theorem HasRoom_of_bare {st : BgState} (h : BgInv st) (hbare : Bare st.ld) {resident : Bool}
    (hres : resident = true ↔ st.ld.bannerCount ≤ assetBufferCount) {first last : Nat}
    (hw : last ≤ first + 8) : st.HasRoom resident first last := by
  simp only [BgState.HasRoom]
  rw [hbare.pool, freeCount_fresh]
  cases resident with
  | true =>
    have hsub : st.plan true first last ⊆ List.range st.ld.entries.length := fun i hi =>
      List.mem_range.mpr (mem_plan.mp hi).1
    exact (missing_le_bannerCount st.ld _ (plan_nodup ..) hsub).trans (hres.mp rfl)
  | false => exact List.countP_le_length.trans (window_plan_length h.columns.1 h.columns.2 hw)

theorem HasRoom_of_line {st : BgState} {resident : Bool} {first last line : Nat} {ld : Loader}
    (h : LineLoaded st resident first last line ld) (pc : BgPc) :
    ({ st with ld := ld, pc := pc } : BgState).HasRoom resident first last := by
  have hplan : ({ st with ld := ld, pc := pc } : BgState).plan resident first last =
      st.plan resident first last := by
    simp only [BgState.plan, h.length]
  simp only [BgState.HasRoom, hplan]
  exact h.room

/-- Each step keeps the invariant: the loader never lacks a buffer. -/
theorem bgStep_inv (st : BgState) (l : BgLabel) (h : BgInv st) : BgInv (bgStep st l) := by
  have hprog := h.progress
  simp only [BgState.Progress] at hprog
  cases l with
  | frame =>
    -- a frame moves the cursor and leaves the loader where it is
    obtain ⟨pending, top, slot, heq, hp, hidle, -⟩ := frame_eq st
    rw [heq]
    refine ⟨h.ok, h.columns, h.lines, ?_⟩
    simp only [BgState.Progress]
    cases hpc : st.pc with
    | matchSlot =>
      rw [hpc] at hprog
      exact ⟨hprog.1, (hidle (by omega)).trans hprog.2⟩
    | readSlot =>
      rw [hpc] at hprog
      exact ⟨hprog.1, fun hn => absurd hp (Int.not_lt.mpr hn)⟩
    | window resident first last line =>
      rw [hpc] at hprog
      exact hprog
    | fill first last line =>
      rw [hpc] at hprog
      exact hprog
    | done => trivial
  | worker banners =>
    simp only [bgStep, bgWorker]
    cases hpc : st.pc with
    | matchSlot =>
      rw [hpc] at hprog
      exact ⟨h.ok, h.columns, h.lines, hprog.1, fun _ => match_lt ..⟩
    | readSlot =>
      rw [hpc] at hprog
      obtain ⟨hw1, hw2, hw3⟩ := bgWindow_spec st.grid.columnsPerLine st.grid.numberOfLines st.pending
        (h.lines ▸ linesFor_ge ..)
      -- nothing is loaded yet, so the room is what the entries need
      have hroom := HasRoom_of_bare h hprog.1 (decide_eq_true_iff (p := st.ld.bannerCount ≤ assetBufferCount)) hw3
      refine ⟨⟨h.ok.entries, h.ok.owns, h.ok.slots⟩, h.columns, h.lines, hw1, Nat.le_refl _, by omega, hroom,
        fun i _ => ⟨fun hl => absurd hl (hprog.1.not_loaded i), ?_⟩⟩
      rintro ⟨h1, h2⟩
      dsimp only at h1 h2
      omega
    | window resident first last line =>
      rw [hpc] at hprog
      obtain ⟨hlast, hfirst, hline, hroom, hloaded⟩ := hprog
      dsimp only
      split
      · rename_i hle
        -- a line of the window more
        have hload := loadLine_spec h banners hroom (.inr ⟨hfirst, hle⟩)
        refine ⟨hload.ok, h.columns, hload.length.symm ▸ h.lines, hlast, by omega, by omega,
          HasRoom_of_line hload _, fun i hb => ?_⟩
        have hb' := (hload.bears i).mp hb
        dsimp only
        rw [hload.loaded i hb', hloaded i hb']
        omega
      · split
        · rename_i hle hr
          refine ⟨h.ok, h.columns, h.lines, hr ▸ hroom, fun i hb hi => ?_⟩
          dsimp only at hi
          refine (hloaded i hb).mpr ?_
          generalize i / st.grid.columnsPerLine = l at hi ⊢
          omega
        · exact ⟨h.ok, h.columns, h.lines, trivial⟩
    | fill first last line =>
      rw [hpc] at hprog
      obtain ⟨hroom, hloaded⟩ := hprog
      dsimp only
      split
      · split
        · rename_i hin
          refine ⟨h.ok, h.columns, h.lines, hroom, fun i hb hi => hloaded i hb ?_⟩
          dsimp only at hi
          omega
        -- a line outside the window; those in it have been loaded
        · have hload : LineLoaded st true first last line (st.loadLine (fun i => some (banners i)) line) :=
            loadLine_spec h banners hroom (.inl rfl)
          refine ⟨hload.ok, h.columns, hload.length.symm ▸ h.lines, HasRoom_of_line hload _, fun i hb hi => ?_⟩
          have hb' := (hload.bears i).mp hb
          dsimp only at hi
          refine (hload.loaded i hb').mpr ?_
          by_cases hil : i / st.grid.columnsPerLine = line
          · exact .inr hil
          · exact .inl (hloaded i hb' (by omega))
      · exact ⟨h.ok, h.columns, h.lines, trivial⟩
    | done => exact ⟨h.ok, h.columns, h.lines, by simp only [BgState.Progress, hpc]⟩

/-! ## Whether the window will be loaded -/

/-- Loading from the top of the list is enough: everything is resident, or what
is shown is on the first seven lines. -/
def BgState.TopWillDo (st : BgState) : Prop :=
  st.ld.bannerCount ≤ assetBufferCount ∨ ∀ i, st.Shown i → i / st.grid.columnsPerLine ≤ 6

/-- The condition on a step: a frame that takes the jump between the worker's
two accesses to the variable does so in a list whose top will do. -/
def TakenInTime (st : BgState) : BgLabel → Prop
  | .frame =>
    match st.pc with
    | .readSlot => 0 ≤ st.pending → st.TopWillDo
    | _ => True
  | .worker _ => True

/-- Whether the lines shown are, or will be, loaded. -/
def BgState.Fate (st : BgState) : Prop :=
  match st.pc with
  | .matchSlot => True
  | .readSlot => 0 ≤ st.pending ∨ st.TopWillDo
  | .window resident first last _ =>
    resident = true ∨
      ∀ i, st.Shown i → first ≤ i / st.grid.columnsPerLine ∧ i / st.grid.columnsPerLine ≤ last
  | .fill _ _ _ => True
  | .done => ∀ i, st.Shown i → st.ld.Loaded i

theorem shown_congr {st st' : BgState} (hgrid : st'.grid = st.grid) (hpending : st'.pending = st.pending)
    (hlen : st'.ld.entries.length = st.ld.entries.length) (hbears : ∀ i, st'.ld.Bears i ↔ st.ld.Bears i)
    (i : Nat) : st'.Shown i ↔ st.Shown i := by
  simp only [BgState.Shown, BgState.shownTop, hgrid, hpending, hlen, hbears]

/-- One frame decides: every other step leaves the window's fate as it is. -/
theorem bgStep_fate (st : BgState) (l : BgLabel) (h : BgInv st) :
    (bgStep st l).Fate ↔ st.Fate ∧ TakenInTime st l := by
  have hprog := h.progress
  simp only [BgState.Progress] at hprog
  cases l with
  | frame =>
    obtain ⟨pending, top, slot, heq, hp, hidle, htop⟩ := frame_eq st
    have hshown : ∀ i, (bgStep st .frame).Shown i ↔ st.Shown i := by
      intro i
      simp only [BgState.Shown, htop]
      rw [heq]
    rw [heq] at hshown ⊢
    simp only [BgState.Fate, BgState.TopWillDo, hshown, TakenInTime]
    cases hpc : st.pc with
    | readSlot =>
      dsimp only
      constructor
      · intro hf
        have hwill : st.TopWillDo := hf.resolve_left (by omega)
        exact ⟨.inr hwill, fun _ => hwill⟩
      · rintro ⟨hf, hg⟩
        exact .inr (hf.elim hg id)
    | matchSlot | window _ _ _ _ | fill _ _ _ | done => exact (and_iff_left trivial).symm
  | worker banners =>
    rw [show TakenInTime st (.worker banners) = True from rfl, and_true]
    simp only [bgStep, bgWorker]
    cases hpc : st.pc with
    | matchSlot =>
      have hfate : st.Fate ↔ True := by simp only [BgState.Fate, hpc]
      exact iff_of_true (.inl (Int.natCast_nonneg _)) (hfate.mpr trivial)
    | readSlot =>
      have hfate : st.Fate ↔ 0 ≤ st.pending ∨ st.TopWillDo := by simp only [BgState.Fate, hpc]
      rw [hpc] at hprog
      rw [hfate]
      change (decide (st.ld.bannerCount ≤ assetBufferCount) = true ∨ ∀ i, st.Shown i → _) ↔ _
      rw [decide_eq_true_eq]
      by_cases hp : st.pending < 0
      · -- the jump was taken: the loader has no target
        rw [or_iff_right (show ¬ 0 ≤ st.pending by omega)]
        refine or_congr Iff.rfl (forall_congr' fun i => imp_congr_right fun hi => ?_)
        exact bgWindow_top hp (h.line_lt hi.1)
      · refine iff_of_true (.inr fun i hi => ?_) (.inl (by omega))
        obtain ⟨hb, h1, h2⟩ := hi
        obtain hlt | hnil := hprog.2 (by omega)
        · have hshown : st.shownTop =
              windowStart st.grid.columnsPerLine st.grid.numberOfLines st.pending.toNat :=
            if_pos ⟨by omega, hlt⟩
          rw [hshown] at h1 h2
          exact bgWindow_covers (h.line_lt hb) h1 h2
        · have := bears_lt hb
          simp [hnil] at this
    | window resident first last line =>
      have hfate : st.Fate ↔ resident = true ∨ ∀ i, st.Shown i →
          first ≤ i / st.grid.columnsPerLine ∧ i / st.grid.columnsPerLine ≤ last := by
        simp only [BgState.Fate, hpc]
      rw [hpc] at hprog
      obtain ⟨hlast, hfirst, hline, hroom, hloaded⟩ := hprog
      rw [hfate]
      dsimp only
      split
      · rename_i hle
        have hload := loadLine_spec h banners hroom (.inr ⟨hfirst, hle⟩)
        refine or_congr Iff.rfl (forall_congr' fun i => imp_congr ?_ Iff.rfl)
        apply shown_congr
        · rfl
        · rfl
        · exact hload.length
        · exact hload.bears
      · rename_i hle
        split
        · rename_i hr
          exact iff_of_true trivial (.inl hr)
        · rename_i hr
          rw [or_iff_right hr]
          refine forall_congr' fun i => imp_congr_right fun hi => ?_
          refine (hloaded i hi.1).trans (and_congr Iff.rfl ?_)
          omega
    | fill first last line =>
      have hfate : st.Fate ↔ True := by simp only [BgState.Fate, hpc]
      rw [hpc] at hprog
      obtain ⟨-, hloaded⟩ := hprog
      rw [hfate]
      dsimp only
      split
      · split <;> exact Iff.rfl
      · rename_i hend
        refine iff_of_true (fun i hi => hloaded i hi.1 (.inr ?_)) trivial
        exact Nat.lt_of_lt_of_le (h.line_lt hi.1) (Nat.not_lt.mp hend)
    | done => exact Iff.rfl

/-- Every banner on the lines shown is loaded. -/
def BgState.WindowLoaded (st : BgState) : Prop :=
  ∀ i, st.ld.Bears i → st.grid.topLineNum ≤ (i / st.grid.columnsPerLine : Nat) →
    (i / st.grid.columnsPerLine : Nat) ≤ st.grid.topLineNum + 3 → st.ld.Loaded i

/-- The background loader has returned and the menu has taken the jump. -/
def BgState.Settled (st : BgState) : Prop := st.pc = .done ∧ st.pending < 0

instance (st : BgState) : Decidable st.Settled := inferInstanceAs (Decidable (_ ∧ _))

/-- Over every armed scan and every interleaving of the worker with frames: once
the loader has returned and the jump is taken, the lines shown are loaded if and
only if no frame took the jump too early in a list whose top will not do. -/
theorem bg_window_iff (found : List (PathEntry × CheckAnswer)) (t : GridType) (g : Grid) (lastPlayed : Path)
    (ls : List BgLabel) (hend : (Steps.run bgStep (.start found t g lastPlayed) ls).Settled) :
    (Steps.run bgStep (.start found t g lastPlayed) ls).WindowLoaded ↔
      Steps.Guarded bgStep TakenInTime (.start found t g lastPlayed) ls := by
  have hrun : (Steps.run bgStep (.start found t g lastPlayed) ls).Fate ↔ _ ∧ _ :=
    Steps.verdict_run BgInv BgState.Fate bgStep_inv bgStep_fate (start_bgInv found t g lastPlayed)
  have hstart : (BgState.start found t g lastPlayed).Fate := trivial
  rw [and_iff_right hstart] at hrun
  rw [← hrun]
  generalize Steps.run bgStep (.start found t g lastPlayed) ls = st at hend ⊢
  obtain ⟨hpc, hp⟩ := hend
  have htop : st.shownTop = st.grid.topLineNum := if_neg (by omega)
  simp only [BgState.Fate, hpc, BgState.WindowLoaded, BgState.Shown, htop, and_imp]

def armedGames (n : Nat) : List (PathEntry × CheckAnswer) :=
  (List.range n).map fun i => (numberedGame i, ⟨plainInfo, none, 0, some plainBanner⟩)

/-- Without second discs there is nothing to pair. -/
theorem gmFindMultiDisc_single {es : List FileEntry} (h : ∀ e ∈ es, e.extra.discNum = 0) :
    gmFindMultiDisc es = es := by
  have hpair : ∀ i j, pairAt es i j = es := by
    intro i j
    simp only [pairAt]
    split
    · rename_i e e2 he he2
      rw [if_neg]
      simp [FileEntry.pairs, h e (List.mem_of_getElem? he)]
    · rfl
  exact List.foldl_fixed' (fun i => List.foldl_fixed' (hpair i) _) _

/-- 136 games, eight to a line. -/
theorem armedScan_games : armedScan (armedGames 136) =
    (armedGames 136).foldl (fun ld p => gmCheckFile ld true p.1 p.2) .empty := by
  rw [armedScan, gmFindMultiDisc_single]
  decide +kernel

/-- The worker reads the slot, then the menu takes the jump. -/
def takenInTime : List BgLabel :=
  [.worker fun _ => plainBanner, .worker fun _ => plainBanner, .frame] ++
    List.replicate 7 (.worker fun _ => plainBanner)

/-- The last of 136 games is the last played: the window shown is lines 13 to 16, and loaded. -/
theorem bg_window_last_line :
    let st := Steps.run bgStep (.start (armedGames 136) .squareIcons ⟨8, 4, 0, 0⟩ (numberedGame 135).path)
      takenInTime
    (st.Settled ∧ st.grid.topLineNum = 13 ∧ st.ld.evictOnScroll = true) ∧ st.WindowLoaded := by
  intro st
  have hrun : st.Settled ∧ st.grid.topLineNum = 13 ∧ st.ld.evictOnScroll = true := by
    simp only [st, BgState.start, armedScan_games]
    decide +kernel
  have htaken : Steps.Guarded bgStep TakenInTime
      (.start (armedGames 136) .squareIcons ⟨8, 4, 0, 0⟩ (numberedGame 135).path) takenInTime :=
    ⟨trivial, trivial, trivial, trivial, trivial, trivial, trivial, trivial, trivial, trivial, trivial⟩
  exact ⟨hrun, (bg_window_iff (armedGames 136) .squareIcons ⟨8, 4, 0, 0⟩ (numberedGame 135).path takenInTime
    hrun.1).mpr htaken⟩

/-- The jump taken before the worker has read its argument back. -/
def takenTooEarly : List BgLabel :=
  [.worker fun _ => plainBanner, .frame] ++ List.replicate 9 (.worker fun _ => plainBanner)

/-- The window shown is lines 13 to 16, the lines loaded are 0 to 6. -/
theorem taken_too_early_blank :
    let st := Steps.run bgStep (.start (armedGames 136) .squareIcons ⟨8, 4, 0, 0⟩ (numberedGame 135).path)
      takenTooEarly
    st.Settled ∧ ¬ st.WindowLoaded := by
  intro st
  have hrun : st.Settled ∧ st.grid.topLineNum = 13 ∧ st.grid.columnsPerLine = 8 ∧
      (st.ld.entries[135]?).map (fun e => (e.bearsBanner, e.banner.state)) = some (true, .none) := by
    simp only [st, BgState.start, armedScan_games]
    decide +kernel
  obtain ⟨hsettled, htop, hcols, hentry⟩ := hrun
  obtain ⟨e, he, hpair⟩ := Option.map_eq_some_iff.mp hentry
  obtain ⟨hb, hs⟩ := Prod.mk.inj hpair
  refine ⟨hsettled, fun hw => ?_⟩
  obtain ⟨e', he', hl⟩ := hw 135 ⟨e, he, hb⟩ (by rw [htop, hcols]; decide) (by rw [htop, hcols]; decide)
  obtain rfl : e = e' := Option.some.inj (he.symm.trans he')
  rw [hs] at hl
  cases hl

end Cubiboot
