import Cubiboot.Lib.Run
import Cubiboot.Loader
import Cubiboot.Grid

/-
  The sliding window of banners over a scan (`gm_check_files`) and the scrolls
  the menu makes meanwhile and afterwards, every read succeeding.

  Up to 128 banners stay resident. When the pool is full the scan switches to
  the window: banners found from then on are not loaded, and a scroll frees one
  line and loads one. The lines kept are those from one above the screen to two
  below it (`kept`).

  What is proved:
    1. `windowStep_inv` — under `KeepsUp`, a step keeps every banner of the kept
       lines loaded, each in a pool buffer of its own.
    2. `visible_loaded` — hence over every run, once the scan is complete, every
       banner on the lines shown is.

  `KeepsUp` asks two things. A banner found when the pool is full must not be
  on a kept line: the scan will not load it and no scroll will either
  (`scrolled_ahead_blank`). And a scroll must find buffers for the banners of
  the line it brings in.
-/

set_option autoImplicit false

namespace Cubiboot

/-- `listing` is what the scan has still to check. -/
structure WindowState where
  ld : Loader
  listing : List PathEntry
  complete : Bool
  gridType : GridType
  numberOfLines : Nat
  topLineNum : Nat

/-- A scan answer with the banner readable, and the reads of a scroll. -/
inductive WindowOp where
  | scan (info : FoundGame) (appDol : Option Path) (addr : UInt32) (banner : Fetched)
  | down (banners : Nat → Fetched)
  | up (banners : Nat → Fetched)

/-- After `gm_setup_grid(num_paths, true)`, before the first path is checked. -/
def WindowState.start (listing : List PathEntry) (t : GridType) : WindowState where
  ld := .empty
  listing := listing
  complete := false
  gridType := t
  numberOfLines := linesFor t.columns listing.length
  topLineNum := 0

def WindowState.scanned (st : WindowState) (e : PathEntry) (a : CheckAnswer) : Loader :=
  gmCheckFile st.ld false e a

/-- One line up or down, to `newLineNum`. -/
def WindowState.scrolled (st : WindowState) (banners : Nat → Fetched) (newLineNum : Nat) (down : Bool) :
    WindowState :=
  { st with
    ld := gmLineChanged st.gridType.columns (fun i => some (banners i)) st.numberOfLines newLineNum down st.ld
    topLineNum := newLineNum }

def windowStep (st : WindowState) : WindowOp → WindowState
  | .scan info appDol addr banner =>
    match st.listing with
    | e :: rest => { st with ld := st.scanned e ⟨info, appDol, addr, some banner⟩, listing := rest }
    | [] =>
      if st.complete then st
      else
        -- gm_setup_grid(gm_entry_count, false)
        { st with
          complete := true
          numberOfLines := linesFor st.gridType.columns st.ld.entries.length }
  | .down banners =>
    if st.numberOfLines = st.topLineNum + 4 then st else st.scrolled banners (st.topLineNum + 1) true
  | .up banners => if st.topLineNum = 0 then st else st.scrolled banners (st.topLineNum - 1) false

/-- The lines kept: one above the screen, four on it, two below. -/
def kept (top line : Nat) : Prop := top ≤ line + 1 ∧ line ≤ top + 5

/-- The line a scroll brings in has no more banners to load than there are
buffers, once the line going out is freed. -/
def WindowState.HasRoom (st : WindowState) (newLineNum : Nat) (down : Bool) : Prop :=
  let (unload, toLoad) := linesChanged st.numberOfLines newLineNum down
  let ld := gmLineUnload st.gridType.columns st.ld unload
  ∀ l, toLoad = some l → ld.missing (ld.lineIndices st.gridType.columns l) ≤ Slots.freeCount ld.pool.used

/-- The condition on a step: a banner found while the pool is full is not on a
kept line, and a scroll of the window has room for the line it brings in. -/
def KeepsUp (st : WindowState) : WindowOp → Prop
  | .scan info appDol addr banner =>
    match st.listing with
    | e :: _ =>
      ∀ b, newEntry e ⟨info, appDol, addr, some banner⟩ = some b → b.bearsBanner = true →
        st.ld.evictOnScroll = true ∨ assetBufferCount ≤ Slots.usedCount st.ld.pool.used →
        ¬ kept st.topLineNum (st.ld.entries.length / st.gridType.columns)
    | [] => True
  | .down _ => st.ld.evictOnScroll = true → st.HasRoom (st.topLineNum + 1) true
  | .up _ => st.ld.evictOnScroll = true → st.topLineNum ≠ 0 → st.HasRoom (st.topLineNum - 1) false

instance (top line : Nat) : Decidable (kept top line) :=
  inferInstanceAs (Decidable (top ≤ line + 1 ∧ line ≤ top + 5))

instance (st : WindowState) (newLineNum : Nat) (down : Bool) : Decidable (st.HasRoom newLineNum down) :=
  Option.decidableForallMem
    (p := fun l =>
      let ld := gmLineUnload st.gridType.columns st.ld (linesChanged st.numberOfLines newLineNum down).1
      ld.missing (ld.lineIndices st.gridType.columns l) ≤ Slots.freeCount ld.pool.used)
    (o := (linesChanged st.numberOfLines newLineNum down).2)

instance (st : WindowState) : ∀ op : WindowOp, Decidable (KeepsUp st op)
  | .scan info appDol addr banner =>
    match h : st.listing with
    | e :: _ => decidable_of_iff (∀ b ∈ newEntry e ⟨info, appDol, addr, some banner⟩, b.bearsBanner = true →
        st.ld.evictOnScroll = true ∨ assetBufferCount ≤ Slots.usedCount st.ld.pool.used →
        ¬ kept st.topLineNum (st.ld.entries.length / st.gridType.columns)) (by simp only [KeepsUp, h]; rfl)
    | [] => isTrue (by simp only [KeepsUp, h])
  | .down _ => inferInstanceAs (Decidable (st.ld.evictOnScroll = true → st.HasRoom (st.topLineNum + 1) true))
  | .up _ => inferInstanceAs (Decidable
      (st.ld.evictOnScroll = true → st.topLineNum ≠ 0 → st.HasRoom (st.topLineNum - 1) false))

/-! ## The invariant -/

structure WindowInv (st : WindowState) : Prop where
  ok : LoaderOk st.ld
  lines : ∀ i < st.ld.entries.length + st.listing.length, i / st.gridType.columns < st.numberOfLines
  resident : st.ld.evictOnScroll = false → ∀ i, st.ld.Bears i → st.ld.Loaded i
  window : st.ld.evictOnScroll = true → ∀ i, st.ld.Bears i → kept st.topLineNum (i / st.gridType.columns) →
    st.ld.Loaded i

/-- A path checked keeps the invariant if what it finds while the pool is full
is off the kept lines. -/
theorem scan_inv {st : WindowState} (h : WindowInv st) {e : PathEntry} {rest : List PathEntry}
    (hl : st.listing = e :: rest) {a : CheckAnswer} {f : Fetched} (hf : a.fetched = some f)
    (hclean : ∀ b, newEntry e a = some b → b.bearsBanner = true →
      st.ld.evictOnScroll = true ∨ assetBufferCount ≤ Slots.usedCount st.ld.pool.used →
      ¬ kept st.topLineNum (st.ld.entries.length / st.gridType.columns)) :
    WindowInv { st with ld := st.scanned e a, listing := rest } := by
  have hlen : st.listing.length = rest.length + 1 := by rw [hl]; rfl
  simp only [WindowState.scanned]
  obtain heq | ⟨b, hb, hcases⟩ := gmCheckFile_cases st.ld false e a
  · rw [heq]
    exact ⟨h.ok, fun i hi => h.lines i (by dsimp only at hi; omega), h.resident, h.window⟩
  · obtain ⟨hbok, -, hbuf⟩ := newEntry_ok hb
    have hok := append_ok h.ok hbok hbuf
    have happ : (st.ld.append b).entries.length = st.ld.entries.length + 1 := by simp [Loader.append]
    obtain ⟨hnb, heq⟩ | ⟨hbears, hfull, heq⟩ | ⟨hbears, hev, hroom, heq⟩ := hcases
    · -- a plain entry
      rw [heq]
      refine ⟨hok, fun i hi => h.lines i (by dsimp only at hi; omega), fun hev i hi => ?_, fun hev i hi hk => ?_⟩
      · obtain hi | ⟨-, hb'⟩ := append_bears hi
        · exact append_loaded b (h.resident hev i hi)
        · simp [hnb] at hb'
      · obtain hi | ⟨-, hb'⟩ := append_bears hi
        · exact append_loaded b (h.window hev i hi hk)
        · simp [hnb] at hb'
    · -- the pool is full: the entry stays without its banner, off the kept lines
      rw [heq]
      refine ⟨⟨hok.entries, hok.owns, hok.slots⟩, fun i hi => h.lines i (by dsimp only at hi; omega),
        fun hev => by simp at hev, fun _ i hi hk => ?_⟩
      obtain hi | ⟨rfl, -⟩ := append_bears hi
      · have hli : st.ld.Loaded i := by
          cases hev : st.ld.evictOnScroll with
          | true => exact h.window hev i hi hk
          | false => exact h.resident hev i hi
        exact append_loaded b hli
      · exact absurd hk (hclean b hb hbears hfull)
    · -- there is a buffer: the entry is loaded as it is found
      rw [heq, hf]
      simp only [Bool.false_eq_true, if_false]
      refine ⟨loadAt_ok hok st.ld.entries.length (some f), fun i hi => h.lines i ?_, fun _ i hi => ?_,
        fun hev' => ?_⟩
      · dsimp only at hi
        rw [loadAt_entries_length] at hi
        omega
      · obtain hi | ⟨rfl, -⟩ := append_bears ((loadAt_bears ..).mp hi)
        · exact loadAt_mono _ (append_loaded b (h.resident hev i hi))
        · apply loadAt_loaded hok ⟨b, append_new _ _, hbears⟩
          right
          apply Slots.freeCount_pos
          show Slots.usedCount st.ld.pool.used < st.ld.pool.used.length
          rw [h.ok.slots]
          exact hroom
      · rw [loadAt_evict] at hev'
        simp [Loader.append, hev] at hev'

/-- A scroll keeps the invariant if the lines kept afterwards were kept before
and are not the line freed, or are the line loaded. -/
theorem scroll_inv {st : WindowState} (h : WindowInv st) (banners : Nat → Fetched) {newLineNum : Nat}
    {down : Bool} (hroom : st.ld.evictOnScroll = true → st.HasRoom newLineNum down)
    (hlines : ∀ l < st.numberOfLines, kept newLineNum l →
      (linesChanged st.numberOfLines newLineNum down).2 = some l ∨
        (kept st.topLineNum l ∧ (linesChanged st.numberOfLines newLineNum down).1 ≠ some l)) :
    WindowInv (st.scrolled banners newLineNum down) := by
  have hc := st.gridType.columns_pos
  have hfreed := gmLineUnload_freed h.ok st.gridType.columns
    (linesChanged st.numberOfLines newLineNum down).1
  have hres : st.ld.evictOnScroll = false → gmLineUnload st.gridType.columns st.ld
      (linesChanged st.numberOfLines newLineNum down).1 = st.ld := gmLineUnload_resident _ _
  have hscroll : st.scrolled banners newLineNum down = { st with
      ld := gmLineBringIn st.gridType.columns (fun i => some (banners i))
        (gmLineUnload st.gridType.columns st.ld (linesChanged st.numberOfLines newLineNum down).1)
        (linesChanged st.numberOfLines newLineNum down).2
      topLineNum := newLineNum } := rfl
  rw [hscroll]
  simp only [WindowState.HasRoom] at hroom
  generalize linesChanged st.numberOfLines newLineNum down = lines at hroom hlines hfreed hres ⊢
  obtain ⟨unload, toLoad⟩ := lines
  dsimp only at hroom hlines hfreed hres ⊢
  generalize gmLineUnload st.gridType.columns st.ld unload = ld₁ at hroom hfreed hres ⊢
  -- the lines of the screen that are kept, once the line going out is freed
  have hstill : st.ld.evictOnScroll = true → ∀ i, st.ld.Bears i →
      kept st.topLineNum (i / st.gridType.columns) → unload ≠ some (i / st.gridType.columns) →
      ld₁.Loaded i := by
    intro hev i hb hk hne
    refine hfreed.loaded (fun hmem => ?_) (h.window hev i hb hk)
    cases unload with
    | none => cases hmem
    | some l => exact hne (congrArg some ((mem_lineIndices hc).mp hmem).1.symm)
  cases hev : st.ld.evictOnScroll with
  | false =>
    -- everything is resident and stays
    obtain rfl := hres hev
    rw [gmLineBringIn_resident _ _ _ hev]
    exact ⟨h.ok, h.lines, h.resident, fun hev' => by simp [hev] at hev'⟩
  | true =>
    have hev₁ : ld₁.evictOnScroll = true := hfreed.evict.trans hev
    cases toLoad with
    | none =>
      have hload : gmLineBringIn st.gridType.columns (fun i => some (banners i)) ld₁ none = ld₁ := rfl
      rw [hload]
      refine ⟨hfreed.ok, fun i hi => h.lines i (hfreed.length ▸ hi), fun hev' => by simp [hev₁] at hev',
        fun _ i hi hk => ?_⟩
      have hb := (hfreed.bears i).mp hi
      have hlt := h.lines i (Nat.lt_of_lt_of_le (bears_lt hb) (Nat.le_add_right ..))
      obtain hn | ⟨hk', hne⟩ := hlines _ hlt hk
      · cases hn
      · exact hstill hev i hb hk' hne
    | some l =>
      have hload : gmLineBringIn st.gridType.columns (fun i => some (banners i)) ld₁ (some l) =
          ld₁.loadAll (fun i => some (banners i)) (ld₁.lineIndices st.gridType.columns l) := by
        simp [gmLineBringIn, gmLineLoad, hev₁]
      obtain ⟨hlen, hev₂, hbears, -⟩ := loadAll_same ld₁ (fun i => some (banners i))
        (ld₁.lineIndices st.gridType.columns l)
      rw [hload]
      refine ⟨loadAll_ok hfreed.ok _ _, fun i hi => h.lines i ?_, fun hev' => ?_, fun _ i hi hk => ?_⟩
      · dsimp only at hi
        rwa [hlen, hfreed.length] at hi
      · rw [hev₂, hev₁] at hev'
        cases hev'
      · have hb₁ := (hbears i).mp hi
        have hb := (hfreed.bears i).mp hb₁
        have hlt := h.lines i (Nat.lt_of_lt_of_le (bears_lt hb) (Nat.le_add_right ..))
        obtain hn | ⟨hk', hne⟩ := hlines _ hlt hk
        · -- the line brought in
          have hmem : i ∈ ld₁.lineIndices st.gridType.columns l :=
            (mem_lineIndices hc).mpr ⟨(Option.some.inj hn).symm, bears_lt hb₁⟩
          exact loadAll_loaded hfreed.ok (lineIndices_nodup ..) (fun _ _ => rfl) (hroom hev l rfl) i hmem hb₁
        · exact loadAll_mono _ _ (hstill hev i hb hk' hne)

/-- Every step that keeps up keeps the invariant. -/
theorem windowStep_inv (st : WindowState) (op : WindowOp) (h : WindowInv st) (hk : KeepsUp st op) :
    WindowInv (windowStep st op) := by
  cases op with
  | scan info appDol addr banner =>
    simp only [windowStep]
    split
    · rename_i e rest hl
      simp only [KeepsUp, hl] at hk
      exact scan_inv h hl rfl hk
    · rename_i hl
      split
      · exact h
      · refine ⟨h.ok, fun i hi => line_lt_linesFor st.gridType.columns_pos ?_, h.resident, h.window⟩
        simpa [hl] using hi
  | down banners =>
    simp only [windowStep]
    split
    · exact h
    · apply scroll_inv h banners hk
      intro l hl hkept
      obtain ⟨h1, h2⟩ := hkept
      simp only [linesChanged_down, kept]
      -- the line that comes into the window is loaded; the others stay
      by_cases hlast : l = st.topLineNum + 6
      · left
        rw [if_pos (show st.topLineNum + 1 + 5 < st.numberOfLines by omega)]
        exact congrArg some (by omega)
      · right
        refine ⟨by omega, fun he => ?_⟩
        split at he
        · have := Option.some.inj he
          omega
        · cases he
  | up banners =>
    simp only [windowStep]
    split
    · exact h
    · rename_i htop
      apply scroll_inv h banners (fun hev => hk hev htop)
      intro l hl hkept
      obtain ⟨h1, h2⟩ := hkept
      simp only [linesChanged_up, kept]
      -- the same at the other end
      by_cases hfirst : l + 2 = st.topLineNum
      · left
        rw [if_pos (show 2 ≤ st.topLineNum - 1 + 1 by omega)]
        exact congrArg some (by omega)
      · right
        refine ⟨by omega, fun he => ?_⟩
        split at he
        · have := Option.some.inj he
          omega
        · cases he

/-- Every banner on the lines shown is loaded, in a buffer no other entry has. -/
def VisibleLoaded (st : WindowState) : Prop :=
  ∀ i, st.ld.Bears i → st.topLineNum ≤ i / st.gridType.columns →
    i / st.gridType.columns ≤ st.topLineNum + 3 →
    ∃ e k, st.ld.entries[i]? = some e ∧ e.banner.state = .loaded ∧ e.banner.buf = some k ∧
      st.ld.pool.used[k]? = some true ∧ ∀ j, st.ld.own j = some k → j = i

theorem WindowInv.visible {st : WindowState} (h : WindowInv st) : VisibleLoaded st := by
  intro i hb h1 h2
  have hl : st.ld.Loaded i := by
    cases hev : st.ld.evictOnScroll with
    | false => exact h.resident hev i hb
    | true => exact h.window hev i hb ⟨by omega, by omega⟩
  obtain ⟨e, he, hs⟩ := hl
  obtain ⟨k, hk⟩ := Option.ne_none_iff_exists'.mp ((h.ok.entries e (List.mem_of_getElem? he)).held.mp hs)
  have hown : st.ld.own i = some k := by simp [Loader.own, he, hk]
  exact ⟨e, k, he, hs, hk, h.ok.owns.used hown, fun j hj => h.ok.owns.inj hj hown⟩

theorem start_inv (listing : List PathEntry) (t : GridType) : WindowInv (.start listing t) := by
  have hnone : ∀ i, ¬ (WindowState.start listing t).ld.Bears i := by
    rintro i ⟨e, he, -⟩
    simp [WindowState.start, Loader.empty] at he
  refine ⟨empty_ok, fun i hi => ?_, fun _ i hi => absurd hi (hnone i), fun _ i hi => absurd hi (hnone i)⟩
  apply line_lt_linesFor t.columns_pos
  simpa [WindowState.start, Loader.empty] using hi

/-- In every run whose steps all keep up, the lines shown are loaded in every
state reached: in particular once the scan is complete. -/
theorem visible_loaded (listing : List PathEntry) (t : GridType) (ops : List WindowOp)
    (hk : Steps.Guarded windowStep KeepsUp (.start listing t) ops) {pre : List WindowOp} (hp : pre <+: ops) :
    VisibleLoaded (Steps.run windowStep (.start listing t) pre) :=
  (Steps.inv_run WindowInv windowStep_inv (start_inv listing t) (hk.upto hp)).visible

/-! ## A scroll ahead of the scan -/

/-- `/000.iso`, `/001.iso`, … -/
def numberedGame (i : Nat) : PathEntry :=
  ⟨cstr "/" ++ [.ofNat (48 + i / 100), .ofNat (48 + i / 10 % 10), .ofNat (48 + i % 10)] ++ cstr ".iso", .game⟩

def plainInfo : FoundGame := ⟨⟨true, cstr "GAMEID", 0, 0, 0, 0x480, 0x100, 0x440, 64, 64⟩, by decide⟩

def plainBanner : Fetched := ⟨⟨cstr "BNR1", [], ⟨[], [], [], [], []⟩⟩, false⟩

/-- 136 games, eight to a line: ten scrolls while the list is still empty, the whole scan,
which fills the pool, and three more scrolls, with the window on. -/
def scrolledOn : List WindowOp :=
  List.replicate 10 (.down fun _ => plainBanner) ++ List.replicate 137 (.scan plainInfo none 0 plainBanner) ++
    List.replicate 3 (.down fun _ => plainBanner)

theorem visible_loaded_scrolled :
    let st := Steps.run windowStep (.start ((List.range 136).map numberedGame) .squareIcons) scrolledOn
    (st.complete = true ∧ st.ld.evictOnScroll = true ∧ st.topLineNum = 13) ∧ VisibleLoaded st := by
  intro st
  have hkeeps : Steps.Guarded windowStep KeepsUp (.start ((List.range 136).map numberedGame) .squareIcons)
      scrolledOn := by decide +kernel
  exact ⟨by decide +kernel, visible_loaded _ _ scrolledOn hkeeps (List.prefix_refl _)⟩

/-- 136 games, eight to a line: the user scrolls to the last lines while the
list is still empty, then the scan finds the games and completes. -/
def scrolledAhead : List WindowOp :=
  List.replicate 13 (.down fun _ => plainBanner) ++ List.replicate 137 (.scan plainInfo none 0 plainBanner)

/-- The 129th game is on the last line shown, and its banner is never loaded. -/
theorem scrolled_ahead_blank :
    let st := Steps.run windowStep (.start ((List.range 136).map numberedGame) .squareIcons) scrolledAhead
    st.complete = true ∧ st.topLineNum = 13 ∧ ¬ VisibleLoaded st := by
  intro st
  have hrun : st.complete = true ∧ st.topLineNum = 13 ∧ st.gridType = .squareIcons ∧
      (st.ld.entries[128]?).map (fun e => (e.bearsBanner, e.banner.state)) = some (true, .none) := by
    decide +kernel
  obtain ⟨hcomplete, htop, hgrid, hentry⟩ := hrun
  obtain ⟨e, he, hpair⟩ := Option.map_eq_some_iff.mp hentry
  obtain ⟨hb, hs⟩ := Prod.mk.inj hpair
  refine ⟨hcomplete, htop, fun hv => ?_⟩
  obtain ⟨e', k, he', hl, -⟩ := hv 128 ⟨e, he, hb⟩ (by rw [htop, hgrid]; decide) (by rw [htop, hgrid]; decide)
  obtain rfl : e = e' := Option.some.inj (he.symm.trans he')
  rw [hs] at hl
  cases hl

end Cubiboot
