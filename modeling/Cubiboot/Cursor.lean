import Cubiboot.Browser

/-
  The cursor stays on the list and in the window.

  The grid is set up twice a scan: for the paths listed, with the cursor back at
  the top, and at the end for the entries they turned out to be. The d-pad, the
  window's four lines and the jump keep the cursor where it belongs at any time,
  but nothing brings it back when the second set-up finds fewer lines than the
  first: `gm_setup_grid(gm_entry_count, false)` does not touch it. And a list of
  more paths than `browser_lines` has lines for is possible where a line has
  three or four slots.

  What is proved:
    1. `workerStep_cursor`, `movesOf_cursor`, `applyPending_cursor`,
       `gmStartThread_cursor` — each access to the grid keeps `CursorInv`, the
       worker's set-ups under `FitsCursor`.
    2. `cursor_safe` — hence over every run, in every state and wherever the
       handlers of a frame read a line.
    3. `cursor_below_shrunk_list` — the second set-up leaves the cursor behind.
-/

set_option autoImplicit false

namespace Cubiboot

/-- The line the cursor is on. -/
def Grid.row (g : Grid) : Int := g.selectedSlot / g.columnsPerLine

structure CursorSafe (g : Grid) : Prop where
  slot : 0 ≤ g.selectedSlot
  row : g.row < g.numberOfLines
  top : 0 ≤ g.topLineNum
  window : g.topLineNum ≤ max 0 ((g.numberOfLines : Int) - 4)
  shown : g.topLineNum ≤ g.row ∧ g.row ≤ g.topLineNum + 3
  backed : g.row < maxLines

/-- The condition on a step of the worker. At the first set-up, `browser_lines`
has a line for every eight, four or three paths; at the second, the lines for the
entries still have the cursor on them and fill the window. -/
def FitsCursor (g : Games) (a : WorkerAnswer) : Prop :=
  let cols := g.gridType.columns
  match g.worker with
  | .list => linesFor cols (a.listing.take maxPaths).length ≤ maxLines
  | .setupGrid =>
    g.grid.selectedSlot / cols < linesFor cols g.ld.entries.length ∧
      g.grid.topLineNum ≤ (linesFor cols g.ld.entries.length : Int) - 4
  | _ => True

instance (g : Games) (a : WorkerAnswer) : Decidable (FitsCursor g a) :=
  match hw : g.worker with
  | .list => decidable_of_iff (linesFor g.gridType.columns (a.listing.take maxPaths).length ≤ maxLines)
      (by simp only [FitsCursor, hw])
  | .setupGrid => decidable_of_iff
      (g.grid.selectedSlot / g.gridType.columns < linesFor g.gridType.columns g.ld.entries.length ∧
        g.grid.topLineNum ≤ (linesFor g.gridType.columns g.ld.entries.length : Int) - 4)
      (by simp only [FitsCursor, hw])
  | .idle | .begin | .arm _ | .poll _ | .checkPath _ _ | .publish _ | .pair | .background _ | .finish =>
    isTrue (by simp only [FitsCursor, hw])

/-- The paths of this scan still to be checked. -/
def WorkerPc.pathsLeft : WorkerPc → Nat
  | .arm listing => listing.length
  | .poll rest => rest.length
  | .checkPath _ rest => rest.length + 1
  | .publish rest => rest.length
  | _ => 0

/-- Before the first set-up of this scan. -/
def WorkerPc.unset : WorkerPc → Bool
  | .begin | .list => true
  | _ => false

/-- The grid is set up, for all that can be listed. -/
structure GridFits (g : Games) : Prop where
  columns : g.grid.columnsPerLine = g.gridType.columns
  backed : g.grid.numberOfLines ≤ maxLines
  row : g.grid.row < g.grid.numberOfLines
  window : g.grid.topLineNum ≤ (g.grid.numberOfLines : Int) - 4
  room : linesFor g.gridType.columns (g.ld.entries.length + g.worker.pathsLeft) ≤ g.grid.numberOfLines

structure CursorInv (g : Games) : Prop where
  base : g.Base
  columns : 0 < g.grid.columnsPerLine
  slot : 0 ≤ g.grid.selectedSlot
  top : 0 ≤ g.grid.topLineNum
  shown : g.grid.topLineNum ≤ g.grid.row ∧ g.grid.row ≤ g.grid.topLineNum + 3
  unset : g.worker.unset = true → g.grid.numberOfLines = 0
  set : g.worker.unset = false → GridFits g

theorem CursorInv.safe {g : Games} (h : CursorInv g) (hn : 0 < g.grid.numberOfLines) : CursorSafe g.grid := by
  have hset : g.worker.unset = false := by
    apply Bool.eq_false_iff.mpr
    intro hu
    have := h.unset hu
    omega
  have hfits := h.set hset
  have hrow := hfits.row
  have hbacked := hfits.backed
  have hwindow := hfits.window
  exact ⟨h.slot, hrow, h.top, by omega, h.shown, by omega⟩

/-! ## The worker -/

/-- A step that leaves the grid alone and lists no more than it takes off the
paths. -/
theorem CursorInv.goesOn {g g' : Games} (h : CursorInv g) (hb : g'.Base) (hgrid : g'.grid = g.grid)
    (htype : g'.gridType = g.gridType) (hu : g'.worker.unset = g.worker.unset)
    (hroom : g'.ld.entries.length + g'.worker.pathsLeft ≤ g.ld.entries.length + g.worker.pathsLeft) :
    CursorInv g' := by
  refine ⟨hb, by rw [hgrid]; exact h.columns, by rw [hgrid]; exact h.slot, by rw [hgrid]; exact h.top,
    by rw [hgrid]; exact h.shown, fun hu' => by rw [hgrid]; exact h.unset (hu ▸ hu'), fun hu' => ?_⟩
  have hfits := h.set (hu ▸ hu')
  refine ⟨by rw [hgrid, htype]; exact hfits.columns, by rw [hgrid]; exact hfits.backed,
    by rw [hgrid]; exact hfits.row, by rw [hgrid]; exact hfits.window, ?_⟩
  rw [hgrid, htype]
  exact (linesFor_mono _ hroom).trans hfits.room

theorem workerStep_cursor (held : Bool) (g : Games) (a : WorkerAnswer) (h : CursorInv g) (hG : FitsCursor g a) :
    CursorInv (workerStep held g a) := by
  have hb := workerStep_base held g a h.base
  cases hw : g.worker with
  | idle => simpa only [workerStep, hw] using h
  | begin =>
    simp only [workerStep, hw] at hb ⊢
    exact h.goesOn hb rfl rfl (by rw [hw]; rfl) (by rw [hw]; exact Nat.le_refl _)
  | list =>
    -- nothing is listed yet, so the lines counted are all there will be
    have hempty := h.base.empty (by rw [hw]; rfl)
    simp only [FitsCursor, hw] at hG
    simp only [workerStep, hw] at hb ⊢
    have hcols := g.gridType.columns_pos
    have hlines := linesFor_ge g.gridType.columns (a.listing.take maxPaths).length
    have hrow : ∀ cols : Nat, (0 : Int) / cols = 0 := fun cols => Int.zero_ediv _
    have hshown : (gmSetupGrid g.gridType (a.listing.take maxPaths).length true g.grid).row = 0 := hrow _
    refine ⟨hb, hcols, Int.le_refl _, Int.le_refl _, ?_, fun hu => (by cases hu), fun _ => ?_⟩
    · rw [hshown]
      exact ⟨Int.le_refl 0, show (0 : Int) ≤ 0 + 3 by omega⟩
    · refine ⟨rfl, hG, ?_, ?_, ?_⟩
      · rw [hshown]
        show (0 : Int) < (linesFor g.gridType.columns (a.listing.take maxPaths).length : Nat)
        omega
      · show (0 : Int) ≤ (linesFor g.gridType.columns (a.listing.take maxPaths).length : Nat) - 4
        omega
      · show linesFor g.gridType.columns (g.ld.entries.length + (a.listing.take maxPaths).length) ≤ _
        rw [hempty, List.length_nil, Nat.zero_add]
        exact Nat.le_refl _
  | arm listing =>
    obtain ⟨armed, path, consumed, heq⟩ := workerStep_arm held a hw
    rw [heq] at hb ⊢
    refine h.goesOn hb rfl rfl (by rw [hw]; rfl) ?_
    rw [hw]
    simp only [WorkerPc.pathsLeft, gmSortFiles, List.length_insertionSort, Nat.le_refl]
  | poll rest =>
    obtain ⟨-, heq⟩ | ⟨-, heq⟩ | ⟨e, rest', rfl, heq⟩ := workerStep_poll held a hw <;> rw [heq] at hb ⊢
    · exact h.goesOn hb rfl rfl (by rw [hw]; rfl) (Nat.le_add_right _ _)
    · exact h.goesOn hb rfl rfl (by rw [hw]; rfl) (Nat.le_add_right _ _)
    · exact h.goesOn hb rfl rfl (by rw [hw]; rfl) (by rw [hw]; exact Nat.le_refl _)
  | checkPath e rest =>
    -- an entry more is a path less
    obtain ⟨-, -, hlen⟩ := gmCheckFile_kept g.ld g.scanIsLastPlayed e a.check
    simp only [workerStep, hw] at hb ⊢
    refine h.goesOn hb rfl rfl (by rw [hw]; split <;> rfl) ?_
    rw [hw]
    split <;> simp only [WorkerPc.pathsLeft] <;> omega
  | publish rest =>
    simp only [workerStep, hw] at hb ⊢
    exact h.goesOn hb rfl rfl (by rw [hw]; rfl) (by rw [hw]; exact Nat.le_refl _)
  | pair =>
    simp only [workerStep, hw] at hb ⊢
    refine h.goesOn hb rfl rfl (by rw [hw]; rfl) ?_
    rw [hw]
    simp only [gmFindMultiDisc_length, WorkerPc.pathsLeft, Nat.le_refl]
  | setupGrid =>
    -- the list may be shorter than what was listed: the cursor has to be in it still
    have hfits := h.set (by rw [hw]; rfl)
    have hroom := hfits.room
    simp only [FitsCursor, hw] at hG
    rw [hw] at hroom
    simp only [workerStep, hw] at hb ⊢
    have hnext : (if g.scanIsLastPlayed then WorkerPc.background BgPc.matchSlot else .finish).pathsLeft = 0 ∧
        (if g.scanIsLastPlayed then WorkerPc.background BgPc.matchSlot else .finish).unset = false := by
      split <;> exact ⟨rfl, rfl⟩
    have hshown := h.shown
    simp only [Grid.row, hfits.columns] at hshown
    refine ⟨hb, g.gridType.columns_pos, h.slot, h.top, hshown, fun hu => ?_, fun _ => ?_⟩
    · rw [hnext.2] at hu
      cases hu
    · refine ⟨rfl, hroom.trans hfits.backed, hG.1, hG.2, ?_⟩
      rw [hnext.1]
      exact Nat.le_refl _
  | background pc =>
    obtain ⟨-, heq⟩ | ⟨-, heq⟩ | heq := workerStep_background held a hw <;> rw [heq] at hb ⊢
    · exact h.goesOn hb rfl rfl (by rw [hw]; rfl) (by rw [hw]; exact Nat.le_refl _)
    · exact h.goesOn hb rfl rfl (by rw [hw]; rfl) (by rw [hw]; exact Nat.le_refl _)
    · have hkeeps := bgWorker_keeps a.fetch (g.bgState pc)
      refine h.goesOn hb rfl rfl (by rw [hw]; rfl) ?_
      rw [hw]
      exact Nat.le_of_eq hkeeps.length
  | finish =>
    simp only [workerStep, hw] at hb ⊢
    exact h.goesOn hb rfl rfl (by rw [hw]; rfl) (by rw [hw]; exact Nat.le_refl _)

/-! ## The menu -/

theorem gmStartThread_cursor (target : Option Path) (g : Games) (h : CursorInv g) :
    CursorInv (gmStartThread target g) := by
  have hb := gmStartThread_base h.base target
  obtain ⟨-, heq⟩ | ⟨-, -, heq⟩ | ⟨-, -, heq⟩ := gmStartThread_cases target g
  · rw [heq]
    exact h
  · rw [heq] at hb ⊢
    exact h.goesOn hb rfl rfl rfl (Nat.le_refl _)
  · rw [heq] at hb ⊢
    exact ⟨hb, h.columns, h.slot, h.top, h.shown, fun _ => rfl, fun hu => by cases hu⟩

/-- The cursor set anew by the d-pad, with the line it is on now. -/
theorem CursorInv.moved {g g' : Games} (h : CursorInv g) (hs : Scrolled g g')
    (hslot : 0 ≤ g'.grid.selectedSlot) {row top : Int} (hrow : g'.grid.row = row)
    (htop : g'.grid.topLineNum = top) (htop0 : 0 ≤ top) (hshown : top ≤ row ∧ row ≤ top + 3)
    (hfits : GridFits g → row < g.grid.numberOfLines ∧ top ≤ (g.grid.numberOfLines : Int) - 4) :
    CursorInv g' := by
  subst hrow htop
  have hw : g'.worker = g.worker := by rw [hs.eq]
  have ht : g'.gridType = g.gridType := by rw [hs.eq]
  refine ⟨h.base.scrolls hs, by rw [hs.columns]; exact h.columns, hslot, htop0, hshown, fun hu => ?_, fun hu => ?_⟩
  · rw [hs.lines]
    exact h.unset (hw ▸ hu)
  · have hset := h.set (hw ▸ hu)
    obtain ⟨hrow, hwindow⟩ := hfits hset
    refine ⟨by rw [hs.columns, ht]; exact hset.columns, by rw [hs.lines]; exact hset.backed,
      by rw [hs.lines]; exact hrow, by rw [hs.lines]; exact hwindow, ?_⟩
    rw [hs.lines, hs.length, hw, ht]
    exact hset.room

theorem applyPending_cursor (g : Games) (h : CursorInv g) : CursorInv g.applyPending := by
  obtain ⟨-, heq⟩ | ⟨-, -, heq⟩ | ⟨slot, ⟨-, hlt⟩, heq⟩ := applyPending_cases g <;> rw [heq]
  · exact h
  · have hb : ({ g with pending := -1 } : Games).Base :=
      ⟨h.base.running, h.base.backing, h.base.empty, h.base.unfinished, h.base.uncut⟩
    exact h.goesOn hb rfl rfl rfl (Nat.le_refl _)
  · -- something is listed, so the grid is set up for it
    have hset : g.worker.unset = false := by
      cases hw : g.worker with
      | begin | list =>
        have hempty := h.base.empty (by rw [hw]; rfl)
        simp [hempty] at hlt
      | _ => rfl
    have hfits := h.set hset
    have hline : slot / g.grid.columnsPerLine < g.grid.numberOfLines := by
      have hcap := (linesFor_mono g.gridType.columns (Nat.le_add_right _ g.worker.pathsLeft)).trans hfits.room
      rw [hfits.columns]
      exact Nat.lt_of_lt_of_le (line_lt_linesFor g.gridType.columns_pos hlt) hcap
    obtain ⟨hend, htop, hbottom⟩ := windowStart_spec g.grid.columnsPerLine g.grid.numberOfLines slot
    have hbottom := hbottom hline
    have hwindow := hfits.window
    have htop0 := h.top
    have hrow : (({ g.grid with
        topLineNum := windowStart g.grid.columnsPerLine g.grid.numberOfLines slot
        selectedSlot := slot } : Grid).row) = ((slot / g.grid.columnsPerLine : Nat) : Int) :=
      (Int.natCast_ediv _ _).symm
    generalize hl : slot / g.grid.columnsPerLine = line at *
    have hb : ({ g with
        pending := -1
        grid := { g.grid with
          topLineNum := windowStart g.grid.columnsPerLine g.grid.numberOfLines slot
          selectedSlot := slot } } : Games).Base :=
      ⟨h.base.running, h.base.backing, h.base.empty, h.base.unfinished, h.base.uncut⟩
    refine ⟨hb, h.columns, Int.natCast_nonneg _, Int.natCast_nonneg _, ?_, h.unset, fun _ => ?_⟩
    · rw [hrow]
      dsimp only
      omega
    · refine ⟨hfits.columns, hfits.backed, ?_, ?_, hfits.room⟩
      · rw [hrow]
        exact Int.ofNat_lt.mpr hline
      · dsimp only
        omega

/-! ### The d-pad -/

theorem row_down {g : Grid} (hc : 0 < g.columnsPerLine) :
    (g.selectedSlot + g.columnsPerLine) / g.columnsPerLine = g.row + 1 := by
  have h := Int.add_mul_ediv_right g.selectedSlot 1 (show (g.columnsPerLine : Int) ≠ 0 by omega)
  rwa [Int.one_mul] at h

theorem row_up {g : Grid} (hc : 0 < g.columnsPerLine) :
    (g.selectedSlot - g.columnsPerLine) / g.columnsPerLine = g.row - 1 := by
  have h := Int.add_mul_ediv_right g.selectedSlot (-1) (show (g.columnsPerLine : Int) ≠ 0 by omega)
  rwa [Int.neg_one_mul] at h

/-- A step to the side that does not leave the line. -/
theorem row_side {g : Grid} (hc : 0 < g.columnsPerLine) {d : Int}
    (h0 : 0 ≤ g.selectedSlot % g.columnsPerLine + d) (h1 : g.selectedSlot % g.columnsPerLine + d < g.columnsPerLine) :
    (g.selectedSlot + d) / g.columnsPerLine = g.row := by
  have hpos : (0 : Int) < g.columnsPerLine := by omega
  have hsum : g.selectedSlot % g.columnsPerLine + d + g.columnsPerLine * g.row = g.selectedSlot + d := by
    have := Int.mul_ediv_add_emod g.selectedSlot g.columnsPerLine
    rw [Grid.row]
    omega
  exact ((Int.ediv_emod_unique hpos).mpr ⟨hsum, h0, h1⟩).1

/-- The cursor stays on its line. -/
theorem CursorInv.side {g : Games} (h : CursorInv g) {slot : Int} (hslot : 0 ≤ slot)
    (hrow : slot / g.grid.columnsPerLine = g.grid.row) :
    CursorInv { g with grid := { g.grid with selectedSlot := slot } } :=
  h.moved (cursorTo_scrolled g slot) hslot hrow rfl h.top h.shown fun hfits => ⟨hfits.row, hfits.window⟩

theorem moveRight_cursor (g : Games) (h : CursorInv g) : CursorInv (moveRight g) := by
  rw [moveRight]
  split
  · exact h
  · rename_i hedge
    have hc := h.columns
    have hslot := h.slot
    have hmod0 := Int.emod_nonneg g.grid.selectedSlot (show (g.grid.columnsPerLine : Int) ≠ 0 by omega)
    have hmod1 := Int.emod_lt_of_pos g.grid.selectedSlot (show (0 : Int) < g.grid.columnsPerLine by omega)
    exact h.side (by omega) (row_side hc (by omega) (by omega))

theorem moveLeft_cursor (g : Games) (h : CursorInv g) : CursorInv (moveLeft g) := by
  rw [moveLeft]
  split
  · exact h
  · rename_i hedge
    have hc := h.columns
    have hmod0 := Int.emod_nonneg g.grid.selectedSlot (show (g.grid.columnsPerLine : Int) ≠ 0 by omega)
    have hmod1 := Int.emod_lt_of_pos g.grid.selectedSlot (show (0 : Int) < g.grid.columnsPerLine by omega)
    -- not on the first slot of a line, so not on slot 0
    have hne : g.grid.selectedSlot ≠ 0 := fun hz => hedge (by rw [hz]; exact Int.zero_emod _)
    have hslot := h.slot
    exact h.side (by omega) (row_side hc (by omega) (by omega))

theorem lineEndPos_bottom (g : Grid) (line : Int) :
    drawBoundBottom - drawOffsetY - 10 ≤ lineEndPos g line ↔ g.topLineNum + 3 ≤ line := by
  simp only [drawBoundBottom, drawOffsetY, lineEndPos, drawBoundTop]
  omega

theorem lineEndPos_top (g : Grid) (line : Int) :
    lineEndPos g line ≤ drawBoundTop + drawOffsetY - 10 ↔ line ≤ g.topLineNum := by
  simp only [drawOffsetY, lineEndPos, drawBoundTop]
  omega

theorem moveDown_cursor (dispatch : Bool) (fetch : Nat → Option Fetched) (g : Games) (h : CursorInv g) :
    CursorInv (moveDown dispatch fetch g) := by
  have hc := h.columns
  have hslot := h.slot
  have hdown := row_down hc
  obtain ⟨htop, hbottom⟩ := h.shown
  have htop0 := h.top
  have hline : g.grid.selectedSlot / g.grid.columnsPerLine = g.grid.row := rfl
  simp only [moveDown, lineEndPos_bottom, hline]
  split
  · exact h
  · rename_i hlast
    split
    · rename_i hscroll
      split
      · refine h.moved (scrollTo_scrolled ..) (Int.add_nonneg hslot (Int.natCast_nonneg _)) hdown
          (show _ = g.grid.topLineNum + 1 from rfl) (by omega) (by omega) fun hfits => ?_
        have hrow := hfits.row
        have hwindow := hfits.window
        -- a full window at the end of the list has the cursor on the last line
        have hmore : (g.grid.numberOfLines : Int) - g.grid.topLineNum ≠ 4 := by
          intro hfour
          have hpast : (g.grid.numberOfLines : Int) ≤
              (g.grid.selectedSlot + g.grid.columnsPerLine) / g.grid.columnsPerLine := by
            rw [hdown]
            omega
          rw [Int.le_ediv_iff_mul_le (by omega)] at hpast
          exact hlast ⟨hfour, by omega⟩
        omega
      · exact h
    · refine h.moved (cursorTo_scrolled ..) (Int.add_nonneg hslot (Int.natCast_nonneg _)) hdown
        (show _ = g.grid.topLineNum from rfl) htop0 (by omega) fun hfits => ?_
      have hwindow := hfits.window
      omega

theorem moveUp_cursor (dispatch : Bool) (fetch : Nat → Option Fetched) (g : Games) (h : CursorInv g) :
    CursorInv (moveUp dispatch fetch g) := by
  have hc := h.columns
  have hup := row_up hc
  obtain ⟨htop, hbottom⟩ := h.shown
  have htop0 := h.top
  -- the slot above exists where there is a line above
  have hslot : 0 ≤ g.grid.row - 1 → 0 ≤ g.grid.selectedSlot - g.grid.columnsPerLine := by
    intro habove
    rw [← hup, Int.le_ediv_iff_mul_le (by omega)] at habove
    omega
  have hline : g.grid.selectedSlot / g.grid.columnsPerLine = g.grid.row := rfl
  simp only [moveUp, lineEndPos_top, hline]
  split
  · exact h
  · rename_i hfirst
    split
    · rename_i hscroll
      split
      · refine h.moved (scrollTo_scrolled ..) (hslot (by omega)) hup (show _ = g.grid.topLineNum - 1 from rfl)
          (by omega) (by omega) fun hfits => ?_
        have hrow := hfits.row
        have hwindow := hfits.window
        omega
      · exact h
    · rename_i hstay
      have habove : 0 ≤ g.grid.row - 1 ∧ g.grid.topLineNum ≤ g.grid.row - 1 := by
        by_cases htz : g.grid.topLineNum = 0
        · have hnext : 0 ≤ (g.grid.selectedSlot - g.grid.columnsPerLine) / g.grid.columnsPerLine :=
            Int.ediv_nonneg (by omega) (by omega)
          rw [hup] at hnext
          omega
        · omega
      refine h.moved (cursorTo_scrolled ..) (hslot habove.1) hup (show _ = g.grid.topLineNum from rfl) htop0
        (by omega) fun hfits => ?_
      have hrow := hfits.row
      exact ⟨by omega, hfits.window⟩

theorem cursor_gamesInv : GamesInv FitsCursor CursorInv where
  step := workerStep_cursor
  start := gmStartThread_cursor
  jump := applyPending_cursor
  move := fun f _ h =>
    (movesOf_inv CursorInv moveRight_cursor moveLeft_cursor moveDown_cursor moveUp_cursor f h).2.2

/-! ## The whole system -/

theorem coldBoot_cursor (o : MenuOptions) : CursorInv (Browser.coldBoot o).games := by
  have hgrid : (Browser.coldBoot o).games.grid = ⟨8, 0, 0, 0⟩ := rfl
  have hset : (Browser.coldBoot o).games.worker = .begin := rfl
  refine ⟨coldBoot_base o, ?_, ?_, ?_, ?_, fun _ => by rw [hgrid], fun hu => ?_⟩
  · rw [hgrid]
    decide
  · rw [hgrid]
  · rw [hgrid]
  · rw [hgrid]
    decide
  · rw [hset] at hu
    cases hu

/-- Over every run whose set-ups fit the cursor: in every state on the way, and
where the DOWN and the UP handler of each frame read a line's position, the
cursor is on the list and in the window, as long as there is a list. -/
theorem cursor_safe (o : MenuOptions) (ls : List BrowserLabel)
    (hg : Steps.Guarded browserStep (WorkerMeets FitsCursor) (.coldBoot o) ls) {pre : List BrowserLabel} :
    (pre <+: ls → 0 < (Steps.run browserStep (.coldBoot o) pre).games.grid.numberOfLines →
      CursorSafe (Steps.run browserStep (.coldBoot o) pre).games.grid) ∧
    ∀ f, pre ++ [.frame f] <+: ls →
      let b := Steps.run browserStep (.coldBoot o) pre
      reachesStart f b → (afterA f b).submenu = .loader →
        (0 < (beforeDown f (afterA f b).games).grid.numberOfLines →
          CursorSafe (beforeDown f (afterA f b).games).grid) ∧
        (0 < (beforeUp f (afterA f b).games).grid.numberOfLines → CursorSafe (beforeUp f (afterA f b).games).grid) := by
  have hinv : ∀ {pre}, pre <+: ls → CursorInv (Steps.run browserStep (.coldBoot o) pre).games := fun hp =>
    Steps.inv_run (fun b => CursorInv b.games) (fun _ _ h hG => cursor_gamesInv.browserStep h hG)
      (coldBoot_cursor o) (hg.upto hp)
  refine ⟨fun hp hn => (hinv hp).safe hn, ?_⟩
  intro f hp b hr _
  have hb : CursorInv b.games := hinv ((List.prefix_append pre [.frame f]).trans hp)
  have hG : WorkerMeets FitsCursor b (.frame f) := (hg.upto hp).at
  obtain ⟨hdown, hup, -⟩ := movesOf_inv CursorInv moveRight_cursor moveLeft_cursor moveDown_cursor moveUp_cursor f
    (cursor_gamesInv.afterA hb hG hr)
  exact ⟨hdown.safe, hup.safe⟩

/-- A folder of three games; the cursor goes to the second. -/
def threeGames : WorkerAnswer := { quietAnswer with listing := (List.range 3).map numberedGame }

def scanThenRight : List BrowserLabel :=
  List.replicate 15 (.worker threeGames) ++ [.frame { quietFrame with right := true }]

theorem cursor_safe_three_games :
    CursorSafe (Steps.run browserStep (.coldBoot plainOptions) scanThenRight).games.grid := by
  have hg : Steps.Guarded browserStep (Unwaited FitsCursor) (.coldBoot plainOptions) scanThenRight := by
    decide +kernel
  exact (cursor_safe plainOptions scanThenRight (hg.mono fun _ _ => workerMeets_of_unwaited)).1
    (List.prefix_refl _) (by decide +kernel)

/-- Thirteen files of which none is a game: three to a line, five lines. -/
def noGames : WorkerAnswer :=
  { quietAnswer with
    listing := (List.range 13).map numberedGame
    check := { quietAnswer.check with info := ⟨.invalid, by decide⟩ } }

/-- Down to the fifth line while the files are checked. -/
def downWhileChecked : List BrowserLabel :=
  [.worker noGames, .worker noGames] ++ List.replicate 4 (.frame { quietFrame with down := true }) ++
    List.replicate 31 (.worker noGames)

/-- The list ends with the four lines it has at least, the cursor on the fifth. -/
theorem cursor_below_shrunk_list :
    let g := (Steps.run browserStep (.coldBoot { plainOptions with gridType := .banners }) downWhileChecked).games
    g.running = false ∧ 0 < g.grid.numberOfLines ∧ ¬ CursorSafe g.grid := by
  intro g
  have hend : g.running = false ∧ g.grid = ⟨3, 4, 1, 12⟩ := by decide +kernel
  refine ⟨hend.1, ?_, fun h => ?_⟩
  · rw [hend.2]
    decide
  · have hrow := h.row
    rw [hend.2] at hrow
    exact absurd hrow (by decide)

end Cubiboot
