import Cubiboot.Lib.Sweep
import Cubiboot.GridAnim
import Cubiboot.Listing

/-
  The room in `browser_lines`: every loop over the lines of the grid, with each index
  checked against the array.

  The array has 240 lines, enough for a full listing of 1920 paths eight to a line. The
  banner layouts have three or four to a line, and none of the loops looks at the size of
  the array: they all run to `number_of_lines`.

  What is proved:
    1. `gridSetupLines_eq`, `gridJumpLines_eq`, `gridNavigateUpLines_eq`,
       `gridNavigateDownLines_eq`, `gridUpdateLines_eq` — on a grid that fits, the checked
       loops stay inside and do what the unchecked ones of the animated grid do.
    2. `linesFor_le_iff` — the lines of a list fit exactly when it has at most 240 times as
       many entries as a line has columns.
    3. `grid_capacity_iff` — so no listing overruns the array, whatever is done with the
       grid afterwards, exactly when it is no longer than that.
    4. `default_grid_overruns` — 961 folders overrun it in the default layout.

  Correspondence (C ↔ Lean):
    `grid_setup_func`, `grid_jump_to_slot`        ↔ `gridSetupLines`, `gridJumpLines`
    `grid_dispatch_navigate_up`, `_down`          ↔ `gridNavigateUpLines`, `gridNavigateDownLines`
    `grid_update_icon_positions`                  ↔ `gridUpdateLines`
    the icons' loop of `custom_gameselect_menu`   ↔ `drawLines`
    `gm_setup_grid`                               ↔ `setupGrid`
-/

set_option autoImplicit false

namespace Cubiboot

open Sweep

/-! ## The loops -/

def gridSetupLines (numberOfLines : Nat) (ls : List LineBacking) : Option (List LineBacking) := do
  let (_, ls) ← sweep (fun _ (u : Unit) l => (u, { l.stopped with transparency := 0 })) maxLines () ls
  let (_, ls) ← sweep (fun lineNum (u : Unit) l => (u, l.placed 0 lineNum)) numberOfLines () ls
  some ls

def gridJumpLines (numberOfLines start : Nat) (ls : List LineBacking) : Option (List LineBacking) := do
  let (_, ls) ← sweep (fun lineNum (u : Unit) l =>
    (u, { l.stopped with movingIn := false, movingOut := false }.placed start lineNum)) numberOfLines () ls
  some ls

/-- One line of the second loop; what is carried is `found_move_in` and `found_move_out`. -/
def navigateUpLine (found : Bool × Bool) (l : LineBacking) : (Bool × Bool) × LineBacking :=
  let (l, foundMoveIn) := upMove found.1 l
  let (l, foundMoveOut) := upMoveOut found.2 l
  ((foundMoveIn, foundMoveOut), l)

def navigateDownLine (found : Bool × Bool) (l : LineBacking) : (Bool × Bool) × LineBacking :=
  let (l, foundMoveIn) := downMove found.1 l
  let (l, foundMoveOut) := downMoveOut found.2 l
  ((foundMoveIn, foundMoveOut), l)

/-- The loop that looks for a pending animation ends at the first one. -/
def gridNavigateUpLines (numberOfLines : Nat) (ls : List LineBacking) : Option (Bool × List LineBacking) := do
  let refused ← scan (pending .up) numberOfLines ls
  if refused then some (false, ls)
  else do
    let (_, ls) ← sweep (fun _ => navigateUpLine) numberOfLines (false, false) ls
    some (true, ls)

def gridNavigateDownLines (numberOfLines : Nat) (ls : List LineBacking) : Option (Bool × List LineBacking) := do
  let refused ← scan (pending .down) numberOfLines ls
  if refused then some (false, ls)
  else do
    let (_, ls) ← sweep (fun _ (u : Unit) l => (u, l.fadeOut)) numberOfLines () ls
    let (_, ls) ← sweep (fun _ => navigateDownLine) numberOfLines (false, false) ls
    some (true, ls)

/-- The lines fully between the bounds, which the first loop counts. -/
def LineBacking.inBounds (l : LineBacking) : Prop :=
  boundTop ≤ l.rawPositionY - offsetY ∧ l.rawPositionY + offsetY < boundBottom

instance (l : LineBacking) : Decidable l.inBounds := inferInstanceAs (Decidable (_ ∧ _))

def gridUpdateLines (numberOfLines : Nat) (ls : List LineBacking) : Option (List LineBacking) := do
  let (_, ls) ← sweep (fun _ (countVisible : Nat) l =>
    (if l.inBounds then countVisible + 1 else countVisible, l)) numberOfLines 0 ls
  let (_, ls) ← sweep (fun _ (u : Unit) l => (u, tickLine l)) numberOfLines () ls
  some ls

/-- `SCREEN_BOUND_TOTAL_Y`. -/
def screenBoundTotalY : ℚ := 448

/-- The slots drawn of a line on one pass: on the second one only the selected slot. -/
def drawLine (g : Grid) (pass : Nat) (lineNum : Nat) (l : LineBacking) : List Int :=
  if 0 < l.transparency ∧ 0 ≤ l.rawPositionY ∧ l.rawPositionY < screenBoundTotalY then
    ((List.range g.columnsPerLine).map fun col => ((lineNum * g.columnsPerLine + col : Nat) : Int)).filter
      fun slotNum => if slotNum = g.selectedSlot then pass = 1 else pass = 0
  else []

def drawPass (g : Grid) (pass : Nat) (ls : List LineBacking) : Option (List Int) := do
  let (drawn, _) ← sweep (fun lineNum drawn l => (drawn ++ drawLine g pass lineNum l, l)) g.numberOfLines [] ls
  some drawn

def drawLines (g : Grid) (ls : List LineBacking) : Option (List Int) := do
  let first ← drawPass g 0 ls
  let second ← drawPass g 1 ls
  some (first ++ second)

/-! ## The loops on a grid that fits -/

section
variable {numberOfLines : Nat} {ls : List LineBacking}

theorem gridSetupLines_eq (hlen : ls.length = maxLines) (h : numberOfLines ≤ maxLines) :
    gridSetupLines numberOfLines ls = some (setupLines numberOfLines ls) := by
  have hall : maxLines ≤ ls.length := hlen.ge
  simp only [gridSetupLines, sweep_mapIdx _ hall, Option.bind_eq_bind, Option.bind_some]
  rw [sweep_mapIdx _ (by rw [List.length_mapIdx]; omega)]
  simp only [Option.bind_some, setupLines, List.mapIdx_mapIdx]
  refine congrArg some (List.ext_getElem? fun i => ?_)
  simp only [List.getElem?_mapIdx]
  refine Option.map_congr fun l hl => ?_
  have hi : i < maxLines := hlen ▸ (List.getElem?_eq_some_iff.mp hl).1
  simp only [Function.comp_apply, hi, if_true]

theorem gridJumpLines_eq (start : Nat) (h : numberOfLines ≤ ls.length) :
    gridJumpLines numberOfLines start ls = some (jumpLines numberOfLines start ls) := by
  simp only [gridJumpLines, sweep_mapIdx _ h, Option.bind_eq_bind, Option.bind_some, jumpLines]

theorem along_navigateUp (i : Nat) (found : Bool × Bool) :
    (along (fun _ => navigateUpLine) i found ls).2 = upLoop found.1 found.2 ls := by
  induction ls generalizing i found with
  | nil => rfl
  | cons l ls ih => simp only [along, ih, upLoop, navigateUpLine]

theorem along_navigateDown (i : Nat) (found : Bool × Bool) :
    (along (fun _ => navigateDownLine) i found ls).2 = downLoop found.1 found.2 ls := by
  induction ls generalizing i found with
  | nil => rfl
  | cons l ls ih => simp only [along, ih, downLoop, navigateDownLine]

theorem gridNavigateUpLines_eq (h : numberOfLines ≤ ls.length) :
    gridNavigateUpLines numberOfLines ls = some (gridDispatchNavigateUp numberOfLines ls) := by
  simp only [gridNavigateUpLines, scan_eq h, gridDispatchNavigateUp, Option.bind_eq_bind, Option.bind_some]
  split
  · rfl
  · simp only [sweep_eq h, Option.bind_some, along_navigateUp, onLines]

theorem gridNavigateDownLines_eq (h : numberOfLines ≤ ls.length) :
    gridNavigateDownLines numberOfLines ls = some (gridDispatchNavigateDown numberOfLines ls) := by
  simp only [gridNavigateDownLines, scan_eq h, gridDispatchNavigateDown, Option.bind_eq_bind, Option.bind_some]
  split
  · rfl
  · have hfaded : ((ls.take numberOfLines).map LineBacking.fadeOut).length = numberOfLines := by
      rw [List.length_map, List.length_take, Nat.min_eq_left h]
    rw [sweep_map _ h, Option.bind_some, sweep_eq (by rw [List.length_append, hfaded]; omega)]
    -- the second loop goes over the lines the first one changed, no further
    rw [List.take_append_of_le_length hfaded.ge, List.drop_append_of_le_length hfaded.ge,
      List.take_of_length_le hfaded.le, List.drop_of_length_le hfaded.le]
    simp only [Option.bind_some, along_navigateDown, onLines, List.nil_append]

theorem gridUpdateLines_eq (h : numberOfLines ≤ ls.length) :
    gridUpdateLines numberOfLines ls = some (gridUpdateIconPositions numberOfLines ls) := by
  obtain ⟨countVisible, hcount⟩ :=
    sweep_read (s := 0) (fun _ (n : Nat) (l : LineBacking) => if l.inBounds then n + 1 else n) h
  simp only [gridUpdateLines, hcount, Option.bind_eq_bind, Option.bind_some, sweep_map _ h,
    gridUpdateIconPositions, onLines]

theorem drawPass_isSome (g : Grid) (pass : Nat) (h : g.numberOfLines ≤ ls.length) :
    ∃ drawn, drawPass g pass ls = some drawn := by
  obtain ⟨drawn, hdrawn⟩ :=
    sweep_read (s := []) (fun lineNum (d : List Int) l => d ++ drawLine g pass lineNum l) h
  exact ⟨drawn, by simp only [drawPass, hdrawn, Option.bind_eq_bind, Option.bind_some]⟩

theorem drawLines_isSome (g : Grid) (h : g.numberOfLines ≤ ls.length) :
    ∃ drawn, drawLines g ls = some drawn := by
  obtain ⟨first, hfirst⟩ := drawPass_isSome g 0 h
  obtain ⟨second, hsecond⟩ := drawPass_isSome g 1 h
  exact ⟨first ++ second, by
    simp only [drawLines, hfirst, hsecond, Option.bind_eq_bind, Option.bind_some]⟩

end

/-! ## What is done with the grid -/

/-- `gm_setup_grid`: only the first set-up of a listing places the lines. -/
def setupGrid (t : GridType) (lineCount : Nat) (initial : Bool) (s : GridSys) : Option GridSys := do
  let grid := gmSetupGrid t lineCount initial s.grid
  if initial then
    let lines ← gridSetupLines grid.numberOfLines s.lines
    some ⟨grid, lines⟩
  else some { s with grid := grid }

inductive GridUse where
  /-- The set-up after the scan, for the entries it found. -/
  | settle (entryCount : Nat)
  | jump (slot : Int)
  | navigateUp
  | navigateDown
  | update
  | draw
  /-- The menu moves the cursor and the window. -/
  | cursor (slot topLine : Int)

def gridUse (t : GridType) (s : GridSys) : GridUse → Option GridSys
  | .settle entryCount => setupGrid t entryCount false s
  | .jump slot =>
    if slot < 0 then some s
    else do
      let start := windowStart s.grid.columnsPerLine s.grid.numberOfLines slot.toNat
      let lines ← gridJumpLines s.grid.numberOfLines start s.lines
      some ⟨gridJumpToSlot slot s.grid, lines⟩
  | .navigateUp => do
    let (_, lines) ← gridNavigateUpLines s.grid.numberOfLines s.lines
    some { s with lines := lines }
  | .navigateDown => do
    let (_, lines) ← gridNavigateDownLines s.grid.numberOfLines s.lines
    some { s with lines := lines }
  | .update => do
    let lines ← gridUpdateLines s.grid.numberOfLines s.lines
    some { s with lines := lines }
  | .draw => do
    let _ ← drawLines s.grid s.lines
    some s
  | .cursor slot topLine => some { s with grid := { s.grid with selectedSlot := slot, topLineNum := topLine } }

def gridUses (t : GridType) : List GridUse → GridSys → Option GridSys
  | [], s => some s
  | u :: us, s => (gridUse t s u).bind (gridUses t us)

/-- A folder is listed and the grid set up for it; then the grid is used, with no more
entries than the listing has paths. -/
def gridRun (t : GridType) (pathCount : Nat) (us : List GridUse) (s : GridSys) : Option GridSys :=
  (setupGrid t pathCount true s).bind (gridUses t us)

/-- The lines fit, and no use of them leaves the array. -/
def InsideArray (t : GridType) (pathCount : Nat) (s : GridSys) : Prop :=
  (gmSetupGrid t pathCount true s.grid).numberOfLines ≤ maxLines ∧
    ∀ us, (∀ entryCount, .settle entryCount ∈ us → entryCount ≤ pathCount) →
      (gridRun t pathCount us s).isSome = true

/-! ## Inside the array -/

theorem linesFor_le_iff (t : GridType) (n : Nat) : linesFor t.columns n ≤ maxLines ↔ n ≤ maxLines * t.columns := by
  have hc := t.columns_pos
  have hdiv : (n + (t.columns - 1)) / t.columns ≤ maxLines ↔ n ≤ maxLines * t.columns := by
    rw [Nat.div_le_iff_le_mul_add_pred hc, Nat.mul_comm t.columns]
    omega
  rw [← hdiv]
  simp only [linesFor]
  split
  · simp only [maxLines]
    omega
  · exact Iff.rfl

/-- What keeps every loop inside. -/
structure Inside (s : GridSys) : Prop where
  length : s.lines.length = maxLines
  fits : s.grid.numberOfLines ≤ maxLines

theorem Inside.le {s : GridSys} (h : Inside s) : s.grid.numberOfLines ≤ s.lines.length := h.length ▸ h.fits

theorem setupLines_length (n : Nat) (ls : List LineBacking) : (setupLines n ls).length = ls.length :=
  List.length_mapIdx

theorem onLines_length {n : Nat} {ls : List LineBacking} {f : List LineBacking → List LineBacking}
    (hf : ∀ ls, (f ls).length = ls.length) : (onLines n f ls).length = ls.length := by
  rw [onLines, List.length_append, hf, ← List.length_append, List.take_append_drop]

theorem dispatch_length (n : Nat) (ls : List LineBacking) :
    (gridDispatchNavigateUp n ls).2.length = ls.length ∧ (gridDispatchNavigateDown n ls).2.length = ls.length := by
  unfold gridDispatchNavigateUp gridDispatchNavigateDown
  constructor
  · split
    · rfl
    · exact onLines_length fun ls => upLoop_length ls false false
  · split
    · rfl
    · exact onLines_length fun ls => by rw [downLoop_length, List.length_map]

theorem setupGrid_inside (t : GridType) {n : Nat} {s : GridSys} (hlen : s.lines.length = maxLines)
    (h : linesFor t.columns n ≤ maxLines) :
    ∃ s', setupGrid t n true s = some s' ∧ Inside s' := by
  have hfits : (gmSetupGrid t n true s.grid).numberOfLines ≤ maxLines := h
  refine ⟨⟨gmSetupGrid t n true s.grid, setupLines (gmSetupGrid t n true s.grid).numberOfLines s.lines⟩, ?_,
    ⟨(setupLines_length _ _).trans hlen, hfits⟩⟩
  simp only [setupGrid, if_true, gridSetupLines_eq hlen hfits, Option.bind_eq_bind, Option.bind_some]

/-- The set-up itself is what first leaves the array. -/
theorem setupGrid_outside (t : GridType) {n : Nat} {s : GridSys} (hlen : s.lines.length = maxLines)
    (h : maxLines < linesFor t.columns n) : setupGrid t n true s = none := by
  have hover : maxLines < (gmSetupGrid t n true s.grid).numberOfLines := h
  have hall : maxLines ≤ s.lines.length := hlen.ge
  simp only [setupGrid, if_true, gridSetupLines, sweep_mapIdx _ hall, Option.bind_eq_bind, Option.bind_some]
  rw [sweep_none (by rw [List.length_mapIdx]; omega)]
  rfl

/-- One use, of any kind. -/
theorem gridUse_inside (t : GridType) {s : GridSys} (h : Inside s) (u : GridUse)
    (hu : ∀ entryCount, u = .settle entryCount → linesFor t.columns entryCount ≤ maxLines) :
    ∃ s', gridUse t s u = some s' ∧ Inside s' := by
  cases u with
  | settle entryCount => exact ⟨_, rfl, h.length, hu entryCount rfl⟩
  | jump slot =>
    simp only [gridUse]
    split
    · exact ⟨s, rfl, h⟩
    · rename_i hslot
      simp only [gridJumpLines_eq _ h.le, Option.bind_eq_bind, Option.bind_some]
      refine ⟨_, rfl, List.length_mapIdx.trans h.length, ?_⟩
      simp only [gridJumpToSlot, if_neg hslot]
      exact h.fits
  | navigateUp =>
    simp only [gridUse, gridNavigateUpLines_eq h.le, Option.bind_eq_bind, Option.bind_some]
    exact ⟨_, rfl, (dispatch_length _ _).1.trans h.length, h.fits⟩
  | navigateDown =>
    simp only [gridUse, gridNavigateDownLines_eq h.le, Option.bind_eq_bind, Option.bind_some]
    exact ⟨_, rfl, (dispatch_length _ _).2.trans h.length, h.fits⟩
  | update =>
    simp only [gridUse, gridUpdateLines_eq h.le, Option.bind_eq_bind, Option.bind_some]
    exact ⟨_, rfl, (onLines_length fun _ => List.length_map _).trans h.length, h.fits⟩
  | draw =>
    obtain ⟨drawn, hdrawn⟩ := drawLines_isSome s.grid h.le
    simp only [gridUse, hdrawn, Option.bind_eq_bind, Option.bind_some]
    exact ⟨s, rfl, h⟩
  | cursor slot topLine => exact ⟨_, rfl, h.length, h.fits⟩

theorem gridUses_inside (t : GridType) (us : List GridUse) {s : GridSys} (h : Inside s)
    (hus : ∀ entryCount, .settle entryCount ∈ us → linesFor t.columns entryCount ≤ maxLines) :
    (gridUses t us s).isSome = true := by
  induction us generalizing s with
  | nil => rfl
  | cons u us ih =>
    obtain ⟨s', hs', hinside⟩ := gridUse_inside t h u
      fun entryCount hu => hus entryCount (hu ▸ List.mem_cons_self ..)
    rw [gridUses, hs', Option.bind_some]
    exact ih hinside fun entryCount hmem => hus entryCount (List.mem_cons_of_mem _ hmem)

theorem insideArray_iff (t : GridType) (n : Nat) {s : GridSys} (hlen : s.lines.length = maxLines) :
    InsideArray t n s ↔ n ≤ maxLines * t.columns := by
  rw [← linesFor_le_iff]
  constructor
  · exact fun h => h.1
  · intro h
    refine ⟨h, fun us hus => ?_⟩
    obtain ⟨s', hs', hinside⟩ := setupGrid_inside t hlen h
    rw [gridRun, hs', Option.bind_some]
    exact gridUses_inside t us hinside fun entryCount hmem =>
      (linesFor_mono t.columns (hus entryCount hmem)).trans h

theorem gmListFiles_length {targetDir : Path} {d : Directory} {l : PathList}
    (hl : gmListFiles targetDir d = some l) : l.paths.length = min maxPaths d.listable.length := by
  rw [gmListFiles_listing hl, PathList.of, List.length_take, Directory.listing, List.length_map]

/-- For every listing, layout and memory of the lines: the lines of the grid fit the array
and no use of the grid leaves it exactly when a line has eight columns, or the folder has no
more than 240 entries to list for each column. -/
theorem grid_capacity_iff {targetDir : Path} {d : Directory} {l : PathList}
    (hl : gmListFiles targetDir d = some l) (t : GridType) (g : Grid) (mem : Fin maxLines → LineBacking) :
    InsideArray t l.paths.length ⟨g, List.ofFn mem⟩ ↔
      t = .squareIcons ∨ d.listable.length ≤ maxLines * t.columns := by
  rw [insideArray_iff t _ List.length_ofFn, gmListFiles_length hl]
  cases t with
  | squareIcons =>
    -- the cap on the listing is what the array was made for
    have hcap : min maxPaths d.listable.length ≤ maxLines * GridType.squareIcons.columns := Nat.min_le_left ..
    exact iff_of_true hcap (.inl rfl)
  | banners | smallBanners =>
    simp only [maxPaths, maxLines, GridType.columns, reduceCtorEq, false_or]
    omega

/-! ## Folders enough for the default layout -/

def digit (k : Nat) : UInt8 := 48 + UInt8.ofNat (k % 10)

theorem digit_plain (k : Nat) : digit k ≠ slash ∧ digit k ≠ 0 ∧ digit k ≠ dot ∧ digit k ≠ tilde := by
  have hall : ∀ r : Fin 10, 48 + UInt8.ofNat r ≠ slash ∧ 48 + UInt8.ofNat r ≠ 0 ∧ 48 + UInt8.ofNat r ≠ dot ∧
      48 + UInt8.ofNat r ≠ tilde := by decide
  exact hall ⟨k % 10, Nat.mod_lt k (by decide)⟩

/-- A name of four digits. -/
def folderName (i : Nat) : Path := [i / 1000, i / 100, i / 10, i].map digit

theorem folderName_plain (i : Nat) : slash ∉ folderName i ∧ (0 : UInt8) ∉ folderName i := by
  constructor
  all_goals
    intro h
    obtain ⟨k, -, hk⟩ := List.mem_map.mp h
  · exact (digit_plain k).1 hk
  · exact (digit_plain k).2.1 hk

/-- No name on the list has four characters. -/
theorem folderName_shown (i : Nat) : checkFileHidden (folderName i) = false := by
  have hlist : hiddenFileNames.any (strcasecmpEq (folderName i)) = false := by
    refine List.any_eq_false.mpr fun name hname heq => ?_
    have hlen : ∀ name ∈ hiddenFileNames, name.length ≠ 4 := by decide
    exact hlen name hname (strcasecmpEq_length heq).symm
  have hfirst : (folderName i).head? = some (digit (i / 1000)) := rfl
  have hlast : (folderName i).getLast? = some (digit i) := rfl
  simp only [checkFileHidden, hfirst, hlast, hlist, Option.some.injEq, (digit_plain _).2.2.1, (digit_plain _).2.2.2,
    if_false]

def numberedFolder (i : Fin 961) : FileEntryT where
  name :=
    { name := folderName i
      ne := List.cons_ne_nil _ _
      noSlash := (folderName_plain i).1
      noNul := (folderName_plain i).2
      short := Nat.lt_of_sub_pos (by simp [folderName, maxFileName]) }
  type := fileEntryTypeDir
  attrib := amDir

def numberedFolders : Directory := .native ((List.finRange 961).map numberedFolder)

theorem numberedFolder_listable (i : Fin 961) : (numberedFolder i).Listable := by
  have hattr : amDir &&& fileAttribFlagHidden = 0 := by decide
  refine ⟨decide_eq_false (not_not.mpr hattr), folderName_shown i, ?_⟩
  simp only [FileEntryT.fileType, numberedFolder, if_true, ne_eq, reduceCtorEq, not_false_eq_true]

theorem numberedFolders_listable : numberedFolders.listable = (List.finRange 961).map numberedFolder := by
  refine List.filter_eq_self.mpr fun ent hent => ?_
  obtain ⟨i, -, rfl⟩ := List.mem_map.mp hent
  exact decide_eq_true (numberedFolder_listable i)

/-- The drive or the card answers with 961 folders in its root, and all of them are listed. -/
theorem numberedFolders_listed : gmListFiles [slash] numberedFolders =
    some (PathList.of ((numberedFolders.listing [slash]).take maxPaths)) := by
  refine gmListFiles_eq numberedFolders fun ent hent => ?_
  rw [numberedFolders_listable] at hent
  obtain ⟨i, -, rfl⟩ := List.mem_map.mp (List.mem_of_mem_take hent)
  simp [numberedFolder, folderName, gmPathMax]

/-- With eight columns they fit. -/
theorem folders_fit_square_icons :
    InsideArray .squareIcons (PathList.of ((numberedFolders.listing [slash]).take maxPaths)).paths.length
      ⟨⟨8, 4, 0, 0⟩, List.ofFn fun _ : Fin maxLines => blankLine⟩ :=
  (grid_capacity_iff numberedFolders_listed .squareIcons ⟨8, 4, 0, 0⟩ fun _ => blankLine).mpr (.inl rfl)

/-- The default layout has four columns; 961 folders are a line too many. -/
theorem default_grid_overruns :
    ¬ ∀ (targetDir : Path) (d : Directory) (l : PathList), gmListFiles targetDir d = some l →
      ∀ (t : GridType) (g : Grid) (mem : Fin maxLines → LineBacking),
        InsideArray t l.paths.length ⟨g, List.ofFn mem⟩ := by
  intro hall
  have hinside := hall _ _ _ numberedFolders_listed .smallBanners ⟨4, 4, 0, 0⟩ fun _ => blankLine
  rw [insideArray_iff _ _ List.length_ofFn, gmListFiles_length numberedFolders_listed,
    numberedFolders_listable, List.length_map, List.length_finRange] at hinside
  exact absurd hinside (by decide)

end Cubiboot
