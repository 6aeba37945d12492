import Mathlib.Tactic.Common

/-
  The grid behind the list: columns, lines, the window and the cursor
  (`grid.c`, and `gm_setup_grid` of `games.c`).

  The positions and animations of the lines are floating point and are left to
  whoever uses the grid: a line's end position is `DRAW_BOUND_TOP` plus
  `DRAW_OFFSET_Y` for each line it is below the window's top.

  Correspondence (C ↔ Lean):
    `menu_grid_type`, `grid_setup_columns_per_line` ↔ `GridType`, `GridType.columns`
    `columns_per_line`, `number_of_lines`, `top_line_num`, `selected_slot` ↔ `Grid`
    `gm_setup_grid`, `grid_setup_func`              ↔ `gmSetupGrid`, `gridSetupFunc`
    `grid_jump_to_slot`                             ↔ `gridJumpToSlot`
-/

set_option autoImplicit false

namespace Cubiboot

inductive GridType where
  | squareIcons | banners | smallBanners
  deriving DecidableEq, Repr

def GridType.columns : GridType → Nat
  | .squareIcons => 8
  | .banners => 3
  | .smallBanners => 4

theorem GridType.columns_pos (t : GridType) : 0 < t.columns := by cases t <;> decide

theorem GridType.columns_le (t : GridType) : t.columns ≤ 8 := by cases t <;> decide

/-- `MAX_LINES`, the length of `browser_lines`. -/
def maxLines : Nat := 240

structure Grid where
  columnsPerLine : Nat
  numberOfLines : Nat
  topLineNum : Int
  selectedSlot : Int
  deriving DecidableEq, Repr

/-- The lines for `lineCount` slots, never fewer than four. -/
def linesFor (columnsPerLine lineCount : Nat) : Nat :=
  let numberOfLines := (lineCount + (columnsPerLine - 1)) / columnsPerLine
  if numberOfLines < 4 then 4 else numberOfLines

/-- `START_LINE` is 0. -/
def gridSetupFunc (g : Grid) : Grid := { g with selectedSlot := 0, topLineNum := 0 }

def gmSetupGrid (t : GridType) (lineCount : Nat) (initial : Bool) (g : Grid) : Grid :=
  let g := { g with columnsPerLine := t.columns, numberOfLines := linesFor t.columns lineCount }
  if initial then gridSetupFunc g else g

/-- The top line for a window that shows `slot`, clamped to the last full window. -/
def windowStart (columnsPerLine numberOfLines slot : Nat) : Nat :=
  let start := slot / columnsPerLine
  let maxStart := numberOfLines - 4
  if maxStart < start then maxStart else start

def gridJumpToSlot (slot : Int) (g : Grid) : Grid :=
  if slot < 0 then g
  else
    { g with
      topLineNum := windowStart g.columnsPerLine g.numberOfLines slot.toNat
      selectedSlot := slot }

theorem linesFor_ge (cols n : Nat) : 4 ≤ linesFor cols n := by
  simp only [linesFor]
  split <;> omega

/-- Every slot is on a line. -/
theorem line_lt_linesFor {cols n i : Nat} (hc : 0 < cols) (hi : i < n) : i / cols < linesFor cols n := by
  have h : i / cols < (n + (cols - 1)) / cols := by
    rw [Nat.div_lt_iff_lt_mul hc]
    have := Nat.div_add_mod (n + (cols - 1)) cols
    have hm := Nat.mod_lt (n + (cols - 1)) hc
    rw [Nat.mul_comm]
    omega
  simp only [linesFor]
  split <;> omega

theorem windowStart_spec (cols n slot : Nat) :
    windowStart cols n slot ≤ n - 4 ∧ windowStart cols n slot ≤ slot / cols ∧
      (slot / cols < n → slot / cols ≤ windowStart cols n slot + 3) := by
  simp only [windowStart]
  split <;> omega

end Cubiboot
