import Mathlib.Data.Rat.Defs
import Mathlib.Algebra.Order.Ring.Rat
import Mathlib.Tactic.Linarith
import Mathlib.Tactic.NormNum
import Mathlib.Tactic.Ring
import Cubiboot.Lib.Run
import Cubiboot.Cursor

/-
  The lines of the grid in motion (`grid.c`, and UP and DOWN of
  `handle_gameselect_inputs`, `menu.c`).

  Positions, distances and transparencies are exact: `f32` is taken as `ℚ`. A run
  starts with the grid set up; from then on the lines are set up again, jumped,
  animated a tick at a time, scrolled by the menu, or become fewer, in any order.

  What is proved:
    1. `tickLine_ok` — a tick moves a line by what it takes off the distance left,
       and ends an animation with none left: distances are multiples of 28/75 and
       so is what a tick takes.
    2. `upLoop_ok`, `downLoop_ok` — a scroll that is not refused moves the end
       position of every line by one row, whatever is still under way.
    3. `gridSys_inv` — so in every run line `i` ends up `i - topLineNum` rows below
       the top, which is what `lineEndPos` says of it.
    4. `lines_follow_scroll` — hence a scroll is asked for on the bottom row and on
       the top row only; a refused one changes no line; no animation ends early.
    5. `pressDown_moveDown`, `pressUp_moveUp` — the menu model that knows only where
       the lines end up (`Browser`) moves as this one does.

  Correspondence (C ↔ Lean):
    `anim_list_t`, `line_backing_t`                    ↔ `AnimList`, `LineBacking`
    `get_position_after`, `grid_add_anim`              ↔ `getPositionAfter`, `gridAddAnim`
    `grid_setup_func`, `grid_jump_to_slot`             ↔ `GridSys.setup`, `GridSys.jump`
    `grid_dispatch_navigate_up`, `_down`               ↔ `gridDispatchNavigateUp`, `gridDispatchNavigateDown`
    `grid_update_icon_positions`                       ↔ `gridUpdateIconPositions`
    UP and DOWN in `handle_gameselect_inputs`          ↔ `GridSys.pressUp`, `GridSys.pressDown`
-/

set_option autoImplicit false

namespace Cubiboot

/-! ## A line -/

/-- `ANIM_DIRECTION_UP`, `ANIM_DIRECTION_DOWN`. -/
inductive AnimDirection where
  | up | down
  deriving DecidableEq, Repr

structure AnimList where
  pendingCount : Nat
  direction : AnimDirection
  remaining : ℚ
  deriving DecidableEq, Repr

structure LineBacking where
  anims : AnimList
  rawPositionY : ℚ
  transparency : ℚ
  movingOut : Bool
  movingIn : Bool
  deriving DecidableEq, Repr

def maxAnims : Nat := 100000
def offsetY : ℚ := 56
def boundTop : ℚ := 104
def boundBottom : ℚ := 328

def getPositionAfter (l : LineBacking) : ℚ :=
  match l.anims.direction with
  | .up => l.rawPositionY - l.anims.remaining
  | .down => l.rawPositionY + l.anims.remaining

def gridAddAnim (l : LineBacking) (direction : AnimDirection) (distance : ℚ) : LineBacking :=
  let anims :=
    if 0 < l.anims.pendingCount ∧ l.anims.direction ≠ direction then { l.anims with pendingCount := 0 }
    else l.anims
  if anims.pendingCount < maxAnims then
    { l with anims := ⟨anims.pendingCount + 1, direction, anims.remaining + distance⟩ }
  else { l with anims := anims }

/-! ## Set-up and jump -/

/-- The line at rest in its place, with the window's top at `start`. -/
def LineBacking.placed (l : LineBacking) (start lineNum : Nat) : LineBacking :=
  { l with
    rawPositionY := boundTop - offsetY * start + lineNum * offsetY
    transparency := if lineNum < start ∨ start + 4 ≤ lineNum then 0 else 1 }

def LineBacking.stopped (l : LineBacking) : LineBacking :=
  { l with anims := { l.anims with pendingCount := 0, remaining := 0 } }

/-- `grid_setup_func`'s two loops: all lines, then the first `n`. -/
def setupLines (n : Nat) (ls : List LineBacking) : List LineBacking :=
  ls.mapIdx fun i l =>
    let l := { l.stopped with transparency := 0 }
    if i < n then l.placed 0 i else l

def jumpLines (n start : Nat) (ls : List LineBacking) : List LineBacking :=
  ls.mapIdx fun i l =>
    if i < n then { l.stopped with movingIn := false, movingOut := false }.placed start i else l

/-! ## Scrolling by one row -/

/-- A line with an animation that way still pending. -/
def pending (direction : AnimDirection) (l : LineBacking) : Bool :=
  0 < l.anims.pendingCount ∧ l.anims.direction = direction

/-- The line that comes in is moved half a row out and animated, a visible one is
animated a row, another one jumps. -/
def upMove (foundMoveIn : Bool) (l : LineBacking) : LineBacking × Bool :=
  let partialPositionY := getPositionAfter l
  if !foundMoveIn ∧ boundTop ≤ partialPositionY + offsetY + 10 ∧ partialPositionY - 10 < boundTop then
    let animDistance := offsetY * (1 / 2)
    let l := { l with rawPositionY := boundTop - animDistance, transparency := 1 / 4, movingIn := true, movingOut := false }
    (gridAddAnim l .down animDistance, true)
  else if partialPositionY < boundBottom + offsetY - 10 ∧ boundTop - offsetY + 10 ≤ partialPositionY then
    (gridAddAnim l .down offsetY, foundMoveIn)
  else ({ l with rawPositionY := l.rawPositionY + offsetY }, foundMoveIn)

def upMoveOut (foundMoveOut : Bool) (l : LineBacking) : LineBacking × Bool :=
  let endPositionY := getPositionAfter l
  if !foundMoveOut ∧ boundBottom ≤ endPositionY + 10 ∧ endPositionY - offsetY < boundBottom then
    ({ l with transparency := 999 / 1000, movingOut := true, movingIn := false }, true)
  else (l, foundMoveOut)

def upLoop : Bool → Bool → List LineBacking → List LineBacking
  | _, _, [] => []
  | foundMoveIn, foundMoveOut, l :: ls =>
    let (l, foundMoveIn) := upMove foundMoveIn l
    let (l, foundMoveOut) := upMoveOut foundMoveOut l
    l :: upLoop foundMoveIn foundMoveOut ls

def downMove (foundMoveIn : Bool) (l : LineBacking) : LineBacking × Bool :=
  let partialPositionY := getPositionAfter l
  if !foundMoveIn ∧ boundBottom ≤ partialPositionY + 10 ∧ partialPositionY - offsetY - 10 < boundBottom then
    let animDistance := offsetY * (1 / 2)
    let l := { l with rawPositionY := boundBottom - animDistance, transparency := 1 / 4, movingIn := true, movingOut := false }
    (gridAddAnim l .up animDistance, true)
  else if partialPositionY < boundBottom + offsetY - 10 ∧ boundTop - offsetY + 10 ≤ partialPositionY then
    (gridAddAnim l .up offsetY, foundMoveIn)
  else ({ l with rawPositionY := l.rawPositionY - offsetY }, foundMoveIn)

def downMoveOut (foundMoveOut : Bool) (l : LineBacking) : LineBacking × Bool :=
  let endPositionY := getPositionAfter l
  if !foundMoveOut ∧ boundTop ≤ endPositionY + offsetY + 10 ∧ endPositionY < boundTop then
    ({ l with transparency := 999 / 1000, movingOut := true, movingIn := false }, true)
  else (l, foundMoveOut)

def downLoop : Bool → Bool → List LineBacking → List LineBacking
  | _, _, [] => []
  | foundMoveIn, foundMoveOut, l :: ls =>
    let (l, foundMoveIn) := downMove foundMoveIn l
    let (l, foundMoveOut) := downMoveOut foundMoveOut l
    l :: downLoop foundMoveIn foundMoveOut ls

/-- Finishes a pending move out. -/
def LineBacking.fadeOut (l : LineBacking) : LineBacking :=
  if l.movingOut then { l with transparency := l.transparency * (1 / 10) } else l

/-- The lines the grid has, changed; those behind them are left as they are. -/
def onLines (n : Nat) (f : List LineBacking → List LineBacking) (ls : List LineBacking) : List LineBacking :=
  f (ls.take n) ++ ls.drop n

/-- `true` is `GRID_MOVE_SUCCESS`. -/
def gridDispatchNavigateUp (n : Nat) (ls : List LineBacking) : Bool × List LineBacking :=
  if (ls.take n).any (pending .up) then (false, ls)
  else (true, onLines n (upLoop false false) ls)

def gridDispatchNavigateDown (n : Nat) (ls : List LineBacking) : Bool × List LineBacking :=
  if (ls.take n).any (pending .down) then (false, ls)
  else (true, onLines n (fun ls => downLoop false false (ls.map LineBacking.fadeOut)) ls)

/-! ## A tick -/

def tickMultiplier (l : LineBacking) : ℚ :=
  if l.anims.pendingCount ≠ 0 then min 8 (6 + l.anims.pendingCount) else 6

def tickTransparency (l : LineBacking) : LineBacking :=
  if l.transparency < 1 then
    let delta := 1 / 100 * tickMultiplier l
    let l := if l.movingIn then { l with transparency := min 1 (l.transparency + delta * (4 / 10)) } else l
    if l.movingOut then
      let transparency := l.transparency - delta * (8 / 10)
      if transparency < 0 then { l with transparency := 0, movingOut := false }
      else { l with transparency := transparency }
    else l
  else l

/-- What a tick moves the line by. -/
def tickDelta (l : LineBacking) : ℚ :=
  min (offsetY * (1 / 100) * tickMultiplier l / (15 / 10)) l.anims.remaining

def tickPosition (l : LineBacking) : LineBacking :=
  if l.anims.pendingCount ≠ 0 then
    let delta := tickDelta l
    let remaining := l.anims.remaining - delta
    let rawPositionY := match l.anims.direction with
      | .up => l.rawPositionY - delta
      | .down => l.rawPositionY + delta
    let anims :=
      if remaining < 1 / 10 then { l.anims with pendingCount := l.anims.pendingCount - 1, remaining := 0 }
      else { l.anims with remaining := remaining }
    { l with anims := anims, rawPositionY := rawPositionY }
  else l

def tickLine (l : LineBacking) : LineBacking := tickPosition (tickTransparency l)

def gridUpdateIconPositions (n : Nat) (ls : List LineBacking) : List LineBacking :=
  onLines n (List.map tickLine) ls

/-! ## A line in its row -/

/-- The step of a tick: 28/75 of a pixel for each unit of the multiplier. -/
def tickUnit : ℚ := 28 / 75

/-- A line on its way to row `k` below the top. What is left to go is a whole
number of tick units. An animation up was added to it no lower than the row below
the last visible one, one down no higher than the row above the first, so that
their number is bounded by where the line is going. -/
structure LineOk (k : Int) (l : LineBacking) : Prop where
  pos : getPositionAfter l = boundTop + offsetY * k
  units : ∃ u : Nat, l.anims.remaining = u * tickUnit
  idle : l.anims.pendingCount = 0 → l.anims.remaining = 0
  up : 0 < l.anims.pendingCount → l.anims.direction = .up → l.anims.pendingCount + k ≤ 4 ∧ l.anims.pendingCount ≤ 5
  down : 0 < l.anims.pendingCount → l.anims.direction = .down → l.anims.pendingCount ≤ k + 1 ∧ l.anims.pendingCount ≤ 6

section
variable {k : Int} {l : LineBacking}

/-- Where the line is matters, not how it looks. -/
theorem LineOk.looks (h : LineOk k l) {l' : LineBacking} (ha : l'.anims = l.anims)
    (hr : l'.rawPositionY = l.rawPositionY) : LineOk k l' := by
  refine ⟨?_, by rw [ha]; exact h.units, by rw [ha]; exact h.idle, by rw [ha]; exact h.up, by rw [ha]; exact h.down⟩
  rw [← h.pos, getPositionAfter, getPositionAfter, ha, hr]

theorem tickDelta_units (h : LineOk k l) (hp : l.anims.pendingCount ≠ 0) :
    ∃ u : Nat, l.anims.remaining - tickDelta l = u * tickUnit := by
  obtain ⟨u, hu⟩ := h.units
  have hm : ∃ m : Nat, offsetY * (1 / 100) * tickMultiplier l / (15 / 10) = m * tickUnit := by
    refine ⟨min 8 (6 + l.anims.pendingCount), ?_⟩
    rw [tickMultiplier, if_pos hp]
    push_cast
    simp only [offsetY, tickUnit]
    ring
  obtain ⟨m, hm⟩ := hm
  refine ⟨u - m, ?_⟩
  rw [tickDelta, hm, hu]
  have hunit : (0 : ℚ) ≤ tickUnit := by norm_num [tickUnit]
  rcases Nat.le_total m u with hle | hle
  · have hcast : (m : ℚ) * tickUnit ≤ u * tickUnit := mul_le_mul_of_nonneg_right (by exact_mod_cast hle) hunit
    rw [min_eq_left hcast, Nat.cast_sub hle]
    ring
  · have hcast : (u : ℚ) * tickUnit ≤ m * tickUnit := mul_le_mul_of_nonneg_right (by exact_mod_cast hle) hunit
    rw [min_eq_right hcast, Nat.sub_eq_zero_of_le hle]
    ring

/-- An animation that a tick ends has nothing left to go. -/
theorem tick_no_leftover (h : LineOk k l) (hp : l.anims.pendingCount ≠ 0)
    (hend : l.anims.remaining - tickDelta l < 1 / 10) : l.anims.remaining - tickDelta l = 0 := by
  obtain ⟨u, hu⟩ := tickDelta_units h hp
  rw [hu] at hend ⊢
  have hzero : u = 0 := by
    by_contra hne
    have hone : (1 : ℚ) ≤ u := by exact_mod_cast Nat.one_le_iff_ne_zero.mpr hne
    simp only [tickUnit] at hend
    linarith
  rw [hzero]
  simp

theorem tickTransparency_same (l : LineBacking) :
    (tickTransparency l).anims = l.anims ∧ (tickTransparency l).rawPositionY = l.rawPositionY := by
  unfold tickTransparency
  split
  · dsimp only
    split
    all_goals
      split
      · split <;> exact ⟨rfl, rfl⟩
      · exact ⟨rfl, rfl⟩
  · exact ⟨rfl, rfl⟩

/-- What a tick leaves of an animation. -/
theorem tickPosition_spec (h : LineOk k l) (hp : l.anims.pendingCount ≠ 0) :
    getPositionAfter (tickPosition l) = getPositionAfter l ∧
      (tickPosition l).anims.direction = l.anims.direction ∧
      (tickPosition l).anims.remaining = l.anims.remaining - tickDelta l ∧
      ((tickPosition l).anims.pendingCount = l.anims.pendingCount ∧ 1 / 10 ≤ (tickPosition l).anims.remaining ∨
        (tickPosition l).anims.pendingCount = l.anims.pendingCount - 1 ∧ (tickPosition l).anims.remaining = 0) := by
  have hleft := tick_no_leftover h hp
  simp only [tickPosition, if_pos hp, getPositionAfter]
  by_cases hend : l.anims.remaining - tickDelta l < 1 / 10
  · have hzero := hleft hend
    rw [if_pos hend]
    refine ⟨?_, rfl, hzero.symm, .inr ⟨rfl, rfl⟩⟩
    cases l.anims.direction with
    | up | down =>
      dsimp only
      linarith
  · rw [if_neg hend]
    refine ⟨?_, rfl, rfl, .inl ⟨rfl, not_lt.mp hend⟩⟩
    cases l.anims.direction with
    | up | down =>
      dsimp only
      ring

theorem tickPosition_ok (h : LineOk k l) : LineOk k (tickPosition l) := by
  by_cases hp : l.anims.pendingCount = 0
  · rw [tickPosition, if_neg (not_not.mpr hp)]
    exact h
  · obtain ⟨hpos, hdir, hrem, hcount⟩ := tickPosition_spec h hp
    have hpending := Nat.pos_of_ne_zero hp
    refine ⟨hpos.trans h.pos, ?_, fun hzero => ?_, fun _ hd => ?_, fun _ hd => ?_⟩
    · rw [hrem]
      exact tickDelta_units h hp
    · rcases hcount with ⟨hsame, -⟩ | ⟨-, hzero⟩
      · omega
      · exact hzero
    · have := h.up hpending (hdir ▸ hd)
      omega
    · have := h.down hpending (hdir ▸ hd)
      omega

theorem tickLine_ok (h : LineOk k l) : LineOk k (tickLine l) := by
  obtain ⟨ha, hr⟩ := tickTransparency_same l
  exact tickPosition_ok (h.looks ha hr)

/-! ## One row on -/

theorem gridAddAnim_pos {direction : AnimDirection} (hdir : 0 < l.anims.pendingCount → l.anims.direction = direction)
    (hmax : l.anims.pendingCount < maxAnims) (distance : ℚ) :
    gridAddAnim l direction distance =
      { l with anims := ⟨l.anims.pendingCount + 1, direction, l.anims.remaining + distance⟩ } := by
  have hsame : ¬ (0 < l.anims.pendingCount ∧ l.anims.direction ≠ direction) := fun hc => hc.2 (hdir hc.1)
  simp only [gridAddAnim, if_neg hsame, if_pos hmax]

/-- The end position, when nothing is pending the other way. -/
theorem pos_up (h : LineOk k l) (hdir : 0 < l.anims.pendingCount → l.anims.direction = .up) :
    l.rawPositionY - l.anims.remaining = boundTop + offsetY * k := by
  rw [← h.pos, getPositionAfter]
  rcases Nat.eq_zero_or_pos l.anims.pendingCount with hp | hp
  · rw [h.idle hp]
    cases l.anims.direction <;> ring
  · rw [hdir hp]

theorem pos_down (h : LineOk k l) (hdir : 0 < l.anims.pendingCount → l.anims.direction = .down) :
    l.rawPositionY + l.anims.remaining = boundTop + offsetY * k := by
  rw [← h.pos, getPositionAfter]
  rcases Nat.eq_zero_or_pos l.anims.pendingCount with hp | hp
  · rw [h.idle hp]
    cases l.anims.direction <;> ring
  · rw [hdir hp]

theorem LineOk.few (h : LineOk k l) : l.anims.pendingCount < maxAnims := by
  rcases Nat.eq_zero_or_pos l.anims.pendingCount with hp | hp
  · rw [hp]
    decide
  · have hmax : (6 : Nat) < maxAnims := by decide
    cases hd : l.anims.direction with
    | up =>
      have := h.up hp hd
      omega
    | down =>
      have := h.down hp hd
      omega

/-- A visible line animated down by a row. -/
theorem row_down_ok (h : LineOk k l) (hdir : 0 < l.anims.pendingCount → l.anims.direction = .down)
    (hlow : 0 ≤ k) (hhigh : k ≤ 4) : LineOk (k + 1) (gridAddAnim l .down offsetY) := by
  rw [gridAddAnim_pos hdir h.few]
  obtain ⟨u, hu⟩ := h.units
  have hpos := pos_down h hdir
  refine ⟨?_, ⟨u + 150, ?_⟩, fun hz => ?_, fun _ hd => ?_, fun _ _ => ?_⟩
  · simp only [getPositionAfter]
    push_cast
    linarith
  · simp only [hu, offsetY, tickUnit]
    push_cast
    ring
  · simp at hz
  · cases hd
  · rcases Nat.eq_zero_or_pos l.anims.pendingCount with hp | hp
    · simp only [hp]
      omega
    · have := h.down hp (hdir hp)
      push_cast
      omega

/-- A visible line animated up by a row. -/
theorem row_up_ok (h : LineOk k l) (hdir : 0 < l.anims.pendingCount → l.anims.direction = .up)
    (hlow : 0 ≤ k) (hhigh : k ≤ 3) : LineOk (k - 1) (gridAddAnim l .up offsetY) := by
  rw [gridAddAnim_pos hdir h.few]
  obtain ⟨u, hu⟩ := h.units
  have hpos := pos_up h hdir
  refine ⟨?_, ⟨u + 150, ?_⟩, fun hz => ?_, fun _ _ => ?_, fun _ hd => ?_⟩
  · simp only [getPositionAfter]
    push_cast
    linarith
  · simp only [hu, offsetY, tickUnit]
    push_cast
    ring
  · simp at hz
  · rcases Nat.eq_zero_or_pos l.anims.pendingCount with hp | hp
    · simp only [hp]
      omega
    · have := h.up hp (hdir hp)
      push_cast
      omega
  · cases hd

/-- A line out of sight jumps, whatever is pending on it. -/
theorem jump_down_ok (h : LineOk k l) (hdir : 0 < l.anims.pendingCount → l.anims.direction = .down) :
    LineOk (k + 1) { l with rawPositionY := l.rawPositionY + offsetY } := by
  refine ⟨?_, h.units, h.idle, fun hp hd => ?_, fun hp hd => ?_⟩
  · have hend := h.pos
    simp only [getPositionAfter] at hend ⊢
    split at hend <;> push_cast <;> linarith
  · rw [hdir hp] at hd
    cases hd
  · have := h.down hp hd
    simp only
    omega

theorem jump_up_ok (h : LineOk k l) (hdir : 0 < l.anims.pendingCount → l.anims.direction = .up) :
    LineOk (k - 1) { l with rawPositionY := l.rawPositionY - offsetY } := by
  refine ⟨?_, h.units, h.idle, fun hp hd => ?_, fun hp hd => ?_⟩
  · have hend := h.pos
    simp only [getPositionAfter] at hend ⊢
    split at hend <;> push_cast <;> linarith
  · have := h.up hp hd
    simp only
    omega
  · rw [hdir hp] at hd
    cases hd

/-- The line that comes in has nothing pending, and nothing left to go. -/
theorem move_in_ok (hp : l.anims.pendingCount = 0) (hr : l.anims.remaining = 0) (start : ℚ)
    (direction : AnimDirection)
    (hend : match direction with
      | .up => start - offsetY * (1 / 2) = boundTop + offsetY * k ∧ k ≤ 3
      | .down => start + offsetY * (1 / 2) = boundTop + offsetY * k ∧ 0 ≤ k) :
    LineOk k (gridAddAnim { l with rawPositionY := start, transparency := 1 / 4, movingIn := true, movingOut := false }
      direction (offsetY * (1 / 2))) := by
  rw [gridAddAnim_pos (fun hpos => absurd hpos (by simp [hp])) (by simp [hp, maxAnims])]
  refine ⟨?_, ⟨75, ?_⟩, fun hz => ?_, fun _ hd => ?_, fun _ hd => ?_⟩
  · cases direction with
    | up | down =>
      simp only [getPositionAfter, hr]
      linarith [hend.1]
  · simp only [hr, offsetY, tickUnit]
    norm_num
  · simp at hz
  · simp only at hd
    subst hd
    simp only [hp]
    omega
  · simp only at hd
    subst hd
    simp only [hp]
    omega

/-! ### Which lines a scroll takes for what -/

theorem row_lt_iff (k c : Int) : boundTop + offsetY * k < c ↔ 104 + 56 * k < c := by
  rw [boundTop, offsetY]
  exact_mod_cast Iff.rfl

theorem row_le_iff (k c : Int) : boundTop + offsetY * k ≤ c ↔ 104 + 56 * k ≤ c := by
  rw [boundTop, offsetY]
  exact_mod_cast Iff.rfl

theorem visible_iff (k : Int) :
    (boundTop + offsetY * k < boundBottom + offsetY - 10 ∧ boundTop - offsetY + 10 ≤ boundTop + offsetY * k) ↔
      0 ≤ k ∧ k ≤ 4 := by
  have hhigh : boundTop + offsetY * k < boundBottom + offsetY - 10 ↔ 104 + 56 * k < 374 := by
    rw [← row_lt_iff]
    norm_num [boundBottom, offsetY]
  have hlow : boundTop - offsetY + 10 ≤ boundTop + offsetY * k ↔ ¬ 104 + 56 * k < 58 := by
    rw [← row_lt_iff, not_lt]
    norm_num [boundTop, offsetY]
  rw [hhigh, hlow]
  omega

theorem up_in_iff (k : Int) :
    (boundTop ≤ boundTop + offsetY * k + offsetY + 10 ∧ boundTop + offsetY * k - 10 < boundTop) ↔
      -1 ≤ k ∧ k ≤ 0 := by
  have hlow : boundTop ≤ boundTop + offsetY * k + offsetY + 10 ↔ ¬ 104 + 56 * k < 38 := by
    rw [← row_lt_iff, not_lt]
    simp only [boundTop, offsetY]
    constructor <;> intro h <;> push_cast at * <;> linarith
  have hhigh : boundTop + offsetY * k - 10 < boundTop ↔ 104 + 56 * k < 114 := by
    rw [← row_lt_iff]
    simp only [boundTop, offsetY]
    constructor <;> intro h <;> push_cast at * <;> linarith
  rw [hlow, hhigh]
  omega

theorem down_in_iff (k : Int) :
    (boundBottom ≤ boundTop + offsetY * k + 10 ∧ boundTop + offsetY * k - offsetY - 10 < boundBottom) ↔
      4 ≤ k ∧ k ≤ 5 := by
  have hlow : boundBottom ≤ boundTop + offsetY * k + 10 ↔ ¬ 104 + 56 * k < 318 := by
    rw [← row_lt_iff, not_lt]
    simp only [boundTop, offsetY, boundBottom]
    constructor <;> intro h <;> push_cast at * <;> linarith
  have hhigh : boundTop + offsetY * k - offsetY - 10 < boundBottom ↔ 104 + 56 * k < 394 := by
    rw [← row_lt_iff]
    simp only [boundTop, offsetY, boundBottom]
    constructor <;> intro h <;> push_cast at * <;> linarith
  rw [hlow, hhigh]
  omega

/-- A line of a scroll up, in its order: the line above the top comes in, the
lines after it are visible or below. -/
theorem upMove_ok (h : LineOk k l) (hdir : 0 < l.anims.pendingCount → l.anims.direction = .down)
    {foundMoveIn : Bool} (hfound : foundMoveIn = true ↔ 0 ≤ k) :
    LineOk (k + 1) (upMove foundMoveIn l).1 ∧ ((upMove foundMoveIn l).2 = true ↔ 0 ≤ k + 1) := by
  simp only [upMove, h.pos, up_in_iff, visible_iff]
  by_cases hin : k = -1
  · subst hin
    have hp : l.anims.pendingCount = 0 := by
      by_contra hne
      have := h.down (Nat.pos_of_ne_zero hne) (hdir (Nat.pos_of_ne_zero hne))
      omega
    have hnot : foundMoveIn = false := by
      cases foundMoveIn with
      | false => rfl
      | true => exact absurd (hfound.mp rfl) (by decide)
    rw [if_pos (by simp [hnot])]
    refine ⟨move_in_ok hp (h.idle hp) _ .down ⟨?_, by decide⟩, by simp⟩
    push_cast
    ring
  · rw [if_neg (by rintro ⟨hf, hlow, hhigh⟩; cases foundMoveIn <;> simp at hf hfound; omega)]
    by_cases hvis : 0 ≤ k ∧ k ≤ 4
    · rw [if_pos hvis]
      exact ⟨row_down_ok h hdir hvis.1 hvis.2, by rw [hfound]; omega⟩
    · rw [if_neg hvis]
      exact ⟨jump_down_ok h hdir, by rw [hfound]; omega⟩

/-- A line of a scroll down: the line below the last visible one comes in. -/
theorem downMove_ok (h : LineOk k l) (hdir : 0 < l.anims.pendingCount → l.anims.direction = .up)
    {foundMoveIn : Bool} (hfound : foundMoveIn = true ↔ 5 ≤ k) :
    LineOk (k - 1) (downMove foundMoveIn l).1 ∧ ((downMove foundMoveIn l).2 = true ↔ 4 ≤ k) := by
  simp only [downMove, h.pos, down_in_iff, visible_iff]
  by_cases hin : k = 4
  · subst hin
    have hp : l.anims.pendingCount = 0 := by
      by_contra hne
      have := h.up (Nat.pos_of_ne_zero hne) (hdir (Nat.pos_of_ne_zero hne))
      omega
    have hnot : foundMoveIn = false := by
      cases foundMoveIn with
      | false => rfl
      | true => exact absurd (hfound.mp rfl) (by decide)
    rw [if_pos (by simp [hnot])]
    refine ⟨move_in_ok hp (h.idle hp) _ .up ⟨?_, by decide⟩, by simp⟩
    simp only [boundBottom, boundTop, offsetY]
    norm_num
  · rw [if_neg (by rintro ⟨hf, hlow, hhigh⟩; cases foundMoveIn <;> simp at hf hfound; omega)]
    by_cases hvis : 0 ≤ k ∧ k ≤ 4
    · rw [if_pos hvis]
      exact ⟨row_up_ok h hdir hvis.1 (by omega), by rw [hfound]; omega⟩
    · rw [if_neg hvis]
      exact ⟨jump_up_ok h hdir, by rw [hfound]; omega⟩

theorem upMoveOut_ok (h : LineOk k l) (foundMoveOut : Bool) : LineOk k (upMoveOut foundMoveOut l).1 := by
  unfold upMoveOut
  dsimp only
  split
  · exact h.looks rfl rfl
  · exact h

theorem downMoveOut_ok (h : LineOk k l) (foundMoveOut : Bool) : LineOk k (downMoveOut foundMoveOut l).1 := by
  unfold downMoveOut
  dsimp only
  split
  · exact h.looks rfl rfl
  · exact h

end

/-! ## All lines -/

/-- Lines `k`, `k + 1`, … below the top. -/
def LinesFrom (k : Int) (ls : List LineBacking) : Prop := ∀ (j : Nat) l, ls[j]? = some l → LineOk (k + j) l

theorem linesFrom_cons {k : Int} {l : LineBacking} {ls : List LineBacking} :
    LinesFrom k (l :: ls) ↔ LineOk k l ∧ LinesFrom (k + 1) ls := by
  constructor
  · intro h
    refine ⟨by simpa using h 0 l rfl, fun j l' hj => ?_⟩
    have := h (j + 1) l' (by simpa using hj)
    rwa [Nat.cast_succ, add_comm (j : Int), ← add_assoc] at this
  · intro ⟨hl, hls⟩ j l' hj
    cases j with
    | zero =>
      obtain rfl : l = l' := by simpa using hj
      simpa using hl
    | succ j =>
      have := hls j l' (by simpa using hj)
      rwa [Nat.cast_succ, add_comm (j : Int), ← add_assoc]

/-- Nothing is pending the other way. -/
def NonePending (direction : AnimDirection) (ls : List LineBacking) : Prop :=
  ls.any (pending direction) = false

theorem NonePending.head {direction : AnimDirection} (other : AnimDirection) {l : LineBacking} {ls : List LineBacking}
    (h : NonePending direction (l :: ls)) (hne : other ≠ direction) :
    (0 < l.anims.pendingCount → l.anims.direction = other) ∧ NonePending direction ls := by
  simp only [NonePending, List.any_cons, Bool.or_eq_false_iff] at h
  refine ⟨fun hp => ?_, h.2⟩
  have hdir : l.anims.direction ≠ direction := by simpa [pending, hp] using h.1
  cases hd : l.anims.direction <;> cases direction <;> cases other <;> simp_all

theorem upLoop_ok : ∀ (ls : List LineBacking) (k : Int) (foundMoveIn foundMoveOut : Bool), LinesFrom k ls →
    NonePending .up ls → (foundMoveIn = true ↔ 0 ≤ k) → LinesFrom (k + 1) (upLoop foundMoveIn foundMoveOut ls)
  | [], _, _, _, _, _, _ => fun j l hj => by simp [upLoop] at hj
  | l :: ls, k, foundMoveIn, foundMoveOut, h, hno, hfound => by
    obtain ⟨hl, hls⟩ := linesFrom_cons.mp h
    obtain ⟨hdir, hno'⟩ := NonePending.head .down hno (by decide)
    obtain ⟨hmoved, hfound'⟩ := upMove_ok hl hdir hfound
    exact linesFrom_cons.mpr ⟨upMoveOut_ok hmoved _, upLoop_ok ls (k + 1) _ _ hls hno' hfound'⟩

theorem downLoop_ok : ∀ (ls : List LineBacking) (k : Int) (foundMoveIn foundMoveOut : Bool), LinesFrom k ls →
    NonePending .down ls → (foundMoveIn = true ↔ 5 ≤ k) →
    LinesFrom (k - 1) (downLoop foundMoveIn foundMoveOut ls)
  | [], _, _, _, _, _, _ => fun j l hj => by simp [downLoop] at hj
  | l :: ls, k, foundMoveIn, foundMoveOut, h, hno, hfound => by
    obtain ⟨hl, hls⟩ := linesFrom_cons.mp h
    obtain ⟨hdir, hno'⟩ := NonePending.head .up hno (by decide)
    obtain ⟨hmoved, hfound'⟩ := downMove_ok hl hdir hfound
    have hrest := downLoop_ok ls (k + 1) _ (downMoveOut foundMoveOut (downMove foundMoveIn l).1).2 hls hno'
      (by rw [hfound']; omega)
    rw [add_sub_right_comm] at hrest
    exact linesFrom_cons.mpr ⟨downMoveOut_ok hmoved _, hrest⟩

/-! ## The system -/

structure GridSys where
  grid : Grid
  lines : List LineBacking

/-- A list the lines are enough for. -/
structure GridFit where
  type : GridType
  lineCount : Nat
  fits : linesFor type.columns lineCount ≤ maxLines

/-- `gm_setup_grid(_, true)`. -/
def GridSys.setup (c : GridFit) (s : GridSys) : GridSys where
  grid := gmSetupGrid c.type c.lineCount true s.grid
  lines := setupLines (linesFor c.type.columns c.lineCount) s.lines

def GridSys.jump (slot : Int) (s : GridSys) : GridSys :=
  if slot < 0 then s
  else
    { grid := gridJumpToSlot slot s.grid
      lines := jumpLines s.grid.numberOfLines
        (windowStart s.grid.columnsPerLine s.grid.numberOfLines slot.toNat) s.lines }

def blankLine : LineBacking := ⟨⟨0, .up, 0⟩, 0, 0, false, false⟩

/-- The line the cursor is on. -/
def GridSys.cursorLine (s : GridSys) : LineBacking := s.lines.getD s.grid.row.toNat blankLine

/-- DOWN is refused outright: the cursor is on the last line, the last window shown. -/
def Grid.EndOfList (g : Grid) : Prop :=
  (g.numberOfLines : Int) - g.topLineNum = 4 ∧
    (g.numberOfLines : Int) * g.columnsPerLine - 1 < g.selectedSlot + g.columnsPerLine

instance (g : Grid) : Decidable g.EndOfList := inferInstanceAs (Decidable (_ ∧ _))

def Grid.StartOfList (g : Grid) : Prop := g.topLineNum = 0 ∧ g.selectedSlot - g.columnsPerLine < 0

instance (g : Grid) : Decidable g.StartOfList := inferInstanceAs (Decidable (_ ∧ _))

def GridSys.pressDown (canMove : Bool) (s : GridSys) : GridSys :=
  let next := s.grid.selectedSlot + s.grid.columnsPerLine
  if s.grid.EndOfList then s
  else if boundBottom - offsetY - 10 ≤ getPositionAfter s.cursorLine then
    if canMove then
      match gridDispatchNavigateDown s.grid.numberOfLines s.lines with
      | (true, lines) =>
        { grid := { s.grid with topLineNum := s.grid.topLineNum + 1, selectedSlot := next }, lines := lines }
      | (false, lines) => { s with lines := lines }
    else s
  else { s with grid := { s.grid with selectedSlot := next } }

def GridSys.pressUp (canMove : Bool) (s : GridSys) : GridSys :=
  let next := s.grid.selectedSlot - s.grid.columnsPerLine
  if s.grid.StartOfList then s
  else if s.grid.topLineNum ≠ 0 ∧ getPositionAfter s.cursorLine ≤ boundTop + offsetY - 10 then
    if canMove then
      match gridDispatchNavigateUp s.grid.numberOfLines s.lines with
      | (true, lines) =>
        { grid := { s.grid with topLineNum := s.grid.topLineNum - 1, selectedSlot := next }, lines := lines }
      | (false, lines) => { s with lines := lines }
    else s
  else { s with grid := { s.grid with selectedSlot := next } }

inductive GridOp where
  | setup (c : GridFit)
  /-- `number_of_lines` made smaller: by the set-up after a scan, or to 0 for a new folder. -/
  | shrink (n : Nat)
  | jump (slot : Int)
  | tick
  /-- LEFT and RIGHT, and more: the cursor put anywhere. -/
  | select (slot : Int)
  | down (canMove : Bool)
  | up (canMove : Bool)

def gridStep (s : GridSys) : GridOp → GridSys
  | .setup c => s.setup c
  | .shrink n => { s with grid := { s.grid with numberOfLines := min n s.grid.numberOfLines } }
  | .jump slot => s.jump slot
  | .tick => { s with lines := gridUpdateIconPositions s.grid.numberOfLines s.lines }
  | .select slot => { s with grid := { s.grid with selectedSlot := slot } }
  | .down canMove => s.pressDown canMove
  | .up canMove => s.pressUp canMove

/-- The first set-up, over whatever `browser_lines` holds. -/
def GridSys.start (mem : Fin maxLines → LineBacking) (g : Grid) (c : GridFit) : GridSys :=
  GridSys.setup c ⟨g, List.ofFn mem⟩

/-! ## The invariant -/

structure GridInv (s : GridSys) : Prop where
  length : s.lines.length = maxLines
  fits : s.grid.numberOfLines ≤ maxLines
  top : 0 ≤ s.grid.topLineNum
  lines : LinesFrom (-s.grid.topLineNum) (s.lines.take s.grid.numberOfLines)

theorem placed_ok (l : LineBacking) (start lineNum : Nat) :
    LineOk ((lineNum : Int) - start) (l.stopped.placed start lineNum) := by
  refine ⟨?_, ⟨0, by simp [LineBacking.placed, LineBacking.stopped]⟩, fun _ => rfl,
    fun hp => by simp [LineBacking.placed, LineBacking.stopped] at hp,
    fun hp => by simp [LineBacking.placed, LineBacking.stopped] at hp⟩
  simp only [getPositionAfter, LineBacking.placed, LineBacking.stopped]
  cases l.anims.direction with
  | up | down =>
    push_cast
    ring

theorem getElem?_take_iff {ls : List LineBacking} {n j : Nat} {l : LineBacking} :
    (ls.take n)[j]? = some l ↔ j < n ∧ ls[j]? = some l := by
  rw [List.getElem?_take]
  split <;> simp_all

theorem setupLines_ok (n : Nat) (ls : List LineBacking) : LinesFrom 0 ((setupLines n ls).take n) := by
  intro j l hj
  obtain ⟨hjn, hget⟩ := getElem?_take_iff.mp hj
  rw [setupLines, List.getElem?_mapIdx] at hget
  obtain ⟨l', -, rfl⟩ := Option.map_eq_some_iff.mp hget
  have hplaced := placed_ok { l' with transparency := 0 } 0 j
  simp only [if_pos hjn, zero_add]
  simpa [LineBacking.stopped] using hplaced

theorem jumpLines_ok (n start : Nat) (ls : List LineBacking) :
    LinesFrom (-(start : Int)) ((jumpLines n start ls).take n) := by
  intro j l hj
  obtain ⟨hjn, hget⟩ := getElem?_take_iff.mp hj
  rw [jumpLines, List.getElem?_mapIdx] at hget
  obtain ⟨l', -, rfl⟩ := Option.map_eq_some_iff.mp hget
  have hplaced := placed_ok { l' with movingIn := false, movingOut := false } start j
  simp only [if_pos hjn]
  rw [neg_add_eq_sub]
  exact hplaced

theorem onLines_take {n : Nat} {ls : List LineBacking} {f : List LineBacking → List LineBacking}
    (hlen : (f (ls.take n)).length = (ls.take n).length) (hn : n ≤ ls.length) :
    (onLines n f ls).take n = f (ls.take n) ∧ (onLines n f ls).length = ls.length := by
  have hfn : (f (ls.take n)).length = n := by rw [hlen, List.length_take, min_eq_left hn]
  refine ⟨?_, ?_⟩
  · rw [onLines, List.take_append_of_le_length (by omega), List.take_of_length_le (by omega)]
  · rw [onLines, List.length_append, hfn, List.length_drop]
    omega

theorem upLoop_length : ∀ (ls : List LineBacking) (foundMoveIn foundMoveOut : Bool),
    (upLoop foundMoveIn foundMoveOut ls).length = ls.length
  | [], _, _ => rfl
  | _ :: ls, _, _ => congrArg Nat.succ (upLoop_length ls _ _)

theorem downLoop_length : ∀ (ls : List LineBacking) (foundMoveIn foundMoveOut : Bool),
    (downLoop foundMoveIn foundMoveOut ls).length = ls.length
  | [], _, _ => rfl
  | _ :: ls, _, _ => congrArg Nat.succ (downLoop_length ls _ _)

/-- A refused scroll changes no line. -/
theorem dispatch_refused (n : Nat) (ls : List LineBacking) :
    ((gridDispatchNavigateUp n ls).1 = false → (gridDispatchNavigateUp n ls).2 = ls) ∧
      ((gridDispatchNavigateDown n ls).1 = false → (gridDispatchNavigateDown n ls).2 = ls) := by
  unfold gridDispatchNavigateUp gridDispatchNavigateDown
  constructor <;> split <;> simp

variable {s : GridSys}

theorem GridInv.dispatch_up (h : GridInv s) (htop : 0 < s.grid.topLineNum)
    (hgo : (gridDispatchNavigateUp s.grid.numberOfLines s.lines).1 = true) :
    (gridDispatchNavigateUp s.grid.numberOfLines s.lines).2.length = maxLines ∧
      LinesFrom (-(s.grid.topLineNum - 1)) ((gridDispatchNavigateUp s.grid.numberOfLines s.lines).2.take
        s.grid.numberOfLines) := by
  unfold gridDispatchNavigateUp at hgo ⊢
  split at hgo
  · cases hgo
  · rename_i hno
    rw [if_neg hno]
    have hnone : NonePending .up (s.lines.take s.grid.numberOfLines) := by simpa [NonePending] using hno
    obtain ⟨htake, hlen⟩ := onLines_take (upLoop_length _ false false) (h.length.symm ▸ h.fits)
    refine ⟨hlen.trans h.length, ?_⟩
    rw [htake, neg_sub, sub_eq_neg_add]
    exact upLoop_ok _ _ _ _ h.lines hnone (by simp; omega)

theorem linesFrom_fadeOut {k : Int} {ls : List LineBacking} (h : LinesFrom k ls) :
    LinesFrom k (ls.map LineBacking.fadeOut) := by
  intro j l hj
  rw [List.getElem?_map] at hj
  obtain ⟨l', hl', rfl⟩ := Option.map_eq_some_iff.mp hj
  unfold LineBacking.fadeOut
  split
  · exact (h j l' hl').looks rfl rfl
  · exact h j l' hl'

theorem nonePending_fadeOut {direction : AnimDirection} {ls : List LineBacking} (h : NonePending direction ls) :
    NonePending direction (ls.map LineBacking.fadeOut) := by
  have hsame : ∀ l, pending direction (LineBacking.fadeOut l) = pending direction l := by
    intro l
    unfold LineBacking.fadeOut
    split <;> rfl
  rw [NonePending, List.any_map]
  simpa [NonePending, Function.comp_def, hsame] using h

theorem GridInv.dispatch_down (h : GridInv s)
    (hgo : (gridDispatchNavigateDown s.grid.numberOfLines s.lines).1 = true) :
    (gridDispatchNavigateDown s.grid.numberOfLines s.lines).2.length = maxLines ∧
      LinesFrom (-(s.grid.topLineNum + 1)) ((gridDispatchNavigateDown s.grid.numberOfLines s.lines).2.take
        s.grid.numberOfLines) := by
  unfold gridDispatchNavigateDown at hgo ⊢
  split at hgo
  · cases hgo
  · rename_i hno
    rw [if_neg hno]
    have htop := h.top
    have hnone : NonePending .down (s.lines.take s.grid.numberOfLines) := by simpa [NonePending] using hno
    obtain ⟨htake, hlen⟩ := onLines_take (f := fun ls => downLoop false false (ls.map LineBacking.fadeOut))
      ((downLoop_length _ false false).trans (List.length_map _)) (h.length.symm ▸ h.fits)
    refine ⟨hlen.trans h.length, ?_⟩
    rw [htake, neg_add, ← sub_eq_add_neg]
    exact downLoop_ok _ _ _ _ (linesFrom_fadeOut h.lines) (nonePending_fadeOut hnone) (by simp; omega)

theorem tick_inv (h : GridInv s) :
    GridInv { s with lines := gridUpdateIconPositions s.grid.numberOfLines s.lines } := by
  obtain ⟨htake, hlen⟩ := onLines_take (f := List.map tickLine) (List.length_map _) (h.length.symm ▸ h.fits)
  refine ⟨hlen.trans h.length, h.fits, h.top, ?_⟩
  rw [gridUpdateIconPositions, htake]
  intro j l hj
  rw [List.getElem?_map] at hj
  obtain ⟨l', hl', rfl⟩ := Option.map_eq_some_iff.mp hj
  exact tickLine_ok (h.lines j l' hl')

/-- What a press does to the lines, if it scrolls at all. -/
theorem pressDown_inv (h : GridInv s) (canMove : Bool) : GridInv (s.pressDown canMove) := by
  have hmoved : ∀ slot, GridInv { s with grid := { s.grid with selectedSlot := slot } } := fun slot =>
    ⟨h.length, h.fits, h.top, h.lines⟩
  unfold GridSys.pressDown
  dsimp only
  split
  · exact h
  · split
    · split
      · have hrefused := (dispatch_refused s.grid.numberOfLines s.lines).2
        have hgo := h.dispatch_down
        have htop := h.top
        generalize gridDispatchNavigateDown s.grid.numberOfLines s.lines = r at hrefused hgo
        obtain ⟨ok, lines⟩ := r
        cases ok with
        | true =>
          obtain ⟨hlen, hlines⟩ := hgo rfl
          exact ⟨hlen, h.fits, by dsimp only; omega, hlines⟩
        | false =>
          obtain rfl : lines = s.lines := hrefused rfl
          exact h
      · exact h
    · exact hmoved _

theorem pressUp_inv (h : GridInv s) (canMove : Bool) : GridInv (s.pressUp canMove) := by
  have hmoved : ∀ slot, GridInv { s with grid := { s.grid with selectedSlot := slot } } := fun slot =>
    ⟨h.length, h.fits, h.top, h.lines⟩
  unfold GridSys.pressUp
  dsimp only
  split
  · exact h
  · split
    · rename_i hscroll
      have htop : 0 < s.grid.topLineNum := by
        have := h.top
        have := hscroll.1
        omega
      split
      · have hrefused := (dispatch_refused s.grid.numberOfLines s.lines).1
        have hgo := h.dispatch_up htop
        generalize gridDispatchNavigateUp s.grid.numberOfLines s.lines = r at hrefused hgo
        obtain ⟨ok, lines⟩ := r
        cases ok with
        | true =>
          obtain ⟨hlen, hlines⟩ := hgo rfl
          exact ⟨hlen, h.fits, by dsimp only; omega, hlines⟩
        | false =>
          obtain rfl : lines = s.lines := hrefused rfl
          exact h
      · exact h
    · exact hmoved _

theorem setup_inv (hlen : s.lines.length = maxLines) (c : GridFit) : GridInv (s.setup c) := by
  refine ⟨?_, c.fits, Int.le_refl 0, ?_⟩
  · simp [GridSys.setup, setupLines, hlen]
  · exact setupLines_ok (linesFor c.type.columns c.lineCount) s.lines

theorem jump_inv (h : GridInv s) (slot : Int) : GridInv (s.jump slot) := by
  unfold GridSys.jump
  split
  · exact h
  · rename_i hslot
    simp only [gridJumpToSlot, if_neg hslot]
    exact ⟨by simp [jumpLines, h.length], h.fits, Int.natCast_nonneg _, jumpLines_ok _ _ _⟩

theorem gridStep_inv (h : GridInv s) (op : GridOp) : GridInv (gridStep s op) := by
  cases op with
  | setup c => exact setup_inv h.length c
  | shrink n =>
    have hfits := h.fits
    refine ⟨h.length, by simp only [gridStep]; omega, h.top, fun j l hj => ?_⟩
    obtain ⟨hjn, hget⟩ := getElem?_take_iff.mp hj
    exact h.lines j l (getElem?_take_iff.mpr ⟨by simp only [gridStep] at hjn; omega, hget⟩)
  | jump slot => exact jump_inv h slot
  | tick => exact tick_inv h
  | select slot => exact ⟨h.length, h.fits, h.top, h.lines⟩
  | down canMove => exact pressDown_inv h canMove
  | up canMove => exact pressUp_inv h canMove

theorem gridSys_inv (mem : Fin maxLines → LineBacking) (g : Grid) (c : GridFit) (ops : List GridOp) :
    GridInv (Steps.run gridStep (.start mem g c) ops) :=
  Steps.inv_run GridInv (fun _ op h _ => gridStep_inv h op) (setup_inv (List.length_ofFn) c)
    (Steps.guarded_true ops)

/-! ## What follows -/

theorem GridInv.line (h : GridInv s) {i : Nat} {l : LineBacking} (hi : i < s.grid.numberOfLines)
    (hl : s.lines[i]? = some l) : LineOk (i - s.grid.topLineNum) l := by
  have := h.lines i l (getElem?_take_iff.mpr ⟨hi, hl⟩)
  rwa [neg_add_eq_sub] at this

/-- The line of a row the grid has. -/
theorem GridInv.cursorLine (h : GridInv s) (hlow : 0 ≤ s.grid.row) (hhigh : s.grid.row < s.grid.numberOfLines) :
    LineOk (s.grid.row - s.grid.topLineNum) s.cursorLine := by
  have hrow : s.grid.row.toNat < s.grid.numberOfLines := by omega
  have hlen : s.grid.row.toNat < s.lines.length := by
    have := h.fits
    have := h.length
    omega
  have hget : s.lines[s.grid.row.toNat]? = some s.cursorLine := by
    simp [GridSys.cursorLine, List.getD_eq_getElem?_getD, List.getElem?_eq_getElem hlen]
  have hline := h.line hrow hget
  rwa [Int.toNat_of_nonneg hlow] at hline

/-- The menu asks for a scroll down, or up. -/
def GridSys.AsksDown (s : GridSys) : Prop :=
  ¬ s.grid.EndOfList ∧ boundBottom - offsetY - 10 ≤ getPositionAfter s.cursorLine

def GridSys.AsksUp (s : GridSys) : Prop :=
  ¬ s.grid.StartOfList ∧ s.grid.topLineNum ≠ 0 ∧ getPositionAfter s.cursorLine ≤ boundTop + offsetY - 10

/-- The cursor is on one of the four lines shown. Lines the list does not have are
not drawn. -/
structure Grid.RowShown (g : Grid) : Prop where
  low : g.topLineNum ≤ g.row
  high : g.row < g.topLineNum + 4
  listed : g.row < g.numberOfLines

theorem bottom_iff (k : Int) : boundBottom - offsetY - 10 ≤ boundTop + offsetY * k ↔ 3 ≤ k := by
  have h : boundBottom - offsetY - 10 ≤ boundTop + offsetY * k ↔ ¬ 104 + 56 * k < 262 := by
    rw [← row_lt_iff, not_lt]
    norm_num [boundBottom, offsetY]
  rw [h]
  omega

theorem top_iff (k : Int) : boundTop + offsetY * k ≤ boundTop + offsetY - 10 ↔ k ≤ 0 := by
  have h : boundTop + offsetY * k ≤ boundTop + offsetY - 10 ↔ 104 + 56 * k ≤ 150 := by
    rw [← row_le_iff]
    norm_num [boundTop, offsetY]
  rw [h]
  omega

/-- The lines and the scroll position agree. -/
structure LinesFollow (s : GridSys) : Prop where
  position : ∀ (i : Nat) l, i < s.grid.numberOfLines → s.lines[i]? = some l →
    getPositionAfter l = 104 + 56 * ((i : ℚ) - s.grid.topLineNum)
  refusedUp : (gridDispatchNavigateUp s.grid.numberOfLines s.lines).1 = false →
    (gridDispatchNavigateUp s.grid.numberOfLines s.lines).2 = s.lines
  refusedDown : (gridDispatchNavigateDown s.grid.numberOfLines s.lines).1 = false →
    (gridDispatchNavigateDown s.grid.numberOfLines s.lines).2 = s.lines
  /-- The tick that ends an animation applies all that is left of it. -/
  ended : ∀ (i : Nat) l, i < s.grid.numberOfLines → s.lines[i]? = some l → l.anims.pendingCount ≠ 0 →
    l.anims.remaining - tickDelta l < 1 / 10 → l.anims.remaining - tickDelta l = 0
  /-- A scroll that is not refused ends none: it finds none going the other way. -/
  keptUp : (gridDispatchNavigateUp s.grid.numberOfLines s.lines).1 = true →
    ∀ l ∈ s.lines.take s.grid.numberOfLines, 0 < l.anims.pendingCount → l.anims.direction = .down
  keptDown : (gridDispatchNavigateDown s.grid.numberOfLines s.lines).1 = true →
    ∀ l ∈ s.lines.take s.grid.numberOfLines, 0 < l.anims.pendingCount → l.anims.direction = .up
  asksDown : s.grid.RowShown → (s.AsksDown ↔ s.grid.row = s.grid.topLineNum + 3 ∧ ¬ s.grid.EndOfList)
  asksUp : s.grid.RowShown → (s.AsksUp ↔ s.grid.row = s.grid.topLineNum ∧ 0 < s.grid.topLineNum)

theorem none_pending_direction {direction other : AnimDirection} (hne : other ≠ direction)
    {ls : List LineBacking} (h : ¬ ls.any (pending direction) = true) {l : LineBacking} (hl : l ∈ ls)
    (hp : 0 < l.anims.pendingCount) : l.anims.direction = other := by
  have hnot : l.anims.direction ≠ direction := by
    intro hd
    exact h (List.any_eq_true.mpr ⟨l, hl, by simp [pending, hp, hd]⟩)
  cases hd : l.anims.direction <;> cases direction <;> cases other <;> simp_all

theorem GridInv.follow (h : GridInv s) : LinesFollow s where
  position i l hi hl := by
    -- a line is where its number says
    have hpos := (h.line hi hl).pos
    rw [hpos, boundTop, offsetY]
    push_cast
    ring
  refusedUp := (dispatch_refused _ _).1
  refusedDown := (dispatch_refused _ _).2
  ended i l hi hl hp hend := tick_no_leftover (h.line hi hl) hp hend
  keptUp hgo l hl hp := by
    unfold gridDispatchNavigateUp at hgo
    split at hgo
    · cases hgo
    · rename_i hno
      exact none_pending_direction (by decide) hno hl hp
  keptDown hgo l hl hp := by
    unfold gridDispatchNavigateDown at hgo
    split at hgo
    · cases hgo
    · rename_i hno
      exact none_pending_direction (by decide) hno hl hp
  asksDown hrow := by
    have htop := h.top
    obtain ⟨hlow, hhigh, hlisted⟩ := hrow
    -- the cursor leaves the last line that is shown
    rw [GridSys.AsksDown, (h.cursorLine (by omega) hlisted).pos, bottom_iff]
    constructor
    · intro ⟨hend, hbottom⟩
      exact ⟨by omega, hend⟩
    · intro ⟨heq, hend⟩
      exact ⟨hend, by omega⟩
  asksUp hrow := by
    have htop := h.top
    obtain ⟨hlow, hhigh, hlisted⟩ := hrow
    rw [GridSys.AsksUp, (h.cursorLine (by omega) hlisted).pos, top_iff]
    constructor
    · rintro ⟨-, hne, hle⟩
      exact ⟨by omega, by omega⟩
    · intro ⟨heq, hpos⟩
      exact ⟨fun hs => by have := hs.1; omega, by omega, by omega⟩

/-- Over every run the lines follow the scroll position. -/
theorem lines_follow_scroll (mem : Fin maxLines → LineBacking) (g : Grid) (c : GridFit) (ops : List GridOp) :
    LinesFollow (Steps.run gridStep (.start mem g c) ops) :=
  (gridSys_inv mem g c ops).follow

/-! ## The menu without its animations -/

/-- `lineEndPos` is what the animations lead to. -/
theorem GridInv.lineEndPos (h : GridInv s) (hlow : 0 ≤ s.grid.row) (hhigh : s.grid.row < s.grid.numberOfLines) :
    getPositionAfter s.cursorLine = lineEndPos s.grid s.grid.row := by
  rw [(h.cursorLine hlow hhigh).pos, Cubiboot.lineEndPos, drawBoundTop, drawOffsetY, boundTop, offsetY]
  push_cast
  ring

/-- A press moves the cursor and the window as `moveDown` says, which is told
whether the scroll goes through. -/
theorem pressDown_moveDown (h : GridInv s) (hlow : 0 ≤ s.grid.row) (hhigh : s.grid.row < s.grid.numberOfLines)
    (canMove : Bool) (fetch : Nat → Option Fetched) {g : Games} (hg : g.grid = s.grid) :
    (moveDown (canMove && (gridDispatchNavigateDown s.grid.numberOfLines s.lines).1) fetch g).grid =
      (s.pressDown canMove).grid := by
  have hpos : boundBottom - offsetY - 10 ≤ getPositionAfter s.cursorLine ↔
      drawBoundBottom - drawOffsetY - 10 ≤ Cubiboot.lineEndPos s.grid s.grid.row := by
    rw [h.lineEndPos hlow hhigh, boundBottom, offsetY, drawBoundBottom, drawOffsetY]
    exact_mod_cast Iff.rfl
  simp only [moveDown, hg, GridSys.pressDown, hpos, Grid.EndOfList, Grid.row]
  split
  · exact hg
  · split
    · generalize gridDispatchNavigateDown s.grid.numberOfLines s.lines = r
      obtain ⟨ok, lines⟩ := r
      cases canMove <;> cases ok <;> simp [Games.scrollTo, hg]
    · rfl

theorem pressUp_moveUp (h : GridInv s) (hlow : 0 ≤ s.grid.row) (hhigh : s.grid.row < s.grid.numberOfLines)
    (canMove : Bool) (fetch : Nat → Option Fetched) {g : Games} (hg : g.grid = s.grid) :
    (moveUp (canMove && (gridDispatchNavigateUp s.grid.numberOfLines s.lines).1) fetch g).grid =
      (s.pressUp canMove).grid := by
  have hpos : getPositionAfter s.cursorLine ≤ boundTop + offsetY - 10 ↔
      Cubiboot.lineEndPos s.grid s.grid.row ≤ drawBoundTop + drawOffsetY - 10 := by
    rw [h.lineEndPos hlow hhigh, boundTop, offsetY, drawBoundTop, drawOffsetY]
    exact_mod_cast Iff.rfl
  simp only [moveUp, hg, GridSys.pressUp, hpos, Grid.StartOfList, Grid.row]
  split
  · exact hg
  · split
    · generalize gridDispatchNavigateUp s.grid.numberOfLines s.lines = r
      obtain ⟨ok, lines⟩ := r
      cases canMove <;> cases ok <;> simp [Games.scrollTo, hg]
    · rfl

end Cubiboot
