import Cubiboot.DiscBanner
import Cubiboot.Worker

/-
  The browser: the game list's menu, its disc screen and the memory-card hook,
  over the enumeration thread (`menu.c`, `gameid.c`).

  A step is one of the worker's, one call of `handle_gameselect_inputs` (a
  frame), of `stock_disc_tick`, of `pre_menu_alpha_setup` or of the card
  thread's hook. A frame is its blocks in the order of the source, each a
  function of the whole state, with the returns in between where the source has
  them; `gameselectInputs_inv` takes a property through it block by block.

  What the outside answers comes with the label: buttons and cover, whether the
  grid could dispatch a scroll (its animations are floating point), what the
  drive answers, what the worker is told while a frame waits for it.

  `opened` and `confirmedGame` are history: the entry the last A press opened
  the submenu on, and the last game so confirmed. Nothing reads them.

  Correspondence (C ↔ Lean):
    `stock_disc_*`, `start_passthrough_game`      ↔ `DiscScreen`
    `current_gameselect_state`, `in_submenu_transition`, the two alphas ↔ `Browser`
    `mcp_selected_entry`                          ↔ `Browser.mcpSelected`, as list and slot
    `handle_gameselect_inputs`                    ↔ `gameselectInputs`
      disc screen, cover sample to transition     ↔ `discInputs`, `frameHead`
      Z, B, A, START, the d-pad                   ↔ `pressZ` … `pressStart`, `menuMoves`
    `stock_disc_tick`                             ↔ `stockDiscTick`
    `pre_menu_alpha_setup`                        ↔ `menuAlphaSetup`
-/

set_option autoImplicit false

namespace Cubiboot

inductive StockDiscState where
  | ready | reading | noDisc
  deriving DecidableEq, Repr

structure DiscScreen where
  mode : Bool
  state : StockDiscState
  reading : Bool
  lidOpened : Bool
  lidFrames : Int
  startPassthrough : Bool
  banner : DiscBanner

inductive Submenu where
  | loader | start
  deriving DecidableEq, Repr

/-- A pointer to an entry: the list it was taken from and its place there. -/
structure EntryRef where
  listNo : Nat
  slot : Nat
  deriving DecidableEq, Repr

/-- `boot_entry`, and `second_boot_entry` if it has one. -/
structure Boot where
  entry : FileEntry
  second : Option FileEntry

structure Browser where
  games : Games
  disc : DiscScreen
  gcLoader : Bool
  transitionStep : UInt8
  submenu : Submenu
  inTransition : Bool
  customAlpha : UInt8
  originalAlpha : UInt8
  boot : Option Boot
  disableMcp : Bool
  mcpSelected : Option EntryRef
  opened : Option FileEntry
  confirmedGame : Option FileEntry

structure FrameInput where
  a : Bool
  b : Bool
  z : Bool
  start : Bool
  right : Bool
  left : Bool
  down : Bool
  up : Bool
  coverOpen : Bool
  dispatchDown : Bool
  dispatchUp : Bool
  canBoot : FileEntry → Bool
  fetch : Nat → Option Fetched
  worker : Nat → WorkerAnswer

/-! ## The disc screen -/

def lidOpenFrames : Int := 8

/-- The folder to start the worker on again. -/
def restartTarget (g : Games) : Option Path := if g.enumPath = [] then none else some g.enumPath

def restartScan (g : Games) : Games := gmStartThread (restartTarget g) g

/-- The worker stands down and the disc is read: the Z press, and a lid closed. -/
def Browser.readDisc (b : Browser) (worker : Nat → WorkerAnswer) : Browser :=
  { b with
    games := gmDeinitThread worker b.games
    disc := { b.disc with
      banner := discBannerStart b.disc.banner
      state := .reading
      reading := true
      lidOpened := false } }

def stockDiscTick (drive : DiAnswer) (coverOpen : Bool) (worker : Nat → WorkerAnswer) (b : Browser) : Browser :=
  if b.disc.reading then
    let (result, banner) := discBannerPoll drive b.disc.banner
    if 0 < result then
      { b with
        disc := { b.disc with banner := banner, state := .ready, reading := false }
        games := restartScan b.games }
    else if result < 0 then
      { b with
        disc := { b.disc with banner := banner, state := .noDisc, reading := false }
        games := restartScan b.games }
    else { b with disc := { b.disc with banner := banner } }
  else if coverOpen then
    let lidFrames := b.disc.lidFrames + 1
    { b with
      disc := { b.disc with
        lidFrames := lidFrames
        lidOpened := b.disc.lidOpened || decide (lidOpenFrames ≤ lidFrames) } }
  else
    let b := { b with disc := { b.disc with lidFrames := 0 } }
    if b.disc.lidOpened then b.readDisc worker else b

/-- `handle_gameselect_inputs` while the disc screen is up. -/
def discInputs (f : FrameInput) (b : Browser) : Browser :=
  if f.start then
    if b.disc.state ≠ .ready then b
    else { b with disc := { b.disc with startPassthrough := true } }
  else if f.b then
    let b :=
      if b.disc.reading then
        { b with
          disc := { b.disc with
            banner := discBannerCancel b.disc.banner
            reading := false
            state := .noDisc }
          games := restartScan b.games }
      else b
    { b with disc := { b.disc with lidOpened := false, lidFrames := 0, mode := false, startPassthrough := false } }
  else b

/-! ## A frame of the browser -/

def sampleCover (f : FrameInput) (b : Browser) : Browser :=
  if f.coverOpen then { b with disc := { b.disc with lidOpened := true } } else b

def Games.applyPending (g : Games) : Games :=
  let (pending, grid) := gmApplyPendingLastPlayed g.ld.entries.length g.pending g.grid
  { g with pending := pending, grid := grid }

def submenuTransition (b : Browser) : Browser :=
  let b :=
    if b.inTransition ∧ b.customAlpha ≠ 0 ∧ b.originalAlpha ≠ 0 ∧
        (255 - b.customAlpha < b.transitionStep ∨ 255 - b.originalAlpha < b.transitionStep) then
      { b with
        inTransition := false
        customAlpha := if b.customAlpha < 127 then 0 else 255
        originalAlpha := if b.originalAlpha < 127 then 0 else 255 }
    else b
  if b.inTransition then
    match b.submenu with
    | .loader =>
      { b with
        customAlpha := b.customAlpha + b.transitionStep
        originalAlpha := b.originalAlpha - b.transitionStep }
    | .start =>
      { b with
        customAlpha := b.customAlpha - b.transitionStep
        originalAlpha := b.originalAlpha + b.transitionStep }
  else b

/-- Down to the buttons. -/
def frameHead (f : FrameInput) (b : Browser) : Browser :=
  let b := sampleCover f b
  submenuTransition { b with games := b.games.applyPending }

def pressZ (f : FrameInput) (b : Browser) : Browser :=
  if f.z then
    let b := b.readDisc f.worker
    { b with disc := { b.disc with mode := true } }
  else b

/-- B at the card's root goes back to the main menu. -/
def leavesMenu (f : FrameInput) (b : Browser) : Bool :=
  f.b && !b.inTransition && decide (b.submenu = .loader) && decide (b.games.enumPath = [slash])

def pressB (f : FrameInput) (b : Browser) : Browser :=
  if f.b && !b.inTransition then
    match b.submenu with
    | .start => { b with inTransition := true, submenu := .loader }
    | .loader => { b with games := gmStartThread (some dotdot) (gmDeinitThread f.worker b.games) }
  else b

/-- `mcp_set_gameid`. -/
def mcpSetGameid (e : FileEntry) (r : EntryRef) (b : Browser) : Browser :=
  if b.disableMcp then b else { b with mcpSelected := some r, confirmedGame := some e }

/-- The entry A is pressed on. -/
def Browser.pressedEntry (b : Browser) : Option FileEntry :=
  if b.games.grid.selectedSlot < b.games.backingCount ∧ b.inTransition = false then
    b.games.entryAt b.games.grid.selectedSlot
  else none

def pressA (f : FrameInput) (b : Browser) : Browser :=
  if f.a && decide (b.submenu = .loader) then
    match b.pressedEntry with
    | none => b
    | some e =>
      if e.type = .directory then
        { b with games := gmStartThread (some (e.path ++ [slash])) (gmDeinitThread f.worker b.games) }
      else
        let b := { b with inTransition := true, submenu := .start, opened := some e }
        if e.type = .game then
          mcpSetGameid e ⟨b.games.listNo, b.games.grid.selectedSlot.toNat⟩ b
        else b
  else b

def pressStart (f : FrameInput) (b : Browser) : Browser :=
  if f.start && decide (b.submenu = .start) then
    match b.games.entryAt b.games.grid.selectedSlot with
    -- the source reads through NULL here: what it would boot is no file
    | none => b
    | some e =>
      if f.canBoot e then
        { b with boot := some ⟨e, e.second.bind fun j => b.games.ld.entries[j]?⟩ }
      else b
  else b

/-! ### The cursor -/

def drawBoundTop : Int := 104
def drawBoundBottom : Int := 328
def drawOffsetY : Int := 56

/-- `get_position_after` of a line below `number_of_lines`, once its animations are over. -/
def lineEndPos (g : Grid) (line : Int) : Int := drawBoundTop + drawOffsetY * (line - g.topLineNum)

def moveRight (g : Games) : Games :=
  if g.grid.selectedSlot % g.grid.columnsPerLine = g.grid.columnsPerLine - 1 then g
  else { g with grid := { g.grid with selectedSlot := g.grid.selectedSlot + 1 } }

def moveLeft (g : Games) : Games :=
  if g.grid.selectedSlot % g.grid.columnsPerLine = 0 then g
  else { g with grid := { g.grid with selectedSlot := g.grid.selectedSlot - 1 } }

/-- The window one line on, the cursor with it. -/
def Games.scrollTo (g : Games) (fetch : Nat → Option Fetched) (topLineNum selectedSlot : Int) (down : Bool) :
    Games :=
  { g with
    ld := gmLineChanged g.grid.columnsPerLine fetch g.grid.numberOfLines topLineNum.toNat down g.ld
    grid := { g.grid with topLineNum := topLineNum, selectedSlot := selectedSlot } }

def moveDown (dispatch : Bool) (fetch : Nat → Option Fetched) (g : Games) : Games :=
  let next := g.grid.selectedSlot + g.grid.columnsPerLine
  if (g.grid.numberOfLines : Int) - g.grid.topLineNum = 4 ∧
      (g.grid.numberOfLines : Int) * g.grid.columnsPerLine - 1 < next then g
  else if drawBoundBottom - drawOffsetY - 10 ≤ lineEndPos g.grid (g.grid.selectedSlot / g.grid.columnsPerLine) then
    if dispatch then g.scrollTo fetch (g.grid.topLineNum + 1) next true else g
  else { g with grid := { g.grid with selectedSlot := next } }

def moveUp (dispatch : Bool) (fetch : Nat → Option Fetched) (g : Games) : Games :=
  let next := g.grid.selectedSlot - g.grid.columnsPerLine
  if g.grid.topLineNum = 0 ∧ next < 0 then g
  else if g.grid.topLineNum ≠ 0 ∧
      lineEndPos g.grid (g.grid.selectedSlot / g.grid.columnsPerLine) ≤ drawBoundTop + drawOffsetY - 10 then
    if dispatch then g.scrollTo fetch (g.grid.topLineNum - 1) next false else g
  else { g with grid := { g.grid with selectedSlot := next } }

def beforeDown (f : FrameInput) (g : Games) : Games :=
  let g := if f.right then moveRight g else g
  if f.left then moveLeft g else g

def beforeUp (f : FrameInput) (g : Games) : Games :=
  let g := beforeDown f g
  if f.down then moveDown f.dispatchDown f.fetch g else g

/-- The d-pad, all four directions in one frame if it says so. -/
def movesOf (f : FrameInput) (g : Games) : Games :=
  let g := beforeUp f g
  if f.up then moveUp f.dispatchUp f.fetch g else g

def menuMoves (f : FrameInput) (b : Browser) : Browser :=
  match b.submenu with
  | .loader => { b with games := movesOf f b.games }
  | .start => b

/-! ### The whole frame -/

def gameselectInputs (f : FrameInput) (b : Browser) : Browser :=
  if b.disc.mode then discInputs f b
  else
    let b := frameHead f b
    if f.z && b.gcLoader then b
    else
      let b := pressZ f b
      if leavesMenu f b then b
      else menuMoves f (pressStart f (pressA f (pressB f b)))

/-! ## The system -/

inductive BrowserLabel where
  | worker (answer : WorkerAnswer)
  | frame (f : FrameInput)
  | tick (drive : DiAnswer) (coverOpen : Bool) (worker : Nat → WorkerAnswer)
  | menuAlpha (back : Bool)
  | cardMessage

/-- `back` is whether the menu comes back to the game list. -/
def menuAlphaSetup (back : Bool) (b : Browser) : Browser := if back then { b with submenu := .loader } else b

def browserStep (b : Browser) : BrowserLabel → Browser
  | .worker answer => { b with games := workerStep false b.games answer }
  | .frame f => gameselectInputs f b
  | .tick drive coverOpen worker => if b.disc.mode then stockDiscTick drive coverOpen worker b else b
  | .menuAlpha back => menuAlphaSetup back b
  | .cardMessage => b

/-- The options the loader hands over. -/
structure MenuOptions where
  gridType : GridType
  rememberLastGame : Bool
  gcLoader : Bool
  transitionStep : UInt8
  disableMcp : Bool

/-- The statics before the menu's first call. -/
def Games.powerOn (o : MenuOptions) : Games where
  gridType := o.gridType
  rememberLastGame := o.rememberLastGame
  ld := .empty
  backingCount := 0
  grid := ⟨8, 4, 0, 0⟩
  enumPath := []
  running := false
  scanStopped := false
  scanComplete := false
  coldBootResolve := false
  pending := -1
  scanIsLastPlayed := false
  lastPlayedPath := []
  consumed := false
  worker := .idle
  listNo := 0
  searchedNo := 0

/-- The menu's state after `gm_start_thread(NULL)`. -/
def Browser.coldBoot (o : MenuOptions) : Browser where
  games := gmStartThread none (.powerOn o)
  disc := ⟨false, .noDisc, false, true, 0, false, ⟨0, 0, 0, 0, none, false⟩⟩
  gcLoader := o.gcLoader
  transitionStep := o.transitionStep
  submenu := .loader
  inTransition := false
  customAlpha := 255
  originalAlpha := 0
  boot := none
  disableMcp := o.disableMcp
  mcpSelected := none
  opened := none
  confirmedGame := none

/-! ## Through a frame, block by block -/

def afterZ (f : FrameInput) (b : Browser) : Browser := pressZ f (frameHead f b)

def afterB (f : FrameInput) (b : Browser) : Browser := pressB f (afterZ f b)

def afterA (f : FrameInput) (b : Browser) : Browser := pressA f (afterB f b)

/-- The frame comes to START and the d-pad. -/
def reachesStart (f : FrameInput) (b : Browser) : Prop :=
  b.disc.mode = false ∧ (f.z && b.gcLoader) = false ∧ leavesMenu f (afterZ f b) = false

/-- The four ways through a frame: the disc screen's, out at a refused Z, out to
the main menu, and to its end. -/
theorem gameselectInputs_cases (f : FrameInput) (b : Browser) :
    (b.disc.mode = true ∧ gameselectInputs f b = discInputs f b) ∨
    (b.disc.mode = false ∧ (f.z && b.gcLoader) = true ∧ gameselectInputs f b = frameHead f b) ∨
    (b.disc.mode = false ∧ (f.z && b.gcLoader) = false ∧ leavesMenu f (afterZ f b) = true ∧
      gameselectInputs f b = afterZ f b) ∨
    (reachesStart f b ∧ gameselectInputs f b = menuMoves f (pressStart f (afterA f b))) := by
  have hgc : (frameHead f b).gcLoader = b.gcLoader := by
    simp only [frameHead, submenuTransition, sampleCover]
    split <;> split <;> split <;> first | rfl | (split <;> rfl)
  rw [gameselectInputs]
  cases hm : b.disc.mode with
  | true => exact .inl ⟨rfl, rfl⟩
  | false =>
    right
    simp only [Bool.false_eq_true, if_false, hgc]
    split
    · rename_i hrefuse
      exact .inl ⟨trivial, hrefuse, rfl⟩
    · rename_i hrefuse
      right
      have hz := Bool.eq_false_iff.mpr hrefuse
      split
      · rename_i hleave
        exact .inl ⟨trivial, hz, hleave, rfl⟩
      · rename_i hleave
        exact .inr ⟨⟨hm, hz, Bool.eq_false_iff.mpr hleave⟩, rfl⟩

theorem gameselectInputs_reaches {f : FrameInput} {b : Browser} (hr : reachesStart f b) :
    gameselectInputs f b = menuMoves f (pressStart f (afterA f b)) := by
  obtain ⟨hm, hgc, hleave⟩ := hr
  obtain ⟨h, -⟩ | ⟨-, h, -⟩ | ⟨-, -, h, -⟩ | ⟨-, heq⟩ := gameselectInputs_cases f b
  · simp [hm] at h
  · simp [hgc] at h
  · simp [hleave] at h
  · exact heq

/-- What each block up to START keeps holds there. -/
theorem afterA_inv (P : Browser → Prop) {f : FrameInput} {b : Browser} (hr : reachesStart f b)
    (hhead : b.disc.mode = false → P (frameHead f b))
    (hz : b.disc.mode = false → (f.z && b.gcLoader) = false → P (frameHead f b) → P (afterZ f b))
    (hb : reachesStart f b → P (afterZ f b) → P (afterB f b))
    (ha : reachesStart f b → P (afterB f b) → P (afterA f b)) : P (afterA f b) :=
  ha hr (hb hr (hz hr.1 hr.2.1 (hhead hr.1)))

/-- What each block keeps, a frame keeps. -/
theorem gameselectInputs_inv (P : Browser → Prop) {f : FrameInput} {b : Browser}
    (hdisc : b.disc.mode = true → P (discInputs f b))
    (hhead : b.disc.mode = false → P (frameHead f b))
    (hz : b.disc.mode = false → (f.z && b.gcLoader) = false → P (frameHead f b) → P (afterZ f b))
    (hb : reachesStart f b → P (afterZ f b) → P (afterB f b))
    (ha : reachesStart f b → P (afterB f b) → P (afterA f b))
    (hend : ∀ b', P b' → P (menuMoves f (pressStart f b'))) : P (gameselectInputs f b) := by
  obtain ⟨hm, heq⟩ | ⟨hm, -, heq⟩ | ⟨hm, hgc, -, heq⟩ | ⟨hr, heq⟩ := gameselectInputs_cases f b <;> rw [heq]
  · exact hdisc hm
  · exact hhead hm
  · exact hz hm hgc (hhead hm)
  · exact hend _ (afterA_inv P hr hhead hz hb ha)

/-- The head of a frame takes the jump; of the rest only the cover sample and
the transition change. -/
theorem frameHead_eq (f : FrameInput) (b : Browser) : ∃ lidOpened inTransition customAlpha originalAlpha,
    frameHead f b = { b with
      games := b.games.applyPending
      disc := { b.disc with lidOpened := lidOpened }
      inTransition := inTransition
      customAlpha := customAlpha
      originalAlpha := originalAlpha } := by
  have hcover : ∃ lidOpened, sampleCover f b = { b with disc := { b.disc with lidOpened := lidOpened } } := by
    rw [sampleCover]
    split
    · exact ⟨true, rfl⟩
    · exact ⟨b.disc.lidOpened, rfl⟩
  obtain ⟨lidOpened, hcover⟩ := hcover
  simp only [frameHead, hcover, submenuTransition]
  split <;> split
  · split <;> exact ⟨_, _, _, _, rfl⟩
  · exact ⟨_, _, _, _, rfl⟩
  · split <;> exact ⟨_, _, _, _, rfl⟩
  · exact ⟨_, _, _, _, rfl⟩

theorem pressZ_cases (f : FrameInput) (b : Browser) :
    (f.z = false ∧ pressZ f b = b) ∨
    (f.z = true ∧ pressZ f b =
      { b with
        games := gmDeinitThread f.worker b.games
        disc := { b.disc with
          banner := discBannerStart b.disc.banner
          state := .reading
          reading := true
          lidOpened := false
          mode := true } }) := by
  rw [pressZ]
  split
  · rename_i hz
    exact .inr ⟨hz, rfl⟩
  · rename_i hz
    exact .inl ⟨Bool.eq_false_iff.mpr hz, rfl⟩

/-- Whether B leaves the folder. -/
def leavesFolder (f : FrameInput) (b : Browser) : Prop :=
  f.b = true ∧ b.inTransition = false ∧ b.submenu = .loader

theorem pressB_cases (f : FrameInput) (b : Browser) :
    (¬ leavesFolder f b ∧ pressB f b = b) ∨
    (b.submenu = .start ∧ pressB f b = { b with inTransition := true, submenu := .loader }) ∨
    (leavesFolder f b ∧ pressB f b =
      { b with games := gmStartThread (some dotdot) (gmDeinitThread f.worker b.games) }) := by
  rw [pressB]
  split
  · rename_i hb
    simp only [Bool.and_eq_true, Bool.not_eq_true'] at hb
    cases hs : b.submenu with
    | start => exact .inr (.inl ⟨rfl, rfl⟩)
    | loader => exact .inr (.inr ⟨⟨hb.1, hb.2, hs⟩, rfl⟩)
  · rename_i hb
    refine .inl ⟨fun hl => hb ?_, rfl⟩
    simp [hl.1, hl.2.1]

/-- The entry A acts on this frame, if any. -/
def actsOn (f : FrameInput) (b : Browser) (e : FileEntry) : Prop :=
  f.a = true ∧ b.submenu = .loader ∧ b.pressedEntry = some e

/-- A is pressed on the entry under the cursor. -/
theorem actsOn_slot {f : FrameInput} {b : Browser} {e : FileEntry} (h : actsOn f b e) :
    b.games.entryAt b.games.grid.selectedSlot = some e ∧
      b.games.ld.entries[b.games.grid.selectedSlot.toNat]? = some e := by
  obtain ⟨-, -, he⟩ := h
  rw [Browser.pressedEntry] at he
  split at he
  · refine ⟨he, ?_⟩
    rw [Games.entryAt] at he
    split at he
    · cases he
    · exact he
  · cases he

theorem pressA_cases (f : FrameInput) (b : Browser) :
    ((∀ e, ¬ actsOn f b e) ∧ pressA f b = b) ∨
    ∃ e, actsOn f b e ∧
      ((e.type = .directory ∧ pressA f b =
          { b with games := gmStartThread (some (e.path ++ [slash])) (gmDeinitThread f.worker b.games) }) ∨
        (e.type ≠ .directory ∧ (e.type ≠ .game ∨ b.disableMcp = true) ∧ pressA f b =
          { b with inTransition := true, submenu := .start, opened := some e }) ∨
        (e.type = .game ∧ b.disableMcp = false ∧ pressA f b =
          { b with
            inTransition := true
            submenu := .start
            opened := some e
            mcpSelected := some ⟨b.games.listNo, b.games.grid.selectedSlot.toNat⟩
            confirmedGame := some e })) := by
  rw [pressA]
  split
  · rename_i ha
    simp only [Bool.and_eq_true, decide_eq_true_eq] at ha
    cases he : b.pressedEntry with
    | none =>
      refine .inl ⟨fun e hact => ?_, rfl⟩
      rw [hact.2.2] at he
      cases he
    | some e =>
      refine .inr ⟨e, ⟨ha.1, ha.2, he⟩, ?_⟩
      dsimp only
      split
      · rename_i hdir
        exact .inl ⟨hdir, rfl⟩
      · rename_i hdir
        split
        · rename_i hgame
          cases hm : b.disableMcp with
          | true => exact .inr (.inl ⟨hdir, .inr rfl, by simp [mcpSetGameid]⟩)
          | false => exact .inr (.inr ⟨hgame, rfl, by simp [mcpSetGameid]⟩)
        · rename_i hgame
          exact .inr (.inl ⟨hdir, .inl hgame, rfl⟩)
  · rename_i ha
    refine .inl ⟨fun e hact => ha ?_, rfl⟩
    simp [hact.1, hact.2.1]

theorem pressStart_eq (f : FrameInput) (b : Browser) : ∃ boot, pressStart f b = { b with boot := boot } := by
  rw [pressStart]
  split
  · split
    · exact ⟨b.boot, rfl⟩
    · split
      · exact ⟨_, rfl⟩
      · exact ⟨b.boot, rfl⟩
  · exact ⟨b.boot, rfl⟩

/-- The d-pad scrolls: the cursor, the window and the banners it loads. -/
structure Scrolled (g g' : Games) : Prop where
  eq : g' = { g with ld := g'.ld, grid := g'.grid }
  entries : Kept g.ld.entries g'.ld.entries
  length : g'.ld.entries.length = g.ld.entries.length
  columns : g'.grid.columnsPerLine = g.grid.columnsPerLine
  lines : g'.grid.numberOfLines = g.grid.numberOfLines

theorem Scrolled.refl (g : Games) : Scrolled g g := ⟨rfl, .refl _, rfl, rfl, rfl⟩

theorem Scrolled.trans {g g' g'' : Games} (h : Scrolled g g') (h' : Scrolled g' g'') : Scrolled g g'' := by
  refine ⟨?_, h.entries.trans h'.entries, h'.length.trans h.length, h'.columns.trans h.columns,
    h'.lines.trans h.lines⟩
  rw [h'.eq, h.eq]

theorem scrollTo_scrolled (g : Games) (fetch : Nat → Option Fetched) (top slot : Int) (down : Bool) :
    Scrolled g (g.scrollTo fetch top slot down) := by
  obtain ⟨hkept, hlen⟩ := gmLineChanged_kept g.grid.columnsPerLine fetch g.grid.numberOfLines top.toNat down g.ld
  exact ⟨rfl, hkept, hlen, rfl, rfl⟩

theorem cursorTo_scrolled (g : Games) (slot : Int) :
    Scrolled g { g with grid := { g.grid with selectedSlot := slot } } := ⟨rfl, .refl _, rfl, rfl, rfl⟩

theorem moveRight_scrolled (g : Games) : Scrolled g (moveRight g) := by
  rw [moveRight]
  split
  · exact .refl g
  · exact cursorTo_scrolled g _

theorem moveLeft_scrolled (g : Games) : Scrolled g (moveLeft g) := by
  rw [moveLeft]
  split
  · exact .refl g
  · exact cursorTo_scrolled g _

theorem moveDown_scrolled (dispatch : Bool) (fetch : Nat → Option Fetched) (g : Games) :
    Scrolled g (moveDown dispatch fetch g) := by
  simp only [moveDown]
  split
  · exact .refl g
  · split
    · split
      · exact scrollTo_scrolled ..
      · exact .refl g
    · exact cursorTo_scrolled g _

theorem moveUp_scrolled (dispatch : Bool) (fetch : Nat → Option Fetched) (g : Games) :
    Scrolled g (moveUp dispatch fetch g) := by
  simp only [moveUp]
  split
  · exact .refl g
  · split
    · split
      · exact scrollTo_scrolled ..
      · exact .refl g
    · exact cursorTo_scrolled g _

/-- What each direction keeps, the d-pad keeps: where the DOWN and the UP
handler start, and at the end. -/
theorem movesOf_inv (P : Games → Prop) (hright : ∀ g, P g → P (moveRight g)) (hleft : ∀ g, P g → P (moveLeft g))
    (hdown : ∀ dispatch fetch g, P g → P (moveDown dispatch fetch g))
    (hup : ∀ dispatch fetch g, P g → P (moveUp dispatch fetch g)) (f : FrameInput) {g : Games} (h : P g) :
    P (beforeDown f g) ∧ P (beforeUp f g) ∧ P (movesOf f g) := by
  have hif : ∀ (c : Bool) (m : Games → Games), (∀ g, P g → P (m g)) → ∀ g, P g → P (if c then m g else g) := by
    intro c m hm g hg
    split
    · exact hm g hg
    · exact hg
  have h1 : P (beforeDown f g) := hif f.left _ hleft _ (hif f.right _ hright g h)
  have h2 : P (beforeUp f g) := hif f.down _ (hdown f.dispatchDown f.fetch) _ h1
  exact ⟨h1, h2, hif f.up _ (hup f.dispatchUp f.fetch) _ h2⟩

theorem movesOf_scrolled (f : FrameInput) (g : Games) : Scrolled g (movesOf f g) := by
  refine (movesOf_inv (Scrolled g) ?_ ?_ ?_ ?_ f (.refl g)).2.2
  · exact fun g' h => h.trans (moveRight_scrolled g')
  · exact fun g' h => h.trans (moveLeft_scrolled g')
  · exact fun dispatch fetch g' h => h.trans (moveDown_scrolled dispatch fetch g')
  · exact fun dispatch fetch g' h => h.trans (moveUp_scrolled dispatch fetch g')

/-- START and the d-pad change what is to boot, or the scroll. -/
theorem frameEnd_eq (f : FrameInput) (b : Browser) : ∃ boot games,
    menuMoves f (pressStart f b) = { b with boot := boot, games := games } ∧ Scrolled b.games games ∧
      (b.submenu = .start → games = b.games) := by
  obtain ⟨boot, hboot⟩ := pressStart_eq f b
  rw [hboot]
  cases hs : b.submenu with
  | loader =>
    refine ⟨boot, movesOf f b.games, by simp only [menuMoves], movesOf_scrolled f b.games, ?_⟩
    intro h
    cases h
  | start => exact ⟨boot, b.games, by simp only [menuMoves], .refl _, fun _ => rfl⟩

/-! ## The disc screen, case by case -/

/-- B leaves the disc screen with the read in flight. -/
def cancelsRead (f : FrameInput) (b : Browser) : Prop :=
  f.start = false ∧ f.b = true ∧ b.disc.reading = true

theorem discInputs_cases (f : FrameInput) (b : Browser) :
    (∃ boot, discInputs f b = { b with disc := { b.disc with startPassthrough := boot } }) ∨
    (cancelsRead f b ∧ discInputs f b =
      { b with
        games := restartScan b.games
        disc := { b.disc with
          banner := discBannerCancel b.disc.banner
          reading := false
          state := .noDisc
          lidOpened := false
          lidFrames := 0
          mode := false
          startPassthrough := false } }) ∨
    (b.disc.reading = false ∧ discInputs f b =
      { b with
        disc := { b.disc with lidOpened := false, lidFrames := 0, mode := false, startPassthrough := false } }) := by
  rw [discInputs]
  split
  · split
    · exact .inl ⟨b.disc.startPassthrough, rfl⟩
    · exact .inl ⟨true, rfl⟩
  · rename_i hs
    split
    · rename_i hb
      cases hr : b.disc.reading with
      | true => exact .inr (.inl ⟨⟨Bool.eq_false_iff.mpr hs, hb, hr⟩, rfl⟩)
      | false => exact .inr (.inr ⟨rfl, rfl⟩)
    · exact .inl ⟨b.disc.startPassthrough, rfl⟩

/-- The poll of this tick ends the read. -/
def endsRead (drive : DiAnswer) (b : Browser) : Prop :=
  b.disc.reading = true ∧ (discBannerPoll drive b.disc.banner).1 ≠ 0

/-- This tick sees the lid closed after it was opened. -/
def rereadsDisc (coverOpen : Bool) (b : Browser) : Prop :=
  b.disc.reading = false ∧ coverOpen = false ∧ b.disc.lidOpened = true

theorem stockDiscTick_cases (drive : DiAnswer) (coverOpen : Bool) (worker : Nat → WorkerAnswer) (b : Browser) :
    (b.disc.reading = true ∧ (discBannerPoll drive b.disc.banner).1 = 0 ∧
      stockDiscTick drive coverOpen worker b =
        { b with disc := { b.disc with banner := (discBannerPoll drive b.disc.banner).2 } }) ∨
    (endsRead drive b ∧ ∃ state, stockDiscTick drive coverOpen worker b =
      { b with
        games := restartScan b.games
        disc := { b.disc with
          banner := (discBannerPoll drive b.disc.banner).2
          state := state
          reading := false } }) ∨
    (b.disc.reading = false ∧ ∃ lidOpened lidFrames, stockDiscTick drive coverOpen worker b =
      { b with disc := { b.disc with lidOpened := lidOpened, lidFrames := lidFrames } }) ∨
    (rereadsDisc coverOpen b ∧ stockDiscTick drive coverOpen worker b =
      { b with
        games := gmDeinitThread worker b.games
        disc := { b.disc with
          banner := discBannerStart b.disc.banner
          state := .reading
          reading := true
          lidOpened := false
          lidFrames := 0 } }) := by
  simp only [stockDiscTick]
  cases hr : b.disc.reading with
  | true =>
    simp only [if_true]
    by_cases hpos : 0 < (discBannerPoll drive b.disc.banner).1
    · rw [if_pos hpos]
      exact .inr (.inl ⟨⟨hr, by omega⟩, .ready, rfl⟩)
    · rw [if_neg hpos]
      by_cases hneg : (discBannerPoll drive b.disc.banner).1 < 0
      · rw [if_pos hneg]
        exact .inr (.inl ⟨⟨hr, by omega⟩, .noDisc, rfl⟩)
      · rw [if_neg hneg]
        exact .inl ⟨trivial, by omega, rfl⟩
  | false =>
    right; right
    simp only [Bool.false_eq_true, if_false]
    split
    · exact .inl ⟨trivial, _, _, rfl⟩
    · rename_i hopen
      split
      · rename_i hlid
        exact .inr ⟨⟨hr, Bool.eq_false_iff.mpr hopen, hlid⟩, rfl⟩
      · exact .inl ⟨trivial, _, _, rfl⟩

/-! ## Wherever the browser is -/

/-- Whether this frame takes a jump, and to which slot. -/
def Games.jumps (g : Games) (slot : Nat) : Prop := g.pending = slot ∧ slot < g.ld.entries.length

instance (g : Games) (slot : Nat) : Decidable (g.jumps slot) := inferInstanceAs (Decidable (_ ∧ _))

theorem applyPending_cases (g : Games) :
    (g.pending < 0 ∧ g.applyPending = g) ∨
    (0 ≤ g.pending ∧ (∀ slot, ¬ g.jumps slot) ∧ g.applyPending = { g with pending := -1 }) ∨
    ∃ slot, g.jumps slot ∧ g.applyPending =
      { g with
        pending := -1
        grid := { g.grid with
          topLineNum := windowStart g.grid.columnsPerLine g.grid.numberOfLines slot
          selectedSlot := slot } } := by
  simp only [Games.applyPending, gmApplyPendingLastPlayed, Games.jumps]
  by_cases hp : g.pending < 0
  · exact .inl ⟨hp, by simp only [if_pos hp]⟩
  · right
    obtain ⟨slot, hslot⟩ := Int.eq_ofNat_of_zero_le (Int.not_lt.mp hp)
    have hns : ¬ (slot : Int) < 0 := by omega
    simp only [hslot, if_neg hns, gridJumpToSlot]
    by_cases hlen : (g.ld.entries.length : Int) ≤ slot
    · refine .inl ⟨Int.natCast_nonneg _, fun s hs => ?_, by simp only [if_pos hlen]⟩
      omega
    · refine .inr ⟨slot, ⟨rfl, by omega⟩, ?_⟩
      simp only [if_neg hlen, Int.toNat_natCast]

theorem applyPending_eq (g : Games) : ∃ pending top slot, g.applyPending =
    { g with pending := pending, grid := { g.grid with topLineNum := top, selectedSlot := slot } } := by
  obtain ⟨-, heq⟩ | ⟨-, -, heq⟩ | ⟨slot, -, heq⟩ := applyPending_cases g
  · exact ⟨g.pending, g.grid.topLineNum, g.grid.selectedSlot, heq⟩
  · exact ⟨-1, g.grid.topLineNum, g.grid.selectedSlot, heq⟩
  · exact ⟨_, _, _, heq⟩

theorem Games.Base.scrolls {g g' : Games} (h : g.Base) (hs : Scrolled g g') : g'.Base := by
  have hlen := hs.length
  have hentries := hs.entries
  rw [hs.eq]
  refine ⟨h.running, ?_, fun he => ?_, h.unfinished, h.uncut⟩
  · show g.backingCount ≤ g'.ld.entries.length
    rw [hlen]
    exact h.backing
  · apply List.length_eq_zero_iff.mp
    rw [hlen, h.empty he]
    rfl

/-- Every step of the worker that the menu waits for meets `G`. -/
def Games.WaitMeets (G : Games → WorkerAnswer → Prop) (worker : Nat → WorkerAnswer) (g : Games) : Prop :=
  g.running = true → Steps.Driven (workerStep true) stepsLeft worker G g

/-- Every step of the worker within this step of the system meets `G`: its own,
and those that Z, B, A on a folder and a closed lid wait for. -/
def WorkerMeets (G : Games → WorkerAnswer → Prop) (b : Browser) : BrowserLabel → Prop
  | .worker answer => G b.games answer
  | .frame f =>
    b.disc.mode = false → (f.z && b.gcLoader) = false →
      (f.z = true → (frameHead f b).games.WaitMeets G f.worker) ∧
      (reachesStart f b →
        (leavesFolder f (afterZ f b) → (afterZ f b).games.WaitMeets G f.worker) ∧
        ∀ e, actsOn f (afterB f b) e → e.type = .directory → (afterB f b).games.WaitMeets G f.worker)
  | .tick _ coverOpen worker =>
    b.disc.mode = true → rereadsDisc coverOpen b → b.games.WaitMeets G worker
  | .menuAlpha _ => True
  | .cardMessage => True

theorem waitMeets_true (g : Games) (worker : Nat → WorkerAnswer) : g.WaitMeets (fun _ _ => True) worker :=
  fun _ => Steps.guarded_true _

theorem workerMeets_true (b : Browser) (l : BrowserLabel) : WorkerMeets (fun _ _ => True) b l := by
  cases l with
  | worker answer => trivial
  | frame f =>
    exact fun _ _ => ⟨fun _ => waitMeets_true _ _,
      fun _ => ⟨fun _ => waitMeets_true _ _, fun _ _ _ => waitMeets_true _ _⟩⟩
  | tick drive coverOpen worker => exact fun _ _ => waitMeets_true _ _
  | menuAlpha back => trivial
  | cardMessage => trivial

/-- A step in which the menu waits for nothing. -/
def Unwaited (G : Games → WorkerAnswer → Prop) (b : Browser) : BrowserLabel → Prop
  | .worker answer => G b.games answer
  | .frame f => f.z = false ∧ f.b = false ∧ f.a = false
  | _ => False

instance (G : Games → WorkerAnswer → Prop) [∀ g a, Decidable (G g a)] (b : Browser) :
    ∀ l, Decidable (Unwaited G b l)
  | .worker answer => inferInstanceAs (Decidable (G b.games answer))
  | .frame f => inferInstanceAs (Decidable (f.z = false ∧ f.b = false ∧ f.a = false))
  | .tick _ _ _ | .menuAlpha _ | .cardMessage => isFalse id

theorem workerMeets_of_unwaited {G : Games → WorkerAnswer → Prop} {b : Browser} {l : BrowserLabel}
    (h : Unwaited G b l) : WorkerMeets G b l := by
  cases l with
  | worker answer => exact h
  | frame f =>
    obtain ⟨hz, hb, ha⟩ := h
    refine fun _ _ => ⟨fun hz' => ?_, fun _ => ⟨fun hlf => ?_, fun e hact => ?_⟩⟩
    · simp [hz] at hz'
    · simp [leavesFolder, hb] at hlf
    · simp [actsOn, ha] at hact
  | tick | menuAlpha | cardMessage => exact h.elim

/-- What every access to the list keeps: the worker's steps that meet `G`, a
start of it, the jump and the d-pad. -/
structure GamesInv (G : Games → WorkerAnswer → Prop) (P : Games → Prop) : Prop where
  step : ∀ held g a, P g → G g a → P (workerStep held g a)
  start : ∀ target g, P g → P (gmStartThread target g)
  jump : ∀ g, P g → P g.applyPending
  move : ∀ f g, P g → P (movesOf f g)

namespace GamesInv

variable {G : Games → WorkerAnswer → Prop} {P : Games → Prop}

theorem wait (hP : GamesInv G P) {g : Games} {worker : Nat → WorkerAnswer} (h : P g) (hw : g.WaitMeets G worker) :
    P (gmDeinitThread worker g) := gmDeinitThread_inv P (hP.step true) h hw

theorem frameHead (hP : GamesInv G P) (f : FrameInput) {b : Browser} (h : P b.games) : P (frameHead f b).games := by
  obtain ⟨_, _, _, _, heq⟩ := frameHead_eq f b
  rw [heq]
  exact hP.jump _ h

theorem pressZ (hP : GamesInv G P) {f : FrameInput} {b : Browser} (h : P b.games)
    (hw : f.z = true → b.games.WaitMeets G f.worker) : P (pressZ f b).games := by
  obtain ⟨-, heq⟩ | ⟨hz, heq⟩ := pressZ_cases f b <;> rw [heq]
  · exact h
  · exact hP.wait h (hw hz)

theorem pressB (hP : GamesInv G P) {f : FrameInput} {b : Browser} (h : P b.games)
    (hw : leavesFolder f b → b.games.WaitMeets G f.worker) : P (pressB f b).games := by
  obtain ⟨-, heq⟩ | ⟨-, heq⟩ | ⟨hlf, heq⟩ := pressB_cases f b <;> rw [heq]
  · exact h
  · exact h
  · exact hP.start _ _ (hP.wait h (hw hlf))

theorem pressA (hP : GamesInv G P) {f : FrameInput} {b : Browser} (h : P b.games)
    (hw : ∀ e, actsOn f b e → e.type = .directory → b.games.WaitMeets G f.worker) : P (pressA f b).games := by
  obtain ⟨-, heq⟩ | ⟨e, hact, ⟨hdir, heq⟩ | ⟨-, -, heq⟩ | ⟨-, -, heq⟩⟩ := pressA_cases f b <;> rw [heq]
  · exact h
  · exact hP.start _ _ (hP.wait h (hw e hact hdir))
  · exact h
  · exact h

/-- Up to START and the d-pad. -/
theorem afterA (hP : GamesInv G P) {f : FrameInput} {b : Browser} (h : P b.games)
    (hG : WorkerMeets G b (.frame f)) (hr : reachesStart f b) : P (afterA f b).games := by
  obtain ⟨hz, hrest⟩ := hG hr.1 hr.2.1
  obtain ⟨hb, ha⟩ := hrest hr
  exact hP.pressA (hP.pressB (hP.pressZ (hP.frameHead f h) hz) hb) ha

/-- What every access to the list keeps, the whole system keeps. -/
theorem browserStep (hP : GamesInv G P) {b : Browser} {l : BrowserLabel} (h : P b.games) (hG : WorkerMeets G b l) :
    P (browserStep b l).games := by
  cases l with
  | worker answer => exact hP.step false b.games answer h hG
  | frame f =>
    apply gameselectInputs_inv fun b => P b.games
    · intro _
      obtain ⟨boot, heq⟩ | ⟨-, heq⟩ | ⟨-, heq⟩ := discInputs_cases f b <;> rw [heq]
      · exact h
      · exact hP.start _ _ h
      · exact h
    · exact fun _ => hP.frameHead f h
    · exact fun hm hgc h1 => hP.pressZ h1 (hG hm hgc).1
    · exact fun hr h2 => hP.pressB h2 ((hG hr.1 hr.2.1).2 hr).1
    · exact fun hr h3 => hP.pressA h3 ((hG hr.1 hr.2.1).2 hr).2
    · intro b' h4
      obtain ⟨boot, heq⟩ := pressStart_eq f b'
      rw [heq, menuMoves]
      split
      · exact hP.move f _ h4
      · exact h4
  | tick drive coverOpen worker =>
    simp only [Cubiboot.browserStep]
    split
    · rename_i hm
      rcases stockDiscTick_cases drive coverOpen worker b with ⟨-, -, heq⟩ | ⟨-, _, heq⟩ | ⟨-, _, _, heq⟩ |
        ⟨hread, heq⟩ <;> rw [heq]
      · exact h
      · exact hP.start _ _ h
      · exact h
      · exact hP.wait h (hG hm hread)
    · exact h
  | menuAlpha back =>
    simp only [Cubiboot.browserStep, menuAlphaSetup]
    split <;> exact h
  | cardMessage => exact h

end GamesInv

theorem base_gamesInv : GamesInv (fun _ _ => True) Games.Base where
  step := fun held g a h _ => workerStep_base held g a h
  start := fun target g h => gmStartThread_base h target
  jump := by
    intro g h
    obtain ⟨_, _, _, heq⟩ := applyPending_eq g
    rw [heq]
    exact ⟨h.running, h.backing, h.empty, h.unfinished, h.uncut⟩
  move := fun f g h => h.scrolls (movesOf_scrolled f g)

theorem browserStep_base (b : Browser) (l : BrowserLabel) (h : b.games.Base) : (browserStep b l).games.Base :=
  base_gamesInv.browserStep h (workerMeets_true b l)

theorem coldBoot_base (o : MenuOptions) : (Browser.coldBoot o).games.Base := by
  have h : (Games.powerOn o).Base :=
    ⟨by simp [Games.powerOn], Nat.le_refl _, fun _ => rfl, fun hw => absurd rfl hw, fun _ => rfl⟩
  exact gmStartThread_base h none

/-! ## Sample inputs -/

/-- A worker that is told of nothing but a folder to start in. -/
def quietAnswer : WorkerAnswer :=
  ⟨cstr "/games", [], none, false, ⟨plainInfo, none, 0, some plainBanner⟩, fun _ => some plainBanner⟩

/-- A frame in which nothing is pressed. -/
def quietFrame : FrameInput where
  a := false
  b := false
  z := false
  start := false
  right := false
  left := false
  down := false
  up := false
  coverOpen := false
  dispatchDown := true
  dispatchUp := true
  canBoot := fun _ => true
  fetch := fun _ => some plainBanner
  worker := fun _ => quietAnswer

/-- Eight columns, the last game remembered, an optical drive, NTSC. -/
def plainOptions : MenuOptions := ⟨.squareIcons, true, false, 14, false⟩

/-- Two games in the root, the second the last played. -/
def gamePair : WorkerAnswer :=
  { quietAnswer with
    coldBootFolder := [slash]
    listing := [numberedGame 0, numberedGame 1]
    lastPlayed := some (numberedGame 1).path }

/-- The same two games in a folder of their own. -/
def gamePairBelow : WorkerAnswer :=
  let below := fun i => { numberedGame i with path := cstr "/games" ++ (numberedGame i).path }
  { quietAnswer with listing := [below 0, below 1], lastPlayed := some (below 1).path }

end Cubiboot
