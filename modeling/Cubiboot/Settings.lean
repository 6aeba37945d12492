import Cubiboot.Entry
import Cubiboot.Grid

/-
  The settings cubeboot hands to the menu, as `load_settings` takes them from
  `config.ini`.

  The file is given by what `ini_get` finds under `[cubeboot]`; a random color by what
  `generate_random_color` returns for each key that asks for one.

  What is proved: `iniGetBool_switch` — a switch is 0 or 1, whatever the file says.

  Correspondence (C ↔ Lean):
    `sscanf`/`strtol` on digits    ↔ `scanNumber`, `Scanned.asUnsigned`
    `ini_get_bool`, `ini_get_color` ↔ `iniGetBool`, `iniGetColor`
    `settings_t`, `load_settings`  ↔ `Settings`, `loadSettings`
  What only the loader itself reads is left out: the default program, the buttons and
  the device order.
-/

set_option autoImplicit false

namespace Cubiboot

/-! ## Numbers -/

def isspace (c : UInt8) : Bool := c = 32 ∨ (9 ≤ c ∧ c ≤ 13)

/-- The value of a digit, 255 for what is none in any base. -/
def digitVal (c : UInt8) : Nat :=
  if 48 ≤ c ∧ c ≤ 57 then (c - 48).toNat
  else if 97 ≤ myTolower c ∧ myTolower c ≤ 102 then (myTolower c - 87).toNat
  else 255

structure Scanned where
  negative : Bool
  magnitude : Nat
  rest : Path

def skipSign : Path → Bool × Path
  | [] => (false, [])
  | c :: s => if c = 45 then (true, s) else if c = 43 then (false, s) else (false, c :: s)

/-- "0x" in front of a hexadecimal digit. -/
def skipHexMark (s : Path) : Path :=
  if s.take 1 = cstr "0" ∧ (s.drop 1).head?.map myTolower = some 120 ∧ ((s.drop 2).head?.any (digitVal · < 16)) then
    s.drop 2
  else s

def scanNumber (base : Nat) (s : Path) : Option Scanned :=
  let (negative, s) := skipSign (s.dropWhile isspace)
  let s := if base = 16 then skipHexMark s else s
  let digits := s.takeWhile (digitVal · < base)
  if digits = [] then none
  else some ⟨negative, digits.foldl (fun n c => base * n + digitVal c) 0, s.drop digits.length⟩

/-- `strtoul`: it saturates, and a sign negates. -/
def Scanned.asUnsigned (x : Scanned) : UInt32 :=
  if 2 ^ 32 ≤ x.magnitude then 0xFFFFFFFF
  else if x.negative then 0 - UInt32.ofNat x.magnitude else UInt32.ofNat x.magnitude

/-! ## Reading one key -/

def iniGetBool (raw : Option Path) (fallback : UInt32) : UInt32 :=
  match raw with
  | none => fallback
  | some raw =>
    if strcasecmpEq raw (cstr "on") ∨ strcasecmpEq raw (cstr "yes") ∨ strcasecmpEq raw (cstr "true") ∨
        raw = cstr "1" then 1
    else if strcasecmpEq raw (cstr "off") ∨ strcasecmpEq raw (cstr "no") ∨ strcasecmpEq raw (cstr "false") ∨
        raw = cstr "0" then 0
    else fallback

def cfgColorUnset : UInt32 := 0
def cfgColorRgb (rgb : UInt32) : UInt32 := 0x01000000 ||| (rgb &&& 0x00FFFFFF)
def cfgColorPalette (idx : UInt32) : UInt32 := 0x02000000 ||| (idx &&& 0x00FFFFFF)

def savePaletteNames : List Path :=
  [cstr "blue", cstr "green", cstr "yellow", cstr "orange", cstr "red", cstr "purple"]

def iniGetColor (random : UInt32) (raw : Option Path) (allowPalette : Bool) : UInt32 :=
  match raw with
  | none => cfgColorUnset
  | some raw =>
    if strcasecmpEq raw (cstr "random") then cfgColorRgb random
    else
      match if allowPalette then savePaletteNames.findIdx? (strcasecmpEq raw) else none with
      | some i => cfgColorPalette (UInt32.ofNat i)
      | none =>
        match scanNumber 16 raw with
        | none => cfgColorUnset
        | some x => cfgColorRgb x.asUnsigned

/-- `ini_sget` with "%u" into a variable that is 0. -/
def iniGetUnsigned (raw : Option Path) : UInt32 := ((raw.bind (scanNumber 10)).map Scanned.asUnsigned).getD 0

/-! ## The settings -/

structure Settings where
  cubeColor : UInt32 := 0
  themeColor : UInt32 := 0
  menuCubeColor : UInt32 := 0
  menuBoxColor : UInt32 := 0
  menuStartColor : UInt32 := 0
  cubeLogo : Option Path := none
  defaultFolder : Option Path := none
  swissOnDvdBoot : UInt32 := 0
  showWatermark : UInt32 := 0
  disableMcpSelect : UInt32 := 0
  rememberLastGame : UInt32 := 0
  progressiveEnabled : UInt32 := 0
  forceWidescreen : UInt32 := 0
  prebootDelayMs : UInt32 := 0
  postbootDelayMs : UInt32 := 0
  textScrollEnabled : UInt32 := 1
  textScrollDelayS : UInt32 := 2
  bigTitlesScrollSpeed : UInt32 := 10
  menuGridType : GridType := .smallBanners

/-- A number of seconds that is not negative and has nothing after it. -/
def scrollSecs (raw : Path) : Option UInt32 :=
  match scanNumber 10 raw with
  | none => none
  | some x =>
    if x.rest = [] ∧ (x.negative = false ∨ x.magnitude = 0) then some (UInt32.ofNat (min x.magnitude 600)) else none

/-- `text_scroll`: whether it is on, and the delay. -/
def textScroll (raw : Option Path) : UInt32 × UInt32 :=
  match raw with
  | none => (1, 2)
  | some raw =>
    match scrollSecs raw with
    | some secs => (1, secs)
    | none =>
      if strcasecmpEq raw (cstr "on") ∨ strcasecmpEq raw (cstr "yes") ∨ strcasecmpEq raw (cstr "true") then (1, 2)
      else if strcasecmpEq raw (cstr "off") ∨ strcasecmpEq raw (cstr "no") ∨ strcasecmpEq raw (cstr "false") then (0, 2)
      else (1, 2)

def gridTypeOf (raw : Option Path) : GridType :=
  match raw with
  | none => .smallBanners
  | some raw =>
    if raw = cstr "square_icons" then .squareIcons
    else if raw = cstr "banners" then .banners
    else .smallBanners

/-- `load_settings`, with no file or with what `ini_get` finds in it. -/
def loadSettings (random : String → UInt32) : Option (String → Option Path) → Settings
  | none => {}
  | some conf =>
    let scroll := textScroll (conf "text_scroll")
    let speed := iniGetUnsigned (conf "big_titles_scroll_speed")
    { cubeColor :=
        match conf "cube_color" with
        | none => 0
        | some raw =>
          if raw = cstr "random" then random "cube_color"
          else ((scanNumber 16 raw).map Scanned.asUnsigned).getD 0
      themeColor := iniGetColor (random "theme_color") (conf "theme_color") false
      menuCubeColor := iniGetColor (random "menu_cube_color") (conf "menu_cube_color") true
      menuBoxColor := iniGetColor (random "menu_box_color") (conf "menu_box_color") false
      menuStartColor := iniGetColor (random "menu_start_color") (conf "menu_start_color") false
      cubeLogo := conf "cube_logo"
      defaultFolder := conf "default_folder"
      swissOnDvdBoot := iniGetBool (conf "swiss_on_dvd_boot") 1
      progressiveEnabled := iniGetBool (conf "force_progressive") 0
      forceWidescreen := iniGetBool (conf "force_widescreen") 0
      prebootDelayMs := iniGetUnsigned (conf "preboot_delay_ms")
      postbootDelayMs := iniGetUnsigned (conf "postboot_delay_ms")
      textScrollEnabled := scroll.1
      textScrollDelayS := scroll.2
      bigTitlesScrollSpeed := if 1 ≤ speed ∧ speed ≤ 255 then speed else 10
      showWatermark := iniGetBool (conf "show_watermark") 0
      disableMcpSelect := iniGetBool (conf "disable_mcp_select") 0
      rememberLastGame := iniGetBool (conf "remember_last_game") 0
      menuGridType := gridTypeOf (conf "menu_grid_type") }

theorem iniGetBool_switch (raw : Option Path) {fallback : UInt32} (h : fallback = 0 ∨ fallback = 1) :
    iniGetBool raw fallback = 0 ∨ iniGetBool raw fallback = 1 := by
  cases raw with
  | none => exact h
  | some raw =>
    rw [iniGetBool]
    split
    · exact .inr rfl
    · split
      · exact .inl rfl
      · exact h

/-- The watermark is off or on. -/
theorem loadSettings_showWatermark (random : String → UInt32) (file : Option (String → Option Path)) :
    (loadSettings random file).showWatermark = 0 ∨ (loadSettings random file).showWatermark = 1 := by
  cases file with
  | none => exact .inl rfl
  | some conf => exact iniGetBool_switch _ (.inl rfl)

end Cubiboot
