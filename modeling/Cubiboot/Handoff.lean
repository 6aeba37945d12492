import Cubiboot.Elf
import Cubiboot.Settings

/-
  The settings handoff: the block of cubeboot's `main` that copies the settings
  into the patched menu's variables, each found by its symbol.

  Every value goes through one store of four bytes, and the two paths through
  `strcpy`. `menuVars` says what the patches declare: words, two buffers of 256
  bytes, and `show_watermark`, which is a single byte. A store there puts the top
  byte of the setting into the variable and the rest after it.

  What is proved:
    1. `copySettings_lay` — the block is the variables' writes laid in order.
    2. `handoff_iff` — the menu holds its settings and nothing else has changed
       exactly when `HandoffFits`: both paths fit their buffers, the watermark is off,
       and the three bytes after it hold nothing.

  The image with the symbols and the strings are taken as apart from the menu.

  Correspondence (C ↔ Lean):
    the variables of `main.c`, `theme.c`, `menu.c`, `grid.c`, … ↔ `menuVars`
    the arguments of `set_patch_value` ↔ `Handoff.firstVars`, `.watermarkVar`, `.laterVars`, `.deviceVars`
    `main` (copy settings into place)  ↔ `copySettings`
-/

set_option autoImplicit false

namespace Cubiboot

open Overlay

/-! ## The menu's variables -/

structure MenuVar where
  name : String
  size : Nat
  deriving DecidableEq

def maxFileName : Nat := 256

/-- What the patches declare, with the sizes of their types. -/
def menuVars : List MenuVar :=
  [⟨"start_passthrough_game", 4⟩, ⟨"cube_color", 4⟩, ⟨"force_progressive", 4⟩, ⟨"force_widescreen", 4⟩,
    ⟨"theme_color", 4⟩, ⟨"menu_cube_color", 4⟩, ⟨"menu_box_color", 4⟩, ⟨"menu_start_color", 4⟩,
    ⟨"swiss_on_dvd_boot", 4⟩, ⟨"disable_mcp_select", 4⟩, ⟨"remember_last_game", 4⟩, ⟨"show_watermark", 1⟩,
    ⟨"preboot_delay_ms", 4⟩, ⟨"postboot_delay_ms", 4⟩, ⟨"text_scroll_enabled", 4⟩, ⟨"text_scroll_delay_s", 4⟩,
    ⟨"title_scroll_step_frames", 4⟩, ⟨"menu_grid_type", 4⟩, ⟨"cube_logo_path", maxFileName⟩,
    ⟨"default_folder", maxFileName⟩, ⟨"is_running_dolphin", 4⟩, ⟨"emu_sd_device", 4⟩]

/-- `a` is one of the `size` bytes from the symbol on. -/
def SymTab.Within (tab : SymTab) (name : String) (size : Nat) (a : UInt32) : Prop :=
  (a - tab.getSymbolValue (cstr name)).toNat < size

/-- The symbols give every variable an address, and no two variables share a byte. -/
structure MenuLayout (tab : SymTab) : Prop where
  found : ∀ v ∈ menuVars, tab.getSymbolValue (cstr v.name) ≠ 0
  disjoint : menuVars.Pairwise fun u v => ∀ a, ¬ (tab.Within u.name u.size a ∧ tab.Within v.name v.size a)

/-! ## The handoff -/

def GridType.word : GridType → UInt32
  | .squareIcons => 0
  | .banners => 1
  | .smallBanners => 2

structure Handoff where
  settings : Settings
  forcePassthrough : UInt32
  isRunningDolphin : UInt32
  emuSdDevice : UInt32

variable (tab : SymTab) (h : Handoff)

def Handoff.firstVars : List (String × UInt32) :=
  [("start_passthrough_game", h.forcePassthrough), ("cube_color", h.settings.cubeColor),
    ("force_progressive", h.settings.progressiveEnabled), ("force_widescreen", h.settings.forceWidescreen),
    ("theme_color", h.settings.themeColor), ("menu_cube_color", h.settings.menuCubeColor),
    ("menu_box_color", h.settings.menuBoxColor), ("menu_start_color", h.settings.menuStartColor),
    ("swiss_on_dvd_boot", h.settings.swissOnDvdBoot), ("disable_mcp_select", h.settings.disableMcpSelect),
    ("remember_last_game", h.settings.rememberLastGame)]

def Handoff.watermarkVar : String × UInt32 := ("show_watermark", h.settings.showWatermark)

def Handoff.laterVars : List (String × UInt32) :=
  [("preboot_delay_ms", h.settings.prebootDelayMs), ("postboot_delay_ms", h.settings.postbootDelayMs),
    ("text_scroll_enabled", h.settings.textScrollEnabled), ("text_scroll_delay_s", h.settings.textScrollDelayS),
    ("title_scroll_step_frames", h.settings.bigTitlesScrollSpeed),
    ("menu_grid_type", h.settings.menuGridType.word)]

def Handoff.pathVars : List (String × Option Path) :=
  [("cube_logo_path", h.settings.cubeLogo), ("default_folder", h.settings.defaultFolder)]

def Handoff.deviceVars : List (String × UInt32) :=
  [("is_running_dolphin", h.isRunningDolphin), ("emu_sd_device", h.emuSdDevice)]

def SymTab.copyWord (m : DolMem) (x : String × UInt32) : DolMem := tab.setPatchValue m (cstr x.1) x.2

/-- A path is copied where it is configured and its symbol is found. -/
def SymTab.copyPath (m : DolMem) (x : String × Option Path) : DolMem :=
  let ptr := tab.getSymbolValue (cstr x.1)
  match x.2 with
  | none => m
  | some s => if ptr ≠ 0 then strcpyMem m ptr s else m

def copySettings (m : DolMem) : DolMem :=
  let m := (h.firstVars ++ h.watermarkVar :: h.laterVars).foldl tab.copyWord m
  let m := h.pathVars.foldl tab.copyPath m
  h.deviceVars.foldl tab.copyWord m

/-! ## What it is for -/

/-- The variables that are words. -/
def Handoff.wordVars : List (String × UInt32) := h.firstVars ++ h.laterVars ++ h.deviceVars

/-- Every variable reads back as configured, at the type it is declared with, a
configured path stands in its buffer with its NUL, and nothing else has changed. -/
structure MenuHolds (m m' : DolMem) : Prop where
  words : ∀ x ∈ h.wordVars, readU32 m' (tab.getSymbolValue (cstr x.1)) = x.2
  watermark : (m' (tab.getSymbolValue (cstr h.watermarkVar.1))).toNat = h.watermarkVar.2.toNat
  paths : ∀ x ∈ h.pathVars, ∀ s, x.2 = some s →
    s.length < maxFileName ∧ ∀ i, i ≤ s.length → m' (tab.getSymbolValue (cstr x.1) + UInt32.ofNat i) = cbyte s i
  frame : ∀ a, (∀ x ∈ h.wordVars, ¬ tab.Within x.1 4 a) → ¬ tab.Within h.watermarkVar.1 1 a →
    (∀ x ∈ h.pathVars, x.2 ≠ none → ¬ tab.Within x.1 maxFileName a) → m' a = m a

/-- The paths fit, the watermark is off, and the three bytes after it hold zero where they
belong to a word set before it, or to nothing that is set. -/
structure HandoffFits (m : DolMem) : Prop where
  short : ∀ x ∈ h.pathVars, ∀ s, x.2 = some s → s.length < maxFileName
  off : h.settings.showWatermark = 0
  before : ∀ a, tab.Within h.watermarkVar.1 4 a → ∀ x ∈ h.firstVars, tab.Within x.1 4 a →
    beByte x.2 (a - tab.getSymbolValue (cstr x.1)).toNat = 0
  outside : ∀ a, tab.Within h.watermarkVar.1 4 a → ¬ tab.Within h.watermarkVar.1 1 a →
    (∀ x ∈ h.wordVars, ¬ tab.Within x.1 4 a) →
    (∀ x ∈ h.pathVars, x.2 ≠ none → ¬ tab.Within x.1 maxFileName a) → m a = 0

/-! ## The block as writes -/

def SymTab.wordWrite (x : String × UInt32) : UInt32 → Option UInt8 :=
  spanWrite (tab.getSymbolValue (cstr x.1)) 4 (beByte x.2)

def SymTab.pathWrite (x : String × Option Path) : UInt32 → Option UInt8 :=
  match x.2 with
  | none => fun _ => none
  | some s => spanWrite (tab.getSymbolValue (cstr x.1)) (s.length + 1) (cbyte s)

/-- The variables set before the watermark, each with its write. -/
def Handoff.before : List (MenuVar × (UInt32 → Option UInt8)) :=
  h.firstVars.map fun x => (⟨x.1, 4⟩, tab.wordWrite x)

/-- Those set after it. -/
def Handoff.after : List (MenuVar × (UInt32 → Option UInt8)) :=
  (h.laterVars.map fun x => (⟨x.1, 4⟩, tab.wordWrite x)) ++
    (h.pathVars.map fun x => (⟨x.1, maxFileName⟩, tab.pathWrite x)) ++
    h.deviceVars.map fun x => (⟨x.1, 4⟩, tab.wordWrite x)

def Handoff.writes : List (UInt32 → Option UInt8) :=
  (h.before tab).map Prod.snd ++ tab.wordWrite h.watermarkVar :: (h.after tab).map Prod.snd

theorem menuVars_split :
    menuVars = ((h.before tab).map Prod.fst ++ [⟨h.watermarkVar.1, 1⟩]) ++ (h.after tab).map Prod.fst :=
  rfl

variable {tab h}

theorem copyWords_lay : ∀ (xs : List (String × UInt32)) (m : DolMem),
    (∀ x ∈ xs, tab.getSymbolValue (cstr x.1) ≠ 0) → xs.foldl tab.copyWord m = layAll m (xs.map tab.wordWrite)
  | [], _, _ => rfl
  | x :: xs, m, hfound => by
    have hx : tab.copyWord m x = lay m (tab.wordWrite x) := by
      rw [SymTab.copyWord, SymTab.setPatchValue, SymTab.wordWrite, ← storeU32_lay]
      exact if_pos (hfound x List.mem_cons_self)
    rw [List.foldl_cons, hx]
    exact copyWords_lay xs _ fun y hy => hfound y (List.mem_cons_of_mem x hy)

theorem copyPaths_lay : ∀ (xs : List (String × Option Path)) (m : DolMem),
    (∀ x ∈ xs, tab.getSymbolValue (cstr x.1) ≠ 0) → (∀ x ∈ xs, ∀ s, x.2 = some s → s.length < maxFileName) →
      xs.foldl tab.copyPath m = layAll m (xs.map tab.pathWrite)
  | [], _, _, _ => rfl
  | x :: xs, m, hfound, hshort => by
    have hx : tab.copyPath m x = lay m (tab.pathWrite x) := by
      have hptr := hfound x List.mem_cons_self
      rw [SymTab.copyPath, SymTab.pathWrite]
      cases hs : x.2 with
      | none => rfl
      | some s =>
        have hlen := hshort x List.mem_cons_self s hs
        have h256 : maxFileName = 256 := rfl
        rw [← strcpyMem_lay s m _ (by omega)]
        exact if_pos hptr
    rw [List.foldl_cons, hx]
    apply copyPaths_lay xs
    · exact fun y hy => hfound y (List.mem_cons_of_mem x hy)
    · exact fun y hy => hshort y (List.mem_cons_of_mem x hy)

/-- Both paths fit their buffers. -/
def Handoff.Short (h : Handoff) : Prop := ∀ x ∈ h.pathVars, ∀ s, x.2 = some s → s.length < maxFileName

theorem copySettings_lay (hl : MenuLayout tab) (hshort : h.Short) (m : DolMem) :
    copySettings tab h m = layAll m (h.writes tab) := by
  have hfound : ∀ name, name ∈ menuVars.map MenuVar.name → tab.getSymbolValue (cstr name) ≠ 0 := by
    intro name hname
    obtain ⟨v, hv, rfl⟩ := List.mem_map.mp hname
    exact hl.found v hv
  have hwords : ∀ x ∈ h.firstVars ++ h.watermarkVar :: h.laterVars, tab.getSymbolValue (cstr x.1) ≠ 0 := by
    intro x hx
    apply hfound
    have hnames : (h.firstVars ++ h.watermarkVar :: h.laterVars).map Prod.fst ⊆ menuVars.map MenuVar.name :=
      List.IsInfix.subset ⟨[], _, rfl⟩
    exact hnames (List.mem_map_of_mem hx)
  have hpaths : ∀ x ∈ h.pathVars, tab.getSymbolValue (cstr x.1) ≠ 0 := by
    intro x hx
    apply hfound
    have hnames : h.pathVars.map Prod.fst ⊆ menuVars.map MenuVar.name :=
      show ["cube_logo_path", "default_folder"] ⊆ _ by decide
    exact hnames (List.mem_map_of_mem hx)
  have hdevice : ∀ x ∈ h.deviceVars, tab.getSymbolValue (cstr x.1) ≠ 0 := by
    intro x hx
    apply hfound
    have hnames : h.deviceVars.map Prod.fst ⊆ menuVars.map MenuVar.name :=
      show ["is_running_dolphin", "emu_sd_device"] ⊆ _ by decide
    exact hnames (List.mem_map_of_mem hx)
  rw [copySettings, copyWords_lay _ _ hwords, copyPaths_lay _ _ hpaths hshort, copyWords_lay _ _ hdevice,
    ← layAll_append, ← layAll_append]
  rfl

/-! ## Where the writes reach -/

theorem word_none {x : String × UInt32} {a : UInt32} : tab.wordWrite x a = none ↔ ¬ tab.Within x.1 4 a :=
  spanWrite_eq_none

theorem path_none {x : String × Option Path} {a : UInt32} (hs : ∀ s, x.2 = some s → s.length < maxFileName)
    (ha : x.2 ≠ none → ¬ tab.Within x.1 maxFileName a) : tab.pathWrite x a = none := by
  rw [SymTab.pathWrite]
  cases hx : x.2 with
  | none => rfl
  | some s =>
    rw [spanWrite_eq_none]
    intro hlt
    apply ha (by rw [hx]; exact Option.some_ne_none s)
    exact Nat.lt_of_lt_of_le hlt (hs s hx)

theorem mem_after {y : MenuVar × (UInt32 → Option UInt8)} (hy : y ∈ h.after tab) :
    (∃ x ∈ h.wordVars, y = (⟨x.1, 4⟩, tab.wordWrite x)) ∨
      ∃ x ∈ h.pathVars, y = (⟨x.1, maxFileName⟩, tab.pathWrite x) := by
  rw [Handoff.after, List.mem_append, List.mem_append] at hy
  rw [Handoff.wordVars]
  rcases hy with (hy | hy) | hy
  · obtain ⟨x, hx, rfl⟩ := List.mem_map.mp hy
    exact .inl ⟨x, by simp only [List.mem_append, hx, true_or, or_true], rfl⟩
  · obtain ⟨x, hx, rfl⟩ := List.mem_map.mp hy
    exact .inr ⟨x, hx, rfl⟩
  · obtain ⟨x, hx, rfl⟩ := List.mem_map.mp hy
    exact .inl ⟨x, by simp only [List.mem_append, hx, or_true], rfl⟩

theorem mem_before {y : MenuVar × (UInt32 → Option UInt8)} (hy : y ∈ h.before tab) :
    ∃ x ∈ h.firstVars, y = (⟨x.1, 4⟩, tab.wordWrite x) := by
  obtain ⟨x, hx, rfl⟩ := List.mem_map.mp hy
  exact ⟨x, hx, rfl⟩

/-- A variable's write stays inside it. -/
theorem confined (hshort : h.Short) {y : MenuVar × (UInt32 → Option UInt8)} (hy : y ∈ h.before tab ++ h.after tab)
    {a : UInt32} (ha : ¬ tab.Within y.1.name y.1.size a) : y.2 a = none := by
  have hword : ∀ x : String × UInt32, ¬ tab.Within x.1 4 a → tab.wordWrite x a = none := fun x => word_none.mpr
  rcases List.mem_append.mp hy with hy | hy
  · obtain ⟨x, _, rfl⟩ := mem_before hy
    exact hword x ha
  · rcases mem_after hy with ⟨x, _, rfl⟩ | ⟨x, hx, rfl⟩
    · exact hword x ha
    · exact path_none (hshort x hx) fun _ => ha

/-- Nothing set after the watermark reaches a variable set before it, or its own byte. -/
theorem after_none (hl : MenuLayout tab) (hshort : h.Short) {v : MenuVar}
    (hv : v ∈ (h.before tab).map Prod.fst ++ [⟨h.watermarkVar.1, 1⟩]) {a : UInt32} (ha : tab.Within v.name v.size a) :
    ∀ w ∈ (h.after tab).map Prod.snd, w a = none := by
  intro w hw
  obtain ⟨y, hy, rfl⟩ := List.mem_map.mp hw
  have hdisjoint := hl.disjoint
  rw [menuVars_split tab h] at hdisjoint
  have hvy := (List.pairwise_append.mp hdisjoint).2.2 v hv y.1 (List.mem_map_of_mem hy) a
  exact confined hshort (List.mem_append_right _ hy) fun hin => hvy ⟨ha, hin⟩

/-- Leaving the watermark out, no two writes meet. -/
theorem writes_apart (hl : MenuLayout tab) (hshort : h.Short) :
    ((h.before tab).map Prod.snd ++ (h.after tab).map Prod.snd).Pairwise Apart := by
  have hdisjoint := hl.disjoint
  rw [menuVars_split tab h, List.append_assoc] at hdisjoint
  have hvars := hdisjoint.sublist ((List.sublist_append_right [_] _).append_left _)
  rw [← List.map_append, List.pairwise_map] at hvars
  rw [← List.map_append, List.pairwise_map]
  apply hvars.imp_of_mem
  intro u v hu hv huv a
  by_cases ha : tab.Within u.1.name u.1.size a
  · exact .inr (confined hshort hv fun hin => huv a ⟨ha, hin⟩)
  · exact .inl (confined hshort hu ha)

/-! ## What the block leaves -/

section Leaves

variable (hl : MenuLayout tab) (hshort : h.Short) (m : DolMem)
include hl hshort

theorem copySettings_after {w : UInt32 → Option UInt8} {a : UInt32} {b : UInt8}
    (hw : w ∈ (h.after tab).map Prod.snd) (ha : w a = some b) : copySettings tab h m a = b := by
  have hsplit : h.writes tab = ((h.before tab).map Prod.snd ++ [tab.wordWrite h.watermarkVar]) ++
      (h.after tab).map Prod.snd := by
    rw [List.append_assoc]
    rfl
  rw [copySettings_lay hl hshort, hsplit, layAll_append]
  exact layAll_of_mem (List.pairwise_append.mp (writes_apart hl hshort)).2.1 hw ha

theorem copySettings_mark {a : UInt32} (ha : tab.Within h.watermarkVar.1 4 a)
    (hnone : ∀ w ∈ (h.after tab).map Prod.snd, w a = none) :
    copySettings tab h m a = beByte h.watermarkVar.2 (a - tab.getSymbolValue (cstr h.watermarkVar.1)).toNat := by
  rw [copySettings_lay hl hshort, Handoff.writes]
  exact layAll_of_last (spanWrite_of_lt ha) hnone

theorem copySettings_off {a : UInt32} (ha : ¬ tab.Within h.watermarkVar.1 4 a) :
    copySettings tab h m a = layAll m ((h.before tab).map Prod.snd ++ (h.after tab).map Prod.snd) a := by
  rw [copySettings_lay hl hshort, Handoff.writes]
  exact layAll_skip (word_none.mpr ha) m

end Leaves

/-- Where nothing is set but the watermark. -/
theorem unset_none (hshort : h.Short) {a : UInt32} (hwords : ∀ x ∈ h.wordVars, ¬ tab.Within x.1 4 a)
    (hpaths : ∀ x ∈ h.pathVars, x.2 ≠ none → ¬ tab.Within x.1 maxFileName a) :
    ∀ w ∈ (h.before tab).map Prod.snd ++ (h.after tab).map Prod.snd, w a = none := by
  intro w hw
  rw [← List.map_append] at hw
  obtain ⟨y, hy, rfl⟩ := List.mem_map.mp hw
  rcases List.mem_append.mp hy with hy | hy
  · obtain ⟨x, hx, rfl⟩ := mem_before hy
    exact word_none.mpr (hwords x (List.mem_append_left _ (List.mem_append_left _ hx)))
  · rcases mem_after hy with ⟨x, hx, rfl⟩ | ⟨x, hx, rfl⟩
    · exact word_none.mpr (hwords x hx)
    · exact path_none (hshort x hx) (hpaths x hx)

theorem beByte_zero (k : Nat) : beByte 0 k = 0 := by
  rw [← UInt8.toNat_inj, beByte_toNat]
  exact congrArg (· % 256) (Nat.zero_div _)

/-- Of the watermark setting only the top byte reaches the variable. -/
theorem mark_eq_iff {v : UInt32} : (beByte v 0).toNat = v.toNat ↔ v = 0 := by
  have hv := v.toNat_lt
  rw [beByte_toNat, ← UInt32.toNat_inj]
  simp only [Nat.reduceSub, Nat.reducePow]
  show _ ↔ v.toNat = 0
  omega

theorem mark_within : tab.Within h.watermarkVar.1 1 (tab.getSymbolValue (cstr h.watermarkVar.1)) := by
  rw [SymTab.Within, dist_zero.mpr rfl]
  exact Nat.one_pos

theorem within_four {a : UInt32} (ha : tab.Within h.watermarkVar.1 1 a) : tab.Within h.watermarkVar.1 4 a :=
  Nat.lt_of_lt_of_le ha (by decide)

/-- The variables that nothing set after the watermark reaches. -/
theorem before_none (hl : MenuLayout tab) (hshort : h.Short) {x : String × UInt32} (hx : x ∈ h.firstVars) {a : UInt32}
    (ha : tab.Within x.1 4 a) : ∀ w ∈ (h.after tab).map Prod.snd, w a = none := by
  apply after_none hl hshort (v := ⟨x.1, 4⟩) _ ha
  exact List.mem_append_left _ (List.mem_map_of_mem (f := Prod.fst) (List.mem_map_of_mem hx))

theorem mark_none (hl : MenuLayout tab) (hshort : h.Short) {a : UInt32} (ha : tab.Within h.watermarkVar.1 1 a) :
    ∀ w ∈ (h.after tab).map Prod.snd, w a = none :=
  after_none hl hshort (List.mem_append_right _ List.mem_cons_self) ha

theorem fits_of_holds (hl : MenuLayout tab) {m : DolMem} (hm : MenuHolds tab h m (copySettings tab h m)) :
    HandoffFits tab h m := by
  have hshort : h.Short := fun x hx s hs => (hm.paths x hx s hs).1
  have hoff : h.watermarkVar.2 = 0 := by
    have hbyte := hm.watermark
    rw [copySettings_mark hl hshort m (within_four mark_within) (mark_none hl hshort mark_within),
      dist_zero.mpr rfl] at hbyte
    exact mark_eq_iff.mp hbyte
  -- a zero is left after the watermark wherever nothing is set later
  have hzero : ∀ a, tab.Within h.watermarkVar.1 4 a → (∀ w ∈ (h.after tab).map Prod.snd, w a = none) →
      copySettings tab h m a = 0 := by
    intro a ha hnone
    rw [copySettings_mark hl hshort m ha hnone, hoff, beByte_zero]
  refine ⟨hshort, hoff, fun a ha x hx hxa => ?_, fun a ha hne hwords hpaths => ?_⟩
  · have hword := hm.words x (List.mem_append_left _ (List.mem_append_left _ hx))
    rw [← readU32_eq_iff.mp hword a hxa]
    exact hzero a ha (before_none hl hshort hx hxa)
  · rw [← hm.frame a hwords hne hpaths]
    apply hzero a ha
    exact fun w hw => unset_none hshort hwords hpaths w (List.mem_append_right _ hw)

theorem holds_of_fits (hl : MenuLayout tab) {m : DolMem} (hf : HandoffFits tab h m) :
    MenuHolds tab h m (copySettings tab h m) := by
  have hshort : h.Short := hf.short
  have hoff : h.watermarkVar.2 = 0 := hf.off
  constructor
  · intro x hx
    rw [readU32_eq_iff]
    intro a ha
    have hset : tab.wordWrite x a = some (beByte x.2 (a - tab.getSymbolValue (cstr x.1)).toNat) := spanWrite_of_lt ha
    rw [Handoff.wordVars, List.mem_append, List.mem_append] at hx
    rcases hx with (hx | hx) | hx
    -- under the watermark's store the byte is 0, which is the value's own
    · by_cases hmark : tab.Within h.watermarkVar.1 4 a
      · rw [copySettings_mark hl hshort m hmark (before_none hl hshort hx ha), hoff, beByte_zero]
        exact (hf.before a hmark x hx ha).symm
      · rw [copySettings_off hl hshort m hmark]
        apply layAll_of_mem (writes_apart hl hshort) _ hset
        exact List.mem_append_left _ (List.mem_map_of_mem (f := Prod.snd) (List.mem_map_of_mem hx))
    · apply copySettings_after hl hshort m _ hset
      apply List.mem_map_of_mem (f := Prod.snd) (a := (⟨x.1, 4⟩, tab.wordWrite x))
      exact List.mem_append_left _ (List.mem_append_left _ (List.mem_map_of_mem hx))
    · apply copySettings_after hl hshort m _ hset
      apply List.mem_map_of_mem (f := Prod.snd) (a := (⟨x.1, 4⟩, tab.wordWrite x))
      exact List.mem_append_right _ (List.mem_map_of_mem hx)
  · rw [copySettings_mark hl hshort m (within_four mark_within) (mark_none hl hshort mark_within),
      dist_zero.mpr rfl]
    exact mark_eq_iff.mpr hoff
  -- a path: nothing is stored after it
  · intro x hx s hs
    have hlen := hshort x hx s hs
    have h256 : maxFileName = 256 := rfl
    refine ⟨hlen, fun i hi => ?_⟩
    have hd := dist_ofNat (tab.getSymbolValue (cstr x.1)) (show i < 4294967296 by omega)
    apply copySettings_after hl hshort m (w := tab.pathWrite x)
    · apply List.mem_map_of_mem (f := Prod.snd) (a := (⟨x.1, maxFileName⟩, tab.pathWrite x))
      exact List.mem_append_left _ (List.mem_append_right _ (List.mem_map_of_mem hx))
    · rw [SymTab.pathWrite, hs]
      dsimp only
      rw [spanWrite_of_lt (by omega), hd]
  -- a byte of no variable: only the watermark's store can reach it
  · intro a hwords hne hpaths
    have hnone := unset_none hshort hwords hpaths
    by_cases hmark : tab.Within h.watermarkVar.1 4 a
    · rw [copySettings_mark hl hshort m hmark fun w hw => hnone w (List.mem_append_right _ hw), hoff, beByte_zero]
      exact (hf.outside a hmark hne hwords hpaths).symm
    · rw [copySettings_off hl hshort m hmark]
      exact layAll_of_none _ m hnone

/-- The menu holds its settings, and nothing else has changed, exactly when the
handoff fits. -/
theorem handoff_iff (hl : MenuLayout tab) (m : DolMem) :
    MenuHolds tab h m (copySettings tab h m) ↔ HandoffFits tab h m :=
  ⟨fits_of_holds hl, holds_of_fits hl⟩

/-! ## A layout -/

/-- The symbols of the variables, 256 bytes apart. -/
def spacedTab : SymTab where
  syms := menuVars.mapIdx fun i _ =>
    ⟨UInt32.ofNat (1 + ((menuVars.take i).map fun v => v.name.length + 1).sum), 0x81600000 + UInt32.ofNat (256 * i)⟩
  strings := 0 :: menuVars.flatMap fun v => cstr v.name ++ [0]

def MenuVar.extent (tab : SymTab) (v : MenuVar) : UInt32 × Nat := (tab.getSymbolValue (cstr v.name), v.size)

def spacedExtents : List (UInt32 × Nat) := menuVars.mapIdx fun i v => (0x81600000 + UInt32.ofNat (256 * i), v.size)

theorem spacedTab_extents : menuVars.map (MenuVar.extent spacedTab) = spacedExtents := by decide +kernel

theorem spacedTab_layout : MenuLayout spacedTab := by
  have hordered : spacedExtents.Pairwise fun u v => u.1.toNat + u.2 ≤ v.1.toNat ∧ v.1.toNat + v.2 ≤ 4294967296 := by
    decide +kernel
  have hfound : ∀ x ∈ spacedExtents, x.1 ≠ 0 := by decide +kernel
  rw [← spacedTab_extents] at hordered hfound
  constructor
  · intro v hv
    rw [List.forall_mem_map] at hfound
    exact hfound v hv
  · apply (List.pairwise_map.mp hordered).imp
    intro u v ⟨h1, h2⟩ a ⟨hu, hv⟩
    have ha := a.toNat_lt
    rw [SymTab.Within, sub_toNat] at hu hv
    dsimp only [MenuVar.extent] at h1 h2
    omega

/-- A `config.ini` with nothing in it but the watermark. -/
def watermarkConf (value : String) : String → Option Path := fun key =>
  if key = "show_watermark" then some (cstr value) else none

def watermarkHandoff (value : String) : Handoff where
  settings := loadSettings (fun _ => 0) (some (watermarkConf value))
  forcePassthrough := 0
  isRunningDolphin := 0
  emuSdDevice := 0

theorem handoff_iff_watermark_off :
    MenuHolds spacedTab (watermarkHandoff "off") zeroMem (copySettings spacedTab (watermarkHandoff "off") zeroMem) ↔
      HandoffFits spacedTab (watermarkHandoff "off") zeroMem :=
  handoff_iff spacedTab_layout zeroMem

/-- Turned on, the watermark reads back as off, and the byte three after it is changed. -/
theorem watermark_on_lost :
    (watermarkHandoff "on").settings.showWatermark = 1 ∧
      copySettings spacedTab (watermarkHandoff "on") zeroMem (spacedTab.getSymbolValue (cstr "show_watermark")) = 0 ∧
      copySettings spacedTab (watermarkHandoff "on") zeroMem
        (spacedTab.getSymbolValue (cstr "show_watermark") + 3) = 1 ∧
      ¬ MenuHolds spacedTab (watermarkHandoff "on") zeroMem
          (copySettings spacedTab (watermarkHandoff "on") zeroMem) := by
  have hon : (watermarkHandoff "on").settings.showWatermark = 1 := by decide +kernel
  refine ⟨hon, by decide +kernel, by decide +kernel, fun hm => ?_⟩
  have hoff := (fits_of_holds spacedTab_layout hm).off
  rw [hon] at hoff
  exact absurd hoff (by decide)

end Cubiboot
