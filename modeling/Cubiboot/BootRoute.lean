import Cubiboot.Entry

/-
  Which way an entry boots, and whether it may (`emu/tweaks.c`, `emu/loader.c`, `main.c`,
  `boot.c`).

  A program, an app or a game is handed to Swiss (`/swiss-gc.dol` on the flash) with an
  `Autoload=` argument that names it. Swiss itself is not: a `.dol` of Swiss is run as it is,
  and a disc image of Swiss is booted by the menu's own apploader. Two recognisers tell Swiss
  by its name; the gate of the Game Play screen asks one of them, the route both.

  What is proved:
    1. `isSwiss_dol` — what is recognised as Swiss's `.dol` ends in `.dol`.
    2. `bs2start_cases` — the route of an entry, recogniser by recogniser.
    3. `gateAgrees_iff`, `neverItself_iff` — when the gate and the route part, and
       when Swiss is handed to Swiss.
    4. `boot_gate_iff` — hence when neither is the case.

  Correspondence (C ↔ Lean):
    `emu_can_boot`                     ↔ `emuCanBoot`
    `starts_with_swiss`                ↔ `startsWithSwiss`
    `is_swiss`, `is_swiss_image`       ↔ `isSwiss`, `isSwissImage`
    `chainload_swiss_game` (the two ways it goes) ↔ `chainloadSwissGame`
    `chainload_boot_game` (its head)   ↔ `chainloadBootGame`
    `bs2start` (its end)               ↔ `bs2start`
-/

set_option autoImplicit false

namespace Cubiboot

/-! ## Swiss by its name -/

def backslash : UInt8 := 92

/-- Either separator. -/
def isPathSeparator (c : UInt8) : Bool := c == slash || c == backslash

/-- What stands after the last separator of either kind. -/
def lastComponent (path : Path) : Path := (path.reverse.takeWhile fun c => !isPathSeparator c).reverse

/-- `name` is the `len` bytes looked at. -/
def startsWithSwiss (name : Path) : Bool := decide (5 ≤ name.length) && strcasecmpEq (name.take 5) (cstr "swiss")

def dolSuffix : Path := cstr ".dol"

def isSwiss (gamePath : Path) : Bool :=
  let filename := lastComponent gamePath
  if filename.length < 5 || !strcasecmpEq (filename.drop (filename.length - 4)) dolSuffix then false
  else if startsWithSwiss filename then true
  else if !strcasecmpEq filename (cstr "default.dol") then false
  else
    -- the folder, without the separator behind it
    startsWithSwiss (lastComponent (gamePath.take (gamePath.length - filename.length)).dropLast)

def isSwissImage (gamePath : Path) : Bool :=
  let filename := lastComponent gamePath
  if filename.length < 5 then false else strcasecmpEq (filename.take 5) (cstr "swiss")

/-! ## The gate -/

def emuCanBoot (foundSwiss : Bool) (type : FileType) (path : Path) : Bool :=
  match type with
  | .game | .program | .app => foundSwiss || isSwiss path
  | _ => true

/-! ## The route -/

/-- Where control goes: a DOL run as it is, `/swiss-gc.dol` with what it is to load (`none`:
    the disc in the drive), or the apploader. -/
inductive Route where
  | direct (dol : Path)
  | swiss (autoload : Option Path)
  | apploader
  deriving DecidableEq

/-- A path of `none` is `NULL`. -/
def chainloadSwissGame (gamePath : Option Path) (passthrough : Bool) : Route :=
  match gamePath with
  | some path => if isSwiss path then .direct path else .swiss (if passthrough then none else some path)
  | none => .swiss none

def chainloadBootGame (swissOnDvdBoot : UInt32) (bootPath : Option Path) (passthrough : Bool) : Route :=
  let nativeSwiss := !passthrough && bootPath.any isSwissImage
  if (!passthrough || swissOnDvdBoot != 0) && !nativeSwiss then chainloadSwissGame bootPath passthrough
  else .apploader

def bs2start (swissOnDvdBoot : UInt32) (startPassthroughGame : Bool) (type : FileType) (bootPath : Path) : Route :=
  if startPassthroughGame then chainloadBootGame swissOnDvdBoot none true
  else if type = .program ∨ type = .app then chainloadSwissGame (some bootPath) false
  else if swissOnDvdBoot = 0 || isSwissImage bootPath then chainloadBootGame swissOnDvdBoot (some bootPath) false
  else chainloadSwissGame (some bootPath) false

/-! ## What is asked of them -/

/-- The entries that boot. -/
def Boots (type : FileType) : Prop := type = .game ∨ type = .program ∨ type = .app

instance (type : FileType) : Decidable (Boots type) := inferInstanceAs (Decidable (_ ∨ _))

def Route.needsSwiss : Route → Bool
  | .swiss _ => true
  | _ => false

def cliSuffix : Path := cstr "+cli"

/-- A `.dol+cli` of Swiss: the path in front of `+cli` is its `.dol`. -/
def isSwissCli (path : Path) : Bool :=
  strcasecmpEq (path.drop (path.length - 4)) cliSuffix && isSwiss (path.take (path.length - 4))

/-- Swiss itself, by either recogniser: a `.dol` or an app folder, a disc image, a `.dol+cli`. -/
def swissItself (type : FileType) (path : Path) : Bool :=
  isSwiss path || (type = .game && isSwissImage path) || isSwissCli path

/-- The gate opens exactly if the route needs nothing that is not there. -/
def GateAgrees (foundSwiss : Bool) (swissOnDvdBoot : UInt32) (type : FileType) (path : Path) : Prop :=
  emuCanBoot foundSwiss type path = true ↔
    (bs2start swissOnDvdBoot false type path).needsSwiss = false ∨ foundSwiss = true

/-- Swiss is not handed to Swiss, nor by a disc started from the drive. -/
def NeverItself (swissOnDvdBoot : UInt32) (type : FileType) (path : Path) : Prop :=
  ∀ passthrough autoload, bs2start swissOnDvdBoot passthrough type path = .swiss (some autoload) →
    swissItself type autoload = false

instance (foundSwiss : Bool) (swissOnDvdBoot : UInt32) (type : FileType) (path : Path) :
    Decidable (GateAgrees foundSwiss swissOnDvdBoot type path) := inferInstanceAs (Decidable (_ ↔ _))

/-! ## The recognisers -/

/-- The end of a text is the end of its last component, if that is long enough. -/
theorem drop_lastComponent {path : Path} {k : Nat} (h : k ≤ (lastComponent path).length) :
    (lastComponent path).drop ((lastComponent path).length - k) = path.drop (path.length - k) := by
  have hsuffix : lastComponent path <:+ path := by
    have hprefix := List.takeWhile_prefix (l := path.reverse) fun c => !isPathSeparator c
    have hrev := List.reverse_suffix.mpr hprefix
    rwa [List.reverse_reverse] at hrev
  obtain ⟨front, hfront⟩ := hsuffix
  generalize lastComponent path = last at *
  subst hfront
  have hlen : (front ++ last).length - k = front.length + (last.length - k) := by
    rw [List.length_append]
    omega
  rw [hlen, ← List.drop_drop, List.drop_left]

/-- Swiss's `.dol` ends in `.dol`. -/
theorem isSwiss_dol {path : Path} (h : isSwiss path = true) :
    strcasecmpEq (path.drop (path.length - 4)) dolSuffix = true := by
  have hname : ¬ ((lastComponent path).length < 5 ||
      !strcasecmpEq ((lastComponent path).drop ((lastComponent path).length - 4)) dolSuffix) = true := by
    intro hnot
    rw [isSwiss, if_pos hnot] at h
    cases h
  rw [Bool.or_eq_true, decide_eq_true_eq, Bool.not_eq_true', not_or, Bool.not_eq_false] at hname
  rw [← drop_lastComponent (Nat.le_trans (by decide) (Nat.not_lt.mp hname.1))]
  exact hname.2

/-- So a `.dol+cli` is no `.dol` of Swiss. -/
theorem not_isSwiss_of_cli {path : Path} (h : isSwissCli path = true) : isSwiss path = false := by
  rw [isSwissCli, Bool.and_eq_true] at h
  rw [Bool.eq_false_iff]
  intro hswiss
  have hends := isSwiss_dol hswiss
  rw [strcasecmpEq_iff] at h hends
  have hsame : dolSuffix.map myTolower = cliSuffix.map myTolower := hends.symm.trans h.1
  exact absurd hsame (by decide +kernel)

/-! ## The routes -/

/-- A game's image of Swiss takes the apploader; what is left is handed to Swiss unless it is
    Swiss's `.dol`. -/
theorem bs2start_cases {type : FileType} (ht : Boots type) (swissOnDvdBoot : UInt32) (path : Path) :
    bs2start swissOnDvdBoot false type path =
      if type = .game ∧ isSwissImage path = true then .apploader
      else if isSwiss path = true then .direct path
      else .swiss (some path) := by
  have hchain : chainloadSwissGame (some path) false = if isSwiss path = true then .direct path else .swiss (some path) :=
    rfl
  have hboot : chainloadBootGame swissOnDvdBoot (some path) false =
      if isSwissImage path = true then .apploader else chainloadSwissGame (some path) false := by
    rw [chainloadBootGame, Option.any_some]
    cases isSwissImage path <;> rfl
  rw [bs2start, if_neg Bool.false_ne_true]
  obtain rfl | hprogram := ht
  · -- a game
    rw [if_neg (by decide), hboot, hchain]
    by_cases himage : isSwissImage path = true
    · rw [if_pos (by rw [himage, Bool.or_true]), if_pos himage, if_pos ⟨rfl, himage⟩]
    · have hnot : ¬ (FileType.game = .game ∧ isSwissImage path = true) := fun h => himage h.2
      rw [if_neg himage, ite_self, if_neg hnot]
  · have hnot : ¬ (type = .game ∧ isSwissImage path = true) := by
      rintro ⟨rfl, -⟩
      cases hprogram <;> contradiction
    rw [if_pos hprogram, if_neg hnot, hchain]

theorem emuCanBoot_eq {type : FileType} (ht : Boots type) (foundSwiss : Bool) (path : Path) :
    emuCanBoot foundSwiss type path = (foundSwiss || isSwiss path) := by
  obtain rfl | rfl | rfl := ht <;> rfl

/-- From the drive it is the disc that Swiss is to load. -/
theorem bs2start_passthrough (swissOnDvdBoot : UInt32) (type : FileType) (path autoload : Path) :
    bs2start swissOnDvdBoot true type path ≠ .swiss (some autoload) := by
  rw [bs2start, if_pos rfl, chainloadBootGame, chainloadSwissGame]
  split
  · exact fun h => by cases h
  · exact fun h => by cases h

/-! ## Where they part -/

/-- The gate asks for Swiss's `.dol` only, and refuses its image, which needs no Swiss. -/
theorem gateAgrees_iff {type : FileType} (ht : Boots type) (foundSwiss : Bool) (swissOnDvdBoot : UInt32) (path : Path) :
    GateAgrees foundSwiss swissOnDvdBoot type path ↔
      ¬ (type = .game ∧ isSwissImage path = true ∧ isSwiss path = false ∧ foundSwiss = false) := by
  rw [GateAgrees, emuCanBoot_eq ht, bs2start_cases ht]
  by_cases himage : type = .game ∧ isSwissImage path = true
  · rw [if_pos himage]
    cases foundSwiss <;> cases isSwiss path <;> simp [Route.needsSwiss, himage]
  · rw [if_neg himage]
    have hnot : ¬ (type = .game ∧ isSwissImage path = true ∧ isSwiss path = false ∧ foundSwiss = false) :=
      fun h => himage ⟨h.1, h.2.1⟩
    rw [iff_true_right hnot]
    cases foundSwiss <;> cases isSwiss path <;> simp [Route.needsSwiss]

/-- Neither recogniser knows a `.dol+cli`, unless the image's takes it by its first letters. -/
theorem neverItself_iff {type : FileType} (ht : Boots type) (swissOnDvdBoot : UInt32) (path : Path) :
    NeverItself swissOnDvdBoot type path ↔
      ¬ (isSwissCli path = true ∧ ¬ (type = .game ∧ isSwissImage path = true)) := by
  have hroute := bs2start_cases ht swissOnDvdBoot path
  constructor
  · rintro hnever ⟨hcli, himage⟩
    rw [if_neg himage, not_isSwiss_of_cli hcli, if_neg Bool.false_ne_true] at hroute
    have hitself := hnever false path hroute
    rw [swissItself, hcli, Bool.or_true] at hitself
    cases hitself
  · intro hcli passthrough autoload hswiss
    cases passthrough with
    | true => exact absurd hswiss (bs2start_passthrough swissOnDvdBoot type path autoload)
    | false =>
      rw [hroute] at hswiss
      split at hswiss
      · cases hswiss
      · rename_i himage
        split at hswiss
        · cases hswiss
        · rename_i hdol
          obtain rfl : path = autoload := Option.some.inj (Route.swiss.inj hswiss)
          have hnot : isSwissCli path = false := Bool.eq_false_iff.mpr fun h => hcli ⟨h, himage⟩
          have hgame : (decide (type = .game) && isSwissImage path) = false := by
            rw [Bool.eq_false_iff, ne_eq, Bool.and_eq_true, decide_eq_true_eq]
            exact himage
          rw [swissItself, hnot, hgame, Bool.eq_false_iff.mpr hdol]
          rfl

/-- For every entry and setting: the gate agrees with the route and Swiss is not handed to
    Swiss, exactly outside of two kinds of entries. -/
theorem boot_gate_iff (type : FileType) (ht : Boots type) (foundSwiss : Bool) (swissOnDvdBoot : UInt32) (path : Path) :
    GateAgrees foundSwiss swissOnDvdBoot type path ∧ NeverItself swissOnDvdBoot type path ↔
      ¬ (type = .game ∧ isSwissImage path = true ∧ isSwiss path = false ∧ foundSwiss = false) ∧
      ¬ (isSwissCli path = true ∧ ¬ (type = .game ∧ isSwissImage path = true)) :=
  and_congr (gateAgrees_iff ht foundSwiss swissOnDvdBoot path) (neverItself_iff ht swissOnDvdBoot path)

theorem boot_gate_game :
    Boots .game ∧ (GateAgrees true 1 .game (cstr "/games/a.iso") ∧ NeverItself 1 .game (cstr "/games/a.iso") ↔
      ¬ (FileType.game = .game ∧ isSwissImage (cstr "/games/a.iso") = true ∧ isSwiss (cstr "/games/a.iso") = false ∧
        true = false) ∧
      ¬ (isSwissCli (cstr "/games/a.iso") = true ∧
        ¬ (FileType.game = .game ∧ isSwissImage (cstr "/games/a.iso") = true))) :=
  ⟨by decide, boot_gate_iff .game (by decide) true 1 (cstr "/games/a.iso")⟩

/-- An image of Swiss on a card without `swiss-gc.dol` is refused, though it needs none; a
    `.dol+cli` of Swiss is handed to Swiss. -/
theorem boot_gate_parts :
    ¬ GateAgrees false 0 .game (cstr "/swiss.iso") ∧ ¬ NeverItself 0 .program (cstr "/swiss-gc.dol+cli") := by
  refine ⟨by decide +kernel, fun hnever => ?_⟩
  have hitself := hnever false (cstr "/swiss-gc.dol+cli") (by decide +kernel)
  exact absurd hitself (by decide +kernel)

end Cubiboot
