import Mathlib.Tactic.Common
import Cubiboot.Lib.Fields
import Cubiboot.Entry

/-
  `device_order` (`flippy_emu.c`, the loader's side): the list of device names in
  `config.ini` and the device it settles on.

  There is one `FATFS`, so at most one volume is mounted: mounting another one,
  or failing to, takes it. A FlippyDrive is no volume, it is there or not. Which
  devices can be mounted is a parameter; `mounted` is the volume FatFs has.

  What is proved:
    1. `emuNextDevice_listed` — the tokenizer comes to the names of the list.
    2. `emuTryDevices_spec` — the loop takes the first device that can be mounted.
    3. `device_order_selects` — the device after `emu_apply_device_order`, and
       that its volume is the one mounted.
    4. `first_named_not_tried` — the device in use is not tried again when it is
       the first one named.

  Correspondence (C ↔ Lean):
    `device_prio`, `emu_device_aliases`    ↔ `devicePrio`, `emuDeviceAliases`
    `emu_match_volume`, `emu_find_device`  ↔ `emuMatchVolume`, `emuFindDevice`
    `emu_next_device`                      ↔ `emuNextDevice`
    `emu_try_mount`, `emu_unmount_current` ↔ `emuTryMount`, `emuUnmountCurrent`
    `emu_apply_device_order`               ↔ `emuApplyDeviceOrder`
-/

set_option autoImplicit false

namespace Cubiboot

/-! ## Names -/

/-- The index is the device. -/
def devicePrio : List Path := [cstr "gcldr", cstr "sdc", cstr "sdb", cstr "sda", cstr "fldrv"]

def emuDevFldrv : Nat := 4

def emuDevIsNative (device : Nat) : Bool := device = emuDevFldrv

/-- Alias and volume. -/
def emuDeviceAliases : List (Path × Path) :=
  [(cstr "sd2sp2", cstr "sdc"), (cstr "slot_b", cstr "sdb"), (cstr "slot_a", cstr "sda"),
    (cstr "gcloader", cstr "gcldr"), (cstr "ode", cstr "gcldr"), (cstr "flippy", cstr "fldrv"),
    (cstr "flippydrive", cstr "fldrv")]

def emuMatchVolume (name : Path) : Option Nat := devicePrio.findIdx? fun volume => strcasecmpEq volume name

def emuFindDevice (name : Path) : Option Nat :=
  match emuMatchVolume name with
  | some device => some device
  | none =>
    match emuDeviceAliases.find? fun row => strcasecmpEq row.1 name with
    | some row => emuMatchVolume row.2
    | none => none -- ignoring unknown device

/-! ## The walk over the list -/

/-- Space, tab and comma. -/
def isSeparator (c : UInt8) : Bool := c = 32 ∨ c = 9 ∨ c = 44

/-- The next device, none for a name that is not known, and where to resume. -/
def emuNextDevice (p : Path) : Option (Option Nat × Path) :=
  (Fields.next isSeparator p).map fun (name, rest) => (emuFindDevice name, rest)

/-! ## Mounting -/

/-- `emu_sd_device` (none for -1), and the volume FatFs has mounted. -/
structure Emu where
  sdDevice : Option Nat
  mounted : Option Nat
  deriving DecidableEq, Repr

/-- The volume of a device; a FlippyDrive has none. -/
def volumeOf (device : Nat) : Option Nat := if emuDevIsNative device then none else some device

/-- A device in use since the bootstrap, or none. -/
def Emu.inUse (previous : Option Nat) : Emu := ⟨previous, previous.bind volumeOf⟩

section
variable (works : Nat → Bool)

/-- `f_mount(&fs, "<volume>:", 1)`: what was mounted is let go in any case. -/
def fMount (volume : Nat) (s : Emu) : Bool × Emu :=
  if works volume then (true, { s with mounted := some volume }) else (false, { s with mounted := none })

/-- `f_mount(NULL, "<volume>:", 0)`. -/
def fUnmount (volume : Nat) (s : Emu) : Emu :=
  { s with mounted := if s.mounted = some volume then none else s.mounted }

def emuTryMount (device : Nat) (s : Emu) : Bool × Emu :=
  if emuDevIsNative device then (works device, s) else fMount works device s

def emuUnmountCurrent (s : Emu) : Emu :=
  match s.sdDevice with
  | none => s
  | some device =>
    if emuDevIsNative device then { s with sdDevice := none }
    else { fUnmount device s with sdDevice := none }

/-- Nothing in the list mounted: back to what the bootstrap had. -/
def emuFallBack (previous : Option Nat) (s : Emu) : Emu :=
  match previous with
  | none => s
  | some device =>
    let (ok, s) := emuTryMount works device s
    if ok then { s with sdDevice := previous } else s

/-- The loop of `emu_apply_device_order`, for `fuel` more names at most; `moved` is
whether the previous device has been let go. -/
def emuTryDevices (previous : Option Nat) : Nat → Path → Bool → Emu → Emu
  | 0, _, _, s => emuFallBack works previous s
  | fuel + 1, p, moved, s =>
    match emuNextDevice p with
    | none => emuFallBack works previous s
    | some (none, p) => emuTryDevices previous fuel p moved s
    | some (some device, p) =>
      if !moved && some device = previous then s
      else
        let s := if moved then s else emuUnmountCurrent s
        let (ok, s) := emuTryMount works device s
        if ok then { s with sdDevice := some device } else emuTryDevices previous fuel p true s

/-- Every name takes a character at least. -/
def emuApplyDeviceOrder (order : Path) (s : Emu) : Emu :=
  if order = [] then s else emuTryDevices works s.sdDevice order.length order false s

end

/-! ## What it comes to -/

/-- The known devices of a list, in order: what stands between the separators. -/
def listedDevices (order : Path) : List Nat := (Fields.fields isSeparator order).filterMap emuFindDevice

/-- The device a list of known ones settles on: the one in use if it is the first named;
else the first that works, and failing that the one in use if it does. -/
def selected (works : Nat → Bool) (previous : Option Nat) : List Nat → Option Nat
  | [] => previous
  | device :: devices =>
    if some device = previous then previous
    else ((device :: devices).find? works).or (previous.filter works)

theorem emuNextDevice_listed (p : Path) :
    (emuNextDevice p = none ∧ listedDevices p = []) ∨
    ∃ device rest, emuNextDevice p = some (device, rest) ∧ rest.length < p.length ∧
      listedDevices p = device.toList ++ listedDevices rest := by
  have hfields : Fields.fields isSeparator p = _ := Fields.fields_eq_next p
  cases hn : Fields.next isSeparator p with
  | none =>
    rw [hn] at hfields
    refine .inl ⟨by rw [emuNextDevice, hn]; rfl, ?_⟩
    rw [listedDevices, hfields]
    rfl
  | some found =>
    obtain ⟨name, rest⟩ := found
    rw [hn] at hfields
    refine .inr ⟨emuFindDevice name, rest, by rw [emuNextDevice, hn]; rfl, Fields.next_shorter hn, ?_⟩
    rw [listedDevices, hfields, List.filterMap_cons, listedDevices]
    cases emuFindDevice name <;> rfl

section
variable (works : Nat → Bool)

/-- With nothing in use and nothing mounted, a device that works is put in use. -/
theorem emuTryMount_idle (device : Nat) :
    emuTryMount works device ⟨none, none⟩ = (works device, ⟨none, if works device then volumeOf device else none⟩) := by
  simp only [emuTryMount, fMount, volumeOf]
  cases emuDevIsNative device <;> cases works device <;> rfl

theorem emuUnmountCurrent_inUse (previous : Option Nat) :
    emuUnmountCurrent (.inUse previous) = ⟨none, none⟩ := by
  cases previous with
  | none => rfl
  | some device =>
    by_cases hn : emuDevIsNative device = true <;>
      simp [emuUnmountCurrent, Emu.inUse, fUnmount, volumeOf, hn]

/-- Once the previous device has been let go, the first that works is taken, and
failing that the previous one if it does. -/
theorem emuTryDevices_moved (previous : Option Nat) : ∀ (fuel : Nat) (p : Path), p.length ≤ fuel →
    emuTryDevices works previous fuel p true ⟨none, none⟩ =
      .inUse (((listedDevices p).find? works).or (previous.filter works)) := by
  have hback : emuFallBack works previous ⟨none, none⟩ = .inUse (previous.filter works) := by
    cases previous with
    | none => rfl
    | some device =>
      simp only [emuFallBack, emuTryMount_idle, Option.filter_some]
      cases works device <;> rfl
  intro fuel
  induction fuel with
  | zero =>
    intro p hp
    obtain rfl := List.length_eq_zero_iff.mp (Nat.le_zero.mp hp)
    exact hback
  | succ fuel ih =>
    intro p hp
    obtain ⟨hnext, hlisted⟩ | ⟨device, rest, hnext, hshort, hlisted⟩ := emuNextDevice_listed p
    · rw [emuTryDevices, hnext, hlisted]
      exact hback
    · have hrest := ih rest (by omega)
      rw [emuTryDevices, hnext, hlisted]
      cases device with
      | none => exact hrest
      | some device =>
        simp only [Bool.not_true, Bool.false_and, Bool.false_eq_true, if_false, if_true, emuTryMount_idle]
        rw [Option.toList_some, List.singleton_append, List.find?_cons]
        cases works device with
        | true => rfl
        | false => exact hrest

/-- From a device in use, over the names that are not known. -/
theorem emuTryDevices_spec (previous : Option Nat) : ∀ (fuel : Nat) (p : Path), p.length ≤ fuel →
    emuTryDevices works previous fuel p false (.inUse previous) =
      if listedDevices p = [] then emuFallBack works previous (.inUse previous)
      else .inUse (selected works previous (listedDevices p)) := by
  intro fuel
  induction fuel with
  | zero =>
    intro p hp
    obtain rfl := List.length_eq_zero_iff.mp (Nat.le_zero.mp hp)
    rfl
  | succ fuel ih =>
    intro p hp
    obtain ⟨hnext, hlisted⟩ | ⟨device, rest, hnext, hshort, hlisted⟩ := emuNextDevice_listed p
    · rw [emuTryDevices, hnext, if_pos hlisted]
    · rw [emuTryDevices, hnext, hlisted]
      cases device with
      | none => exact ih rest (by omega)
      | some device =>
        rw [Option.toList_some, List.singleton_append, if_neg (List.cons_ne_nil _ _)]
        simp only [Bool.not_false, Bool.true_and, decide_eq_true_eq, Bool.false_eq_true, if_false, selected]
        split
        · rfl
        · -- the previous device is let go, once
          rw [emuUnmountCurrent_inUse, emuTryMount_idle, List.find?_cons]
          cases works device with
          | true => rfl
          | false => exact emuTryDevices_moved works previous fuel rest (by omega)

/-- A device in use that works is in use again when it is mounted again. -/
theorem emuFallBack_inUse {previous : Option Nat} (h : previous.filter works = previous) :
    emuFallBack works previous (.inUse previous) = .inUse previous := by
  cases previous with
  | none => rfl
  | some device =>
    have hworks : works device = true := by
      by_contra hno
      rw [Option.filter_some, if_neg hno] at h
      cases h
    by_cases hn : emuDevIsNative device = true <;>
      simp [emuFallBack, emuTryMount, fMount, Emu.inUse, volumeOf, hn, hworks]

/-- The device after the list has been applied, whatever was in use before, with its volume
mounted. An empty order leaves all as it is; an order with no known name in it has the device
in use mounted again, and if it can be that is the outcome. -/
theorem device_order_selects (previous : Option Nat) (order : Path) :
    let s := emuApplyDeviceOrder works order (.inUse previous)
    (order = [] → s = .inUse previous) ∧
    (listedDevices order ≠ [] → s = .inUse (selected works previous (listedDevices order))) ∧
    (order ≠ [] → listedDevices order = [] → s = emuFallBack works previous (.inUse previous) ∧
      (previous.filter works = previous → s = .inUse previous)) := by
  dsimp only
  have hrun : order ≠ [] → emuApplyDeviceOrder works order (.inUse previous) =
      if listedDevices order = [] then emuFallBack works previous (.inUse previous)
      else .inUse (selected works previous (listedDevices order)) := by
    intro hne
    rw [← emuTryDevices_spec works previous order.length order (Nat.le_refl _)]
    exact if_neg hne
  refine ⟨fun hempty => ?_, fun hlisted => ?_, fun hne hnone => ?_⟩
  · rw [hempty]
    rfl
  · have hne : order ≠ [] := fun hempty => hlisted (hempty ▸ rfl)
    rw [hrun hne, if_neg hlisted]
  · rw [hrun hne, if_pos hnone]
    exact ⟨rfl, fun hworks => emuFallBack_inUse works hworks⟩

end

/-- The reader in serial port 2 is in use and can no longer be mounted; it is named
first, and kept, although the one in slot B would do. -/
theorem first_named_not_tried : ¬ ∀ (works : Nat → Bool) (previous : Option Nat) (order : Path),
    (emuApplyDeviceOrder works order (.inUse previous)).sdDevice =
      ((listedDevices order).find? works).or (previous.filter works) := by
  intro h
  have hkept := h (fun device => device == 2) (some 1) (cstr "sdc, sdb")
  revert hkept
  decide +kernel

end Cubiboot
