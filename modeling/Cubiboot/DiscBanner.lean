import Cubiboot.FileSessions

/-
  The disc banner read, a step a frame (`disc_banner_*`, `dolphin_dvd.c`), and
  the bypass it holds the drive in (`dvd_custom_bypass_enter`/`_exit`).

  What the drive and the data read answer at a poll comes in as a `DiAnswer`;
  among it is where `get_banner_offset_fast` and `_slow` find the banner in the
  header just read.

  `discBannerPoll_spec` says when a poll ends the read: it gives the drive back
  exactly when it answers something other than 0.
-/

set_option autoImplicit false

namespace Cubiboot

inductive DbrBuffer where
  | scratch | header | out
  deriving DecidableEq, Repr

/-- `di_start_read`'s arguments. -/
structure DiRead where
  dst : DbrBuffer
  len : UInt32
  offset : UInt32
  deriving DecidableEq, Repr

/-- `step` is -1 with no read in flight, 5 after one that was completed. -/
structure DiscBanner where
  step : Int
  retry : Int
  frames : Int
  offset : UInt32
  started : Option DiRead
  passthrough : Bool
  deriving DecidableEq, Repr

/-- What a poll finds: the transfer's two flags, and in the buffers just read the
header's magic word, its FST size, where the banner is, and the banner's magic. -/
structure DiAnswer where
  busy : Bool
  failed : Bool
  magicWord : UInt32
  fastOffset : UInt32
  fstSize : UInt32
  slowOffset : UInt32
  bannerMagic : UInt32
  deriving DecidableEq, Repr

def dbrTimeoutFrames : Int := 900
def dbrRetryFrames : Int := 15
def dvdMagicWord : UInt32 := 0xC2339F3D

def dvdCustomBypassEnter (d : DiscBanner) : DiscBanner := { d with passthrough := true }

def dvdCustomBypassExit (d : DiscBanner) : DiscBanner := { d with passthrough := false }

def discBannerStart (d : DiscBanner) : DiscBanner :=
  dvdCustomBypassEnter { d with step := 0, retry := 0, frames := 0, offset := 0 }

def dbrFail (d : DiscBanner) : Int × DiscBanner := (-1, { dvdCustomBypassExit d with step := -1 })

def discBannerCancel (d : DiscBanner) : DiscBanner :=
  if d.step < 0 ∨ 4 < d.step then d else { dvdCustomBypassExit d with step := -1 }

def diStartRead (dst : DbrBuffer) (len offset : UInt32) (next : Int) (d : DiscBanner) : Int × DiscBanner :=
  (0, { d with started := some ⟨dst, len, offset⟩, step := next })

/-- Where the banner is: the table's answer, else the FST's if that is small enough. -/
def DiAnswer.bannerOffset (a : DiAnswer) : UInt32 :=
  if a.fastOffset ≠ 0 then a.fastOffset else if a.fstSize ≤ 0x100000 then a.slowOffset else 0

/-- 0 = still working, 1 = banner read, -1 = no readable disc. -/
def discBannerPoll (a : DiAnswer) (d : DiscBanner) : Int × DiscBanner :=
  let d := { d with frames := d.frames + 1 }
  if dbrTimeoutFrames < d.frames then dbrFail d
  else
    match d.step with
    | 0 =>
      if 0 < d.retry then (0, { d with retry := d.retry - 1 })
      else diStartRead .scratch 32 0 1 d
    | 1 =>
      if a.busy then (0, d)
      else if a.failed then (0, { d with retry := dbrRetryFrames, step := 0 })
      else diStartRead .header sizeofDiskHeader 0 2 d
    | 2 =>
      if a.busy then (0, d)
      else if a.failed then dbrFail d
      else if a.magicWord ≠ dvdMagicWord then dbrFail d
      else if a.bannerOffset = 0 then dbrFail { d with offset := 0 }
      else diStartRead .scratch 32 a.bannerOffset 3 { d with offset := a.bannerOffset }
    | 3 =>
      if a.busy then (0, d)
      else if a.failed then dbrFail d
      else if a.bannerMagic ≠ bannerMagic1 ∧ a.bannerMagic ≠ bannerMagic2 then dbrFail d
      else diStartRead .out sizeofBnr d.offset 4 d
    | 4 =>
      if a.busy then (0, d)
      else if a.failed then dbrFail d
      else (1, { dvdCustomBypassExit d with step := 5 })
    | _ => (-1, d)

/-- A read in flight: it holds the drive in bypass. -/
structure DiscBanner.InFlight (d : DiscBanner) : Prop where
  low : 0 ≤ d.step
  high : d.step ≤ 4
  bypass : d.passthrough = true

theorem discBannerStart_inFlight (d : DiscBanner) : (discBannerStart d).InFlight :=
  ⟨Int.le_refl 0, by show (0 : Int) ≤ 4; decide, rfl⟩

theorem discBannerCancel_exit {d : DiscBanner} (h : d.InFlight) : (discBannerCancel d).passthrough = false := by
  have hlow := h.low
  have hhigh := h.high
  rw [discBannerCancel, if_neg (by omega)]
  rfl

/-- A poll that answers 0 leaves the read in flight; any other gives the drive back. -/
theorem discBannerPoll_spec {d : DiscBanner} (h : d.InFlight) (a : DiAnswer) :
    ((discBannerPoll a d).1 = 0 ∧ (discBannerPoll a d).2.InFlight) ∨
      ((discBannerPoll a d).1 ≠ 0 ∧ (discBannerPoll a d).2.passthrough = false) := by
  obtain ⟨hlow, hhigh, hpass⟩ := h
  have hfail : ∀ d : DiscBanner, ((dbrFail d).1 = 0 ∧ (dbrFail d).2.InFlight) ∨
      ((dbrFail d).1 ≠ 0 ∧ (dbrFail d).2.passthrough = false) := fun d =>
    .inr ⟨by simp [dbrFail], rfl⟩
  simp only [discBannerPoll]
  split
  · exact hfail _
  · split
    · split
      · exact .inl ⟨rfl, hlow, hhigh, hpass⟩
      · exact .inl ⟨rfl, by simp [diStartRead], by simp [diStartRead], hpass⟩
    · split
      · exact .inl ⟨rfl, hlow, hhigh, hpass⟩
      · split
        · exact .inl ⟨rfl, by simp, by simp, hpass⟩
        · exact .inl ⟨rfl, by simp [diStartRead], by simp [diStartRead], hpass⟩
    · split
      · exact .inl ⟨rfl, hlow, hhigh, hpass⟩
      · split
        · exact hfail _
        · split
          · exact hfail _
          · split
            · exact hfail _
            · exact .inl ⟨rfl, by simp [diStartRead], by simp [diStartRead], hpass⟩
    · split
      · exact .inl ⟨rfl, hlow, hhigh, hpass⟩
      · split
        · exact hfail _
        · split
          · exact hfail _
          · exact .inl ⟨rfl, by simp [diStartRead], by simp [diStartRead], hpass⟩
    · split
      · exact .inl ⟨rfl, hlow, hhigh, hpass⟩
      · split
        · exact hfail _
        · exact .inr ⟨by simp, rfl⟩
    · rename_i h0 h1 h2 h3 h4
      have hnot : d.step ≠ 0 ∧ d.step ≠ 1 ∧ d.step ≠ 2 ∧ d.step ≠ 3 ∧ d.step ≠ 4 := ⟨h0, h1, h2, h3, h4⟩
      omega

end Cubiboot
