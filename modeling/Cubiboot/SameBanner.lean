import Mathlib.Algebra.Ring.Nat
import Mathlib.Tactic.Common
import Cubiboot.Lib.Polling
import Cubiboot.DiscBanner
import Cubiboot.BannerSearch

/-
  The disc screen and the file list, put to the same bytes.

  The disc screen reads step by step (`disc_banner_start`, `disc_banner_poll`), the file
  list in one call (`get_game_info`). Both ask the table of known offsets first. Where that
  has a row for the header, the list looks for a banner there and else walks the file system
  table; the disc screen only looks there.

  `wait k` is how many polls find the read of step `k` busy; each read succeeds, and all of
  them are over before the 900 polls the read is given.

  What is proved:
    1. `works_read` — the polls until a read is over.
    2. `polled_found`, `polled_lost` — what the disc screen ends with.
    3. `same_banner_iff` — it agrees with `get_game_info` exactly if a row for the header
       has a banner at its position, or the file system table does not name one either; and
       without a row, if the two walks find the same.
    4. `walks_alike` — the walks do, if the file system table begins at a multiple of 4 and
       they stay in it.
    5. `moved_banner_not_found` — a known header whose banner has moved.

  Correspondence (C ↔ Lean):
    `dbr_header`, `dbr_scratch`, `dbr_out` ↔ `DbrBuffer.area`
    `di_busy`                              ↔ `DiscReader.busy`
    `disc_banner_start`                    ↔ `discBannerStart`
    `disc_banner_poll`                     ↔ `DiscReader.poll` (`discBannerPoll`)
-/

set_option autoImplicit false

namespace Cubiboot

def DbrBuffer.area : DbrBuffer → Area
  | .scratch => .smallBuf
  | .header => .header
  | .out => .bannerBuffer

/-- The read's state, the memory, and how many polls have found the read in flight busy. -/
structure DiscReader where
  banner : DiscBanner
  mem : Cells UInt8
  waited : Nat

def DiscReader.transfer (r : DiscReader) : Option DiRead :=
  if 0 < r.banner.step ∧ r.banner.step ≤ 4 then r.banner.started else none

/-- The walk of step 2 is taken. -/
def DiAnswer.walks (a : DiAnswer) (d : DiscBanner) : Bool :=
  d.frames < dbrTimeoutFrames ∧ d.step = 2 ∧ a.busy = false ∧ a.failed = false ∧ a.magicWord = dvdMagicWord ∧
    a.fastOffset = 0 ∧ a.fstSize ≤ 0x100000

section
variable (bnrOffsets : List BnrOffset) (disc : Disc) (wait : Nat → Nat)

def DiscReader.busy (r : DiscReader) : Bool :=
  r.transfer.isSome && decide (r.waited < wait r.banner.step.toNat)

/-- The memory once the read in flight is over. -/
def DiscReader.landed (r : DiscReader) : Cells UInt8 :=
  match r.transfer with
  | some read => r.mem.put read.dst.area 0 (disc.bytesAt (driveAt read.offset) read.len)
  | none => r.mem

/-- What the poll finds in memory `m`. -/
def diAnswer (busy : Bool) (m : Cells UInt8) : DiAnswer where
  busy := busy
  failed := false
  magicWord := wordAt m .header 0x1C
  fastOffset := ((getBannerOffsetFast bnrOffsets).run (discAnswer disc driveAt) m).1
  fstSize := wordAt m .header fstSizeAt
  slowOffset := (getBannerOffsetSlow.run (discAnswer disc driveAt) m).1.offset
  bannerMagic := wordAt m .smallBuf 0

def DiscReader.poll (r : DiscReader) : Int × DiscReader :=
  let busy := r.busy wait
  let m := if busy then r.mem else r.landed disc
  let a := diAnswer bnrOffsets disc busy m
  let (result, banner) := discBannerPoll a r.banner
  let mem := if a.walks r.banner then (getBannerOffsetSlow.run (discAnswer disc driveAt) m).2 else m
  (result, ⟨banner, mem, if busy then r.waited + 1 else 0⟩)

end

/-- What both are put to: the disc and the table of known offsets, what the memory holds
before, and how long each read takes. -/
structure TwoReaders where
  bnrOffsets : List BnrOffset
  disc : Disc
  path : Path
  imageMem : Cells UInt8
  driveMem : Cells UInt8
  before : DiscBanner
  wait : Nat → Nat
  magic : disc.word 0x1C = dvdMagicWord
  inTime : wait 1 + wait 2 + wait 3 + wait 4 + 5 ≤ 900
  /-- The positions the drive is sent to are multiples of 4. -/
  known_words : 4 ∣ (disc.known bnrOffsets).toNat
  named_words : 4 ∣ (disc.named driveAt driveMem).toNat

namespace TwoReaders

def info (w : TwoReaders) : GameInfo :=
  ((getGameInfo w.bnrOffsets w.path).run (discAnswer w.disc UInt32.toNat) w.imageMem).1

def polled (w : TwoReaders) : Int × DiscReader :=
  Polling.upTo (DiscReader.poll w.bnrOffsets w.disc w.wait) 0 900 ⟨discBannerStart w.before, w.driveMem, 0⟩

/-- The banner the disc screen is given. -/
def delivered (w : TwoReaders) : List UInt8 :=
  (List.range sizeofBnr.toNat).map fun i => w.polled.2.mem .bannerBuffer (.ofNat i)

/-- The two come to the same banner, or neither to one. -/
structure SameBanner (w : TwoReaders) : Prop where
  answers : w.polled.1 ≠ 0
  valid : w.polled.1 = 1 ↔ w.info.valid = true
  same : w.polled.1 = 1 → w.delivered = w.disc.bytesAt w.info.bnrOffset.toNat sizeofBnr

/-- The banner at a position, if there is one. -/
def found (w : TwoReaders) (offset : UInt32) : Option (List UInt8) :=
  (w.disc.bannerAt offset).map fun offset => w.disc.bytesAt offset.toNat sizeofBnr

/-- The condition: a row for the header leads to a banner, or the file system table of the
file does not either; or there is none, and the table leads to the same banner as a file
has it and as the drive brings it. -/
def Alike (w : TwoReaders) : Prop :=
  if w.disc.known w.bnrOffsets ≠ 0 then
    w.found (w.disc.known w.bnrOffsets) ≠ none ∨ w.found (w.disc.named UInt32.toNat w.imageMem) = none
  else w.found (w.disc.named UInt32.toNat w.imageMem) = w.found (w.disc.named driveAt w.driveMem)

end TwoReaders

/-! ## Polls over one read -/

/-- The read of step `k` after `waited` busy polls. -/
def reading (k frames waited : Nat) (offset : UInt32) (read : DiRead) (m : Cells UInt8) : DiscReader :=
  ⟨⟨k, 0, frames, offset, some read, true⟩, m, waited⟩

section
variable {bnrOffsets : List BnrOffset} {disc : Disc} {wait : Nat → Nat} {k frames waited : Nat}
  {offset : UInt32} {read : DiRead} {m : Cells UInt8}

@[simp] theorem reading_mem : (reading k frames waited offset read m).mem = m := rfl

@[simp] theorem reading_waited : (reading k frames waited offset read m).waited = waited := rfl

@[simp] theorem reading_banner :
    (reading k frames waited offset read m).banner = ⟨k, 0, frames, offset, some read, true⟩ := rfl

theorem transfer_reading (hk : 1 ≤ k) (hk' : k ≤ 4) :
    (reading k frames waited offset read m).transfer = some read := by
  have hstep : 0 < (k : Int) ∧ (k : Int) ≤ 4 := by omega
  exact if_pos hstep

theorem busy_reading (hk : 1 ≤ k) (hk' : k ≤ 4) :
    (reading k frames waited offset read m).busy wait = decide (waited < wait k) := by
  rw [DiscReader.busy, transfer_reading hk hk', Option.isSome_some, Bool.true_and]
  rfl

theorem landed_reading (hk : 1 ≤ k) (hk' : k ≤ 4) : (reading k frames waited offset read m).landed disc =
    m.put read.dst.area 0 (disc.bytesAt (driveAt read.offset) read.len) := by
  rw [DiscReader.landed, transfer_reading hk hk']
  rfl

theorem inTime (hframes : frames < 900) : ¬ dbrTimeoutFrames < (frames : Int) + 1 := by
  rw [dbrTimeoutFrames]
  omega

theorem discBannerPoll_busy {a : DiAnswer} (ha : a.busy = true) (hk : 1 ≤ k) (hk' : k ≤ 4) (hframes : frames < 900) :
    discBannerPoll a ⟨k, 0, frames, offset, some read, true⟩ =
      (0, ⟨k, 0, ↑(frames + 1), offset, some read, true⟩) := by
  obtain rfl | rfl | rfl | rfl : k = 1 ∨ k = 2 ∨ k = 3 ∨ k = 4 := by omega
  all_goals
    simp only [discBannerPoll, if_neg (inTime hframes)]
    simp [ha]

theorem poll_busy (hk : 1 ≤ k) (hk' : k ≤ 4) (hframes : frames < 900) (hwaited : waited < wait k) :
    DiscReader.poll bnrOffsets disc wait (reading k frames waited offset read m) =
      (0, reading k (frames + 1) (waited + 1) offset read m) := by
  have hbusy : (reading k frames waited offset read m).busy wait = true := by
    rw [busy_reading hk hk', decide_eq_true hwaited]
  have hwalks : ∀ d, (diAnswer bnrOffsets disc true m).walks d = false := by
    intro d
    simp [DiAnswer.walks, diAnswer]
  have hpoll : discBannerPoll (diAnswer bnrOffsets disc true m) ⟨k, 0, frames, offset, some read, true⟩ = _ :=
    discBannerPoll_busy rfl hk hk' hframes
  simp only [DiscReader.poll, hbusy, if_true, reading_mem, reading_banner, reading_waited, hpoll, hwalks,
    Bool.false_eq_true, if_false]
  rfl

/-- The polls a read is waited for. -/
theorem works_read (hk : 1 ≤ k) (hk' : k ≤ 4) : ∀ j : Nat, j ≤ wait k → frames + j ≤ 900 →
    Polling.Works (DiscReader.poll bnrOffsets disc wait) 0 j (reading k frames 0 offset read m)
      (reading k (frames + j) j offset read m) := by
  intro j
  induction j with
  | zero => exact fun _ _ => rfl
  | succ j ih =>
    intro hj hframes
    exact (ih (by omega) (by omega)).trans (.one (poll_busy hk hk' (by omega) (by omega)))

/-- The poll that finds a read over. -/
theorem poll_over (hk : 1 ≤ k) (hk' : k ≤ 4) {m' : Cells UInt8}
    (hm : m.put read.dst.area 0 (disc.bytesAt (driveAt read.offset) read.len) = m') :
    DiscReader.poll bnrOffsets disc wait (reading k frames (wait k) offset read m) =
      ((discBannerPoll (diAnswer bnrOffsets disc false m') ⟨k, 0, frames, offset, some read, true⟩).1,
        ⟨(discBannerPoll (diAnswer bnrOffsets disc false m') ⟨k, 0, frames, offset, some read, true⟩).2,
          if (diAnswer bnrOffsets disc false m').walks ⟨k, 0, frames, offset, some read, true⟩ then
            (getBannerOffsetSlow.run (discAnswer disc driveAt) m').2
          else m', 0⟩) := by
  have hbusy : (reading k frames (wait k) offset read m).busy wait = false := by
    rw [busy_reading hk hk', decide_eq_false (Nat.lt_irrefl _)]
  have hlanded : (reading k frames (wait k) offset read m).landed disc = m' := (landed_reading hk hk').trans hm
  simp only [DiscReader.poll, hbusy, hlanded, Bool.false_eq_true, if_false, reading_banner]

theorem walks_not_two {a : DiAnswer} (h : k ≠ 2) :
    a.walks ⟨k, 0, frames, offset, some read, true⟩ = false := by
  rw [DiAnswer.walks, decide_eq_false_iff_not]
  rintro ⟨-, hstep, -⟩
  have htwo : (k : Int) = 2 := hstep
  omega

/-- The disc-ID read over: the header is next. -/
theorem poll_one (hframes : frames < 900) :
    DiscReader.poll bnrOffsets disc wait (reading 1 frames (wait 1) offset read m) =
      (0, reading 2 (frames + 1) 0 offset ⟨.header, sizeofDiskHeader, 0⟩
        (m.put read.dst.area 0 (disc.bytesAt (driveAt read.offset) read.len))) := by
  rw [poll_over (by decide) (by decide) rfl, walks_not_two (by decide)]
  simp only [discBannerPoll, if_neg (inTime hframes)]
  rfl

/-- Where the disc screen looks for the banner. -/
def lookedAt (disc : Disc) (bnrOffsets : List BnrOffset) (m : Cells UInt8) : UInt32 :=
  if disc.known bnrOffsets ≠ 0 then disc.known bnrOffsets else disc.named driveAt m

/-- What a poll finds in a memory with the header. -/
theorem diAnswer_header (bnrOffsets : List BnrOffset) (h : HasHeader disc m) :
    (diAnswer bnrOffsets disc false m).magicWord = disc.word 0x1C ∧
      (diAnswer bnrOffsets disc false m).bannerOffset = lookedAt disc bnrOffsets m := by
  have hmagic : wordAt m .header 0x1C = disc.word 0x1C := h.word (by decide)
  have hsize : wordAt m .header fstSizeAt = disc.word 0x428 := h.word (by decide)
  refine ⟨hmagic, ?_⟩
  rw [lookedAt, Disc.named, ← h.withTable]
  simp only [DiAnswer.bannerOffset, diAnswer, run_getBannerOffsetFast, h.known, hsize, (run_getBannerOffsetSlow m).2]
  by_cases hlarge : 0x100000 < disc.word 0x428
  · rw [if_pos hlarge, if_neg (UInt32.not_le.mpr hlarge)]
  · rw [if_neg hlarge, if_pos (UInt32.not_lt.mp hlarge)]

/-- The header read over. -/
theorem poll_two {m' : Cells UInt8} (hm : m.put .header 0 (disc.bytesAt 0 sizeofDiskHeader) = m')
    (hmagic : disc.word 0x1C = dvdMagicWord) (hframes : frames < 900) :
    (lookedAt disc bnrOffsets m' = 0 →
      (DiscReader.poll bnrOffsets disc wait
        (reading 2 frames (wait 2) offset ⟨.header, sizeofDiskHeader, 0⟩ m)).1 = -1) ∧
    (lookedAt disc bnrOffsets m' ≠ 0 → ∃ m'', DiscReader.poll bnrOffsets disc wait
        (reading 2 frames (wait 2) offset ⟨.header, sizeofDiskHeader, 0⟩ m) =
      (0, reading 3 (frames + 1) 0 (lookedAt disc bnrOffsets m') ⟨.scratch, 32, lookedAt disc bnrOffsets m'⟩ m'')) := by
  have hheader : HasHeader disc m' := hm ▸ hasHeader_read disc m
  obtain ⟨hword, hoffset⟩ := diAnswer_header bnrOffsets hheader
  have hright : ¬ (diAnswer bnrOffsets disc false m').magicWord ≠ dvdMagicWord := by
    rw [hword]
    exact not_not.mpr hmagic
  rw [poll_over (by decide) (by decide) hm]
  simp only [discBannerPoll, if_neg (inTime hframes)]
  simp only [Nat.cast_ofNat, if_neg hright, hoffset]
  constructor
  · intro hzero
    rw [if_pos hzero]
    rfl
  · intro hne
    rw [if_neg hne]
    exact ⟨_, rfl⟩

/-- The probe over. -/
theorem poll_three (hdvd : 4 ∣ offset.toNat) (hne : offset ≠ 0) (hframes : frames < 900) :
    (disc.bannerAt offset = none →
      (DiscReader.poll bnrOffsets disc wait (reading 3 frames (wait 3) offset ⟨.scratch, 32, offset⟩ m)).1 = -1) ∧
    (disc.bannerAt offset ≠ none → ∃ m', DiscReader.poll bnrOffsets disc wait
        (reading 3 frames (wait 3) offset ⟨.scratch, 32, offset⟩ m) =
      (0, reading 4 (frames + 1) 0 offset ⟨.out, sizeofBnr, offset⟩ m')) := by
  have hmagic : (diAnswer bnrOffsets disc false
      (m.put .smallBuf 0 (disc.bytesAt (driveAt offset) 32))).bannerMagic = disc.word offset.toNat := by
    rw [driveAt_of_dvd hdvd]
    exact wordAt_read disc m .smallBuf offset.toNat (i := 0) (by decide)
  rw [poll_over (by decide) (by decide) rfl, walks_not_two (by decide)]
  simp only [discBannerPoll, if_neg (inTime hframes)]
  simp only [Nat.cast_ofNat, DbrBuffer.area, hmagic, ne_eq, disc.bannerAt_eq_none hne]
  constructor
  · intro hwrong
    rw [if_pos hwrong]
    rfl
  · intro hright
    rw [if_neg hright]
    exact ⟨_, rfl⟩

/-- The banner read over. -/
theorem poll_four (hdvd : 4 ∣ offset.toNat) (hframes : frames < 900) :
    (DiscReader.poll bnrOffsets disc wait (reading 4 frames (wait 4) offset ⟨.out, sizeofBnr, offset⟩ m)).1 = 1 ∧
    (DiscReader.poll bnrOffsets disc wait (reading 4 frames (wait 4) offset ⟨.out, sizeofBnr, offset⟩ m)).2.mem =
      m.put .bannerBuffer 0 (disc.bytesAt offset.toNat sizeofBnr) := by
  rw [poll_over (by decide) (by decide) rfl, walks_not_two (by decide), driveAt_of_dvd hdvd]
  simp only [discBannerPoll, if_neg (inTime hframes)]
  exact ⟨rfl, rfl⟩

end

/-! ## The whole read -/

namespace TwoReaders
variable (w : TwoReaders)

def start : DiscReader := ⟨discBannerStart w.before, w.driveMem, 0⟩

def Reaches (frames : Nat) (r : DiscReader) : Prop :=
  Polling.Works (DiscReader.poll w.bnrOffsets w.disc w.wait) 0 frames w.start r

def looks : UInt32 := lookedAt w.disc w.bnrOffsets w.driveMem

/-- The first poll asks for the disc ID. -/
theorem reaches_one : w.Reaches 1 (reading 1 1 0 0 ⟨.scratch, 32, 0⟩ w.driveMem) := by
  have hwalks : ∀ a : DiAnswer, a.walks (discBannerStart w.before) = false := by
    intro a
    rw [DiAnswer.walks, decide_eq_false_iff_not]
    rintro ⟨-, hstep, -⟩
    cases hstep
  have htransfer : w.start.transfer = none := if_neg fun h => absurd h.1 (Int.lt_irrefl 0)
  have hbusy : w.start.busy w.wait = false := by rw [DiscReader.busy, htransfer]; rfl
  have hlanded : w.start.landed w.disc = w.driveMem := by rw [DiscReader.landed, htransfer]; rfl
  refine .one ?_
  simp only [DiscReader.poll, hbusy, hlanded, Bool.false_eq_true, if_false]
  simp only [start, hwalks]
  rfl

/-- What is waited for is over. -/
theorem Reaches.waited {w : TwoReaders} {k frames : Nat} {offset : UInt32} {read : DiRead} {m : Cells UInt8}
    (h : w.Reaches frames (reading k frames 0 offset read m)) (hk : 1 ≤ k) (hk' : k ≤ 4)
    (hframes : frames + w.wait k ≤ 900) :
    w.Reaches (frames + w.wait k) (reading k (frames + w.wait k) (w.wait k) offset read m) :=
  h.trans (works_read hk hk' _ (Nat.le_refl _) hframes)

theorem reaches_two : ∃ m, m .ram = w.driveMem .ram ∧ w.Reaches (w.wait 1 + w.wait 2 + 2)
    (reading 2 (w.wait 1 + w.wait 2 + 2) (w.wait 2) 0 ⟨.header, sizeofDiskHeader, 0⟩ m) := by
  have htime := w.inTime
  have hone := w.reaches_one.waited (by decide) (by decide) (by omega)
  have hnext := hone.trans (.one (poll_one (by omega)))
  have htwo := Reaches.waited hnext (by decide) (by decide) (by omega)
  rw [show 1 + w.wait 1 + 1 + w.wait 2 = w.wait 1 + w.wait 2 + 2 by omega] at htwo
  exact ⟨_, put_other _ (by decide) _ _, htwo⟩

/-- What step 2 comes to. -/
theorem lookedAt_header {m : Cells UInt8} (h : m .ram = w.driveMem .ram) :
    lookedAt w.disc w.bnrOffsets (m.put .header 0 (w.disc.bytesAt 0 sizeofDiskHeader)) = w.looks := by
  have hram : (m.put .header 0 (w.disc.bytesAt 0 sizeofDiskHeader)) .ram = w.driveMem .ram :=
    (put_other m (by decide) _ _).trans h
  rw [looks, lookedAt, lookedAt, w.disc.named_congr driveAt hram]

theorem looks_words : 4 ∣ w.looks.toNat := by
  rw [looks, lookedAt]
  split
  · exact w.known_words
  · exact w.named_words

theorem reaches_three (h : w.looks ≠ 0) : ∃ m, w.Reaches (w.wait 1 + w.wait 2 + w.wait 3 + 3)
    (reading 3 (w.wait 1 + w.wait 2 + w.wait 3 + 3) (w.wait 3) w.looks ⟨.scratch, 32, w.looks⟩ m) := by
  have htime := w.inTime
  have htwo_lt : w.wait 1 + w.wait 2 + 2 < 900 := by omega
  obtain ⟨m, hram, htwo⟩ := w.reaches_two
  have hlooks := w.lookedAt_header hram
  obtain ⟨m', hpoll⟩ := (poll_two rfl w.magic htwo_lt).2 (hlooks ▸ h)
  rw [hlooks] at hpoll
  have hnext := htwo.trans (.one hpoll)
  have hthree := Reaches.waited hnext (by decide) (by decide) (by omega)
  rw [show w.wait 1 + w.wait 2 + 2 + 1 + w.wait 3 = w.wait 1 + w.wait 2 + w.wait 3 + 3 by omega] at hthree
  exact ⟨m', hthree⟩

theorem reaches_four (h : w.disc.bannerAt w.looks ≠ none) (hne : w.looks ≠ 0) : ∃ m,
    w.Reaches (w.wait 1 + w.wait 2 + w.wait 3 + w.wait 4 + 4) (reading 4
      (w.wait 1 + w.wait 2 + w.wait 3 + w.wait 4 + 4) (w.wait 4) w.looks ⟨.out, sizeofBnr, w.looks⟩ m) := by
  have htime := w.inTime
  have hthree_lt : w.wait 1 + w.wait 2 + w.wait 3 + 3 < 900 := by omega
  obtain ⟨m, hthree⟩ := w.reaches_three hne
  obtain ⟨m', hpoll⟩ := (poll_three w.looks_words hne hthree_lt).2 h
  have hnext := hthree.trans (.one hpoll)
  have hfour := Reaches.waited hnext (by decide) (by decide) (by omega)
  rw [show w.wait 1 + w.wait 2 + w.wait 3 + 3 + 1 + w.wait 4 = w.wait 1 + w.wait 2 + w.wait 3 + w.wait 4 + 4 by
    omega] at hfour
  exact ⟨m', hfour⟩

theorem Reaches.polled {w : TwoReaders} {frames : Nat} {r : DiscReader} (h : w.Reaches frames r)
    (hanswer : (DiscReader.poll w.bnrOffsets w.disc w.wait r).1 ≠ 0) (hframes : frames < 900) :
    w.polled = DiscReader.poll w.bnrOffsets w.disc w.wait r :=
  h.answered hanswer hframes

theorem Reaches.gives {w : TwoReaders} {frames : Nat} {r : DiscReader} {x : Int} (h : w.Reaches frames r)
    (hpoll : (DiscReader.poll w.bnrOffsets w.disc w.wait r).1 = x) (hx : x ≠ 0) (hframes : frames < 900) :
    w.polled.1 = x := by
  rw [h.polled (by rwa [hpoll]) hframes, hpoll]

theorem looks_ne_zero (h : w.disc.bannerAt w.looks ≠ none) : w.looks ≠ 0 := by
  intro hzero
  rw [hzero] at h
  exact h w.disc.bannerAt_zero

/-- There is a banner: it is delivered. -/
theorem polled_found (h : w.disc.bannerAt w.looks ≠ none) :
    w.polled.1 = 1 ∧ w.delivered = w.disc.bytesAt w.looks.toNat sizeofBnr := by
  have hlt : w.wait 1 + w.wait 2 + w.wait 3 + w.wait 4 + 4 < 900 := Nat.lt_of_succ_le w.inTime
  obtain ⟨m, hfour⟩ := w.reaches_four h (w.looks_ne_zero h)
  have hend := hfour.polled (by rw [(poll_four w.looks_words hlt).1]; decide) hlt
  refine ⟨by rw [hend, (poll_four w.looks_words hlt).1], ?_⟩
  rw [delivered, hend, (poll_four w.looks_words hlt).2]
  exact map_put_bytesAt w.disc m .bannerBuffer _ sizeofBnr

/-- There is none: the read is given up. -/
theorem polled_lost (h : w.disc.bannerAt w.looks = none) : w.polled.1 = -1 := by
  have htime := w.inTime
  have htwo_lt : w.wait 1 + w.wait 2 + 2 < 900 := by omega
  have hthree_lt : w.wait 1 + w.wait 2 + w.wait 3 + 3 < 900 := by omega
  by_cases hzero : w.looks = 0
  · obtain ⟨m, hram, htwo⟩ := w.reaches_two
    have hlooks := w.lookedAt_header hram
    exact htwo.gives ((poll_two rfl w.magic htwo_lt).1 (hlooks ▸ hzero)) (by decide) htwo_lt
  · obtain ⟨m, hthree⟩ := w.reaches_three hzero
    exact hthree.gives ((poll_three w.looks_words hzero hthree_lt).1 h) (by decide) hthree_lt

/-! ## When they agree -/

/-- The banner in the image file, if there is one. -/
def inFile : Option (List UInt8) :=
  (w.disc.fileBanner w.bnrOffsets w.imageMem).map fun offset => w.disc.bytesAt offset.toNat sizeofBnr

theorem inFile_eq : w.inFile = (w.found (w.disc.known w.bnrOffsets)).or
    (w.found (w.disc.named UInt32.toNat w.imageMem)) := by
  rw [inFile, Disc.fileBanner, found, found]
  cases w.disc.bannerAt (w.disc.known w.bnrOffsets) <;> rfl

/-- The two agree exactly if the disc screen looks where the image file's banner is, or where
there is none if the file has none. -/
theorem sameBanner_iff_found : w.SameBanner ↔ w.found w.looks = w.inFile := by
  have hinfo : w.info.banner = w.disc.fileBanner w.bnrOffsets w.imageMem := run_getGameInfo ..
  cases hlooks : w.disc.bannerAt w.looks with
  | none =>
    have hpolled := w.polled_lost hlooks
    have hlost : w.polled.1 ≠ 1 := by
      rw [hpolled]
      decide
    rw [found, hlooks, Option.map_none, eq_comm, inFile, Option.map_eq_none_iff, ← hinfo, GameInfo.banner_eq_none]
    constructor
    · exact fun h => Bool.eq_false_iff.mpr fun hvalid => hlost (h.valid.mpr hvalid)
    · intro hinvalid
      refine ⟨by rw [hpolled]; decide, ?_, fun h => absurd h hlost⟩
      rw [hinvalid]
      exact iff_of_false hlost Bool.false_ne_true
  | some offset =>
    obtain rfl := w.disc.bannerAt_eq_some hlooks
    obtain ⟨hpolled, hdelivered⟩ := w.polled_found (by rw [hlooks]; exact Option.some_ne_none _)
    rw [found, hlooks, Option.map_some, inFile, ← hinfo, eq_comm, Option.map_eq_some_iff]
    constructor
    · intro h
      exact ⟨_, GameInfo.banner_eq_some.mpr ⟨h.valid.mp hpolled, rfl⟩, (h.same hpolled).symm.trans hdelivered⟩
    · rintro ⟨offset, hbanner, hbytes⟩
      obtain ⟨hvalid, rfl⟩ := GameInfo.banner_eq_some.mp hbanner
      exact ⟨by rw [hpolled]; decide, iff_of_true hpolled hvalid, fun _ => hdelivered.trans hbytes.symm⟩

/-- For every disc with the magic word, every table of known offsets and every memory. -/
theorem same_banner_iff : w.SameBanner ↔ w.Alike := by
  rw [sameBanner_iff_found, inFile_eq, Alike, looks, lookedAt]
  by_cases hzero : w.disc.known w.bnrOffsets = 0
  · have hnone : w.found (w.disc.known w.bnrOffsets) = none := by rw [found, hzero, Disc.bannerAt_zero, Option.map_none]
    rw [if_neg (not_not.mpr hzero), if_neg (not_not.mpr hzero), hnone, Option.none_or]
    exact eq_comm
  · rw [if_pos hzero, if_pos hzero]
    cases w.found (w.disc.known w.bnrOffsets) with
    | none =>
      rw [Option.none_or]
      exact ⟨fun h => .inr h.symm, fun h => (h.resolve_left fun h => h rfl).symm⟩
    | some bytes => exact iff_of_true rfl (.inl (Option.some_ne_none _))

/-- A file system table that the drive finds where the file has it, and a walk that stays in
it: the walks find the same, whatever the memory. -/
theorem walks_alike (hwords : 4 ∣ (w.disc.word 0x424).toNat) {info : BnrInfo}
    (hwalk : walk (w.disc.table UInt32.toNat) = some info) :
    w.disc.named UInt32.toNat w.imageMem = w.disc.named driveAt w.driveMem := by
  have hsame : w.disc.table driveAt = w.disc.table UInt32.toNat := by
    rw [Disc.table, Disc.table, driveAt_of_dvd hwords]
  have hany : ∀ m : Cells UInt8, w.disc.word 0x428 ≤ 0x100000 →
      tableBanner (m.put .ram fstBase (w.disc.table UInt32.toNat)) = info.offset := by
    intro m hsize
    have hram : (m.put .header 0 (w.disc.bytesAt 0 sizeofDiskHeader)) .ram = m .ram := put_other m (by decide) _ _
    rw [← tableBanner_congr (put_congr hram _ _)]
    exact tableBanner_eq (hasHeader_read w.disc m) hsize hwalk
  rw [Disc.named, Disc.named, hsame]
  split
  · rfl
  · rename_i hsize
    rw [hany _ (UInt32.not_lt.mp hsize), hany _ (UInt32.not_lt.mp hsize)]

end TwoReaders

/-! ## A banner that has moved -/

/-- Zeros, and the pieces at their positions. -/
def laidOut (pieces : List (Nat × List UInt8)) (k : Nat) : UInt8 :=
  pieces.foldl (fun b piece => if piece.1 ≤ k then piece.2.getD (k - piece.1) b else b) 0

/-- A disc whose file system table has `opening.bnr` at `0x800`. -/
def movedDisc : Disc where
  byte := laidOut [(0x1C, [0xC2, 0x33, 0x9F, 0x3D]), (0x420, [0, 0, 0x25, 0] ++ [0, 0, 4, 0x40] ++ [0, 0, 0, 0x24]),
    (0x440, [1, 0, 0, 0, 0, 0, 0, 0, 0, 0, 0, 2] ++ [0, 0, 0, 0, 0, 0, 8, 0, 0, 0, 0x1F, 0xA0] ++ openingBnr ++ [0]),
    (0x800, cstr "BNR1")]
  size := 0x57058000

/-- A row for the disc's header. -/
def rowFor (disc : Disc) (offset : UInt32) : BnrOffset := ⟨tinfCrc32 (disc.bytesAt 0 sizeofDiskHeader), offset⟩

theorem find_own_row (hash offset : UInt32) :
    [BnrOffset.mk hash offset].find? (·.hash == hash) = some ⟨hash, offset⟩ :=
  List.find?_cons_of_pos (beq_self_eq_true hash)

theorem known_rowFor {disc : Disc} (hdol : disc.word 0x420 ≠ 0) (offset : UInt32) :
    disc.known [rowFor disc offset] = offset := by
  rw [Disc.known, if_neg hdol, rowFor, find_own_row]

theorem movedDisc_known : movedDisc.known [rowFor movedDisc 0x1000] = 0x1000 :=
  known_rowFor (by decide) 0x1000

theorem movedDisc_named (place : UInt32 → Nat) (h : place 0x440 = 0x440) :
    movedDisc.named place (fun _ _ => 0) = 0x800 := by
  have hoffset : movedDisc.word 0x424 = 0x440 := by decide
  have htable : movedDisc.table place = movedDisc.bytesAt 0x440 0x40 := by
    rw [Disc.table, hoffset, h]
    rfl
  rw [Disc.named, htable]
  decide +kernel

def movedBanner : TwoReaders where
  bnrOffsets := [rowFor movedDisc 0x1000]
  disc := movedDisc
  path := []
  imageMem := fun _ _ => 0
  driveMem := fun _ _ => 0
  before := ⟨-1, 0, 0, 0, none, false⟩
  wait := fun _ => 0
  magic := by decide
  inTime := by decide
  known_words := by
    rw [movedDisc_known]
    decide
  named_words := by
    rw [movedDisc_named driveAt (by decide)]
    decide

/-- The list shows the game with the banner at `0x800`; the disc screen finds no disc. -/
theorem moved_banner_not_found : ¬ ∀ w : TwoReaders, w.SameBanner := by
  intro hall
  have hlooks : movedBanner.looks = 0x1000 := by
    rw [TwoReaders.looks, lookedAt, movedBanner, movedDisc_known]
    rfl
  have hfile : movedDisc.bannerAt (movedDisc.named UInt32.toNat fun _ _ => 0) = some 0x800 := by
    rw [movedDisc_named UInt32.toNat rfl]
    decide
  have hsame := movedBanner.sameBanner_iff_found.mp (hall movedBanner)
  have hnone : movedBanner.found 0x1000 = none := by decide
  rw [hlooks, hnone, movedBanner.inFile_eq] at hsame
  have hfound : movedBanner.found (movedBanner.disc.named UInt32.toNat movedBanner.imageMem) = none :=
    (Option.or_eq_none_iff.mp hsame.symm).2
  rw [TwoReaders.found, Option.map_eq_none_iff] at hfound
  exact absurd (hfile.symm.trans hfound) (Option.some_ne_none _)

end Cubiboot
