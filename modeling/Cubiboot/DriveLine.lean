import Cubiboot.Lib.Run
import Cubiboot.DiscBanner

/-
  The drive interface under the disc screen: one start bit, and the commands the
  banner read issues over it (`dolphin_dvd.c`, `dvd_custom_bypass_enter`/`_exit`,
  `dvd_stop_motor`, `fldrv.c`).

  A command sets the start bit, the drive clears it when it is done. `DiLine` is
  the bit with whose transfer it belongs to, and the log of what was issued over
  what. How long a transfer takes is the drive's affair (`DriveTiming`); the state
  of the read itself is `DiscBanner`'s.

  What is proved:
    1. `poll_banner` — with the start bit as the busy flag, the poll does to the
       read's state what `discBannerPoll` does.
    2. `fail_apart`, `startRead_apart` — giving up and reading are safe exactly
       when no transfer of the poll is live.
    3. `one_transfer_iff` — over every run of starts, polls and cancels, no command
       goes out over a live transfer exactly if no poll gives up, or asks for the
       disc ID, with one live.
    4. `timeout_over_read` — a drive that never answers: the 901st poll sends the
       stop-motor command over its read.

  Correspondence (C ↔ Lean):
    `di_wait`                             ↔ `DiLine.wait`
    `dvd_stop_motor`, `fldrv_xfer`        ↔ `DiLine.stopMotor`, `DiLine.xfer`
    `dvd_custom_bypass_enter`, `_exit`    ↔ `DriveSys.bypassEnter`, `DriveSys.bypassExit`
    `disc_banner_start`, `_poll`, `_cancel` ↔ `DriveSys.start`, `DriveSys.poll`, `DriveSys.cancel`
    `get_banner_offset_slow` (its read)   ↔ `DriveSys.readFst`
-/

set_option autoImplicit false

namespace Cubiboot

inductive DiCommand where
  | read | stopMotor | bypassEnter | bypassExit
  deriving DecidableEq, Repr

/-- The transfer whose start bit is set: whether the poll started it, and whether a
full `di_wait` on it has expired. -/
structure DiPending where
  byPoll : Bool
  expired : Bool
  deriving DecidableEq, Repr

/-- A command, and the transfer it went out over. -/
structure DiIssue where
  cmd : DiCommand
  during : Option DiPending
  deriving DecidableEq, Repr

/-- `log` is history: nothing reads it. -/
structure DiLine where
  pending : Option DiPending
  log : List DiIssue
  deriving DecidableEq, Repr

/-- How the drive answers during a call: whether what was in flight has ended when the
call comes; whether `disc_banner_cancel`'s wait, the stop-motor command and the
bypass magic are answered before `di_wait` expires; whether the reset ends a
transfer. -/
structure DriveTiming where
  ended : Bool
  waited : Bool
  stopped : Bool
  magic : Bool
  reset : Bool
  deriving DecidableEq, Repr

/-- `di_busy`. -/
def DiLine.busy (l : DiLine) : Bool := l.pending.isSome

def DiLine.issue (cmd : DiCommand) (byPoll : Bool) (l : DiLine) : DiLine :=
  ⟨some ⟨byPoll, false⟩, l.log ++ [⟨cmd, l.pending⟩]⟩

/-- Bounded: `answered` says whether the bit cleared in time. -/
def DiLine.wait (answered : Bool) (l : DiLine) : DiLine :=
  { l with pending := if answered then none else l.pending.map fun p => { p with expired := true } }

def DiLine.stopMotor (t : DriveTiming) (l : DiLine) : DiLine := (l.issue .stopMotor false).wait t.stopped

def DiLine.xfer (cmd : DiCommand) (t : DriveTiming) (l : DiLine) : DiLine := (l.issue cmd false).wait t.magic

structure DriveSys where
  banner : DiscBanner
  line : DiLine
  deriving DecidableEq, Repr

section
variable (native : Bool)

/-- The FlippyDrive goes transparent, then the drive is reset. -/
def DriveSys.bypassEnter (t : DriveTiming) (s : DriveSys) : DriveSys :=
  let line := if native then s.line.xfer .bypassEnter t else s.line
  ⟨dvdCustomBypassEnter s.banner, if t.reset then { line with pending := none } else line⟩

/-- Motor first, magic second. -/
def DriveSys.bypassExit (t : DriveTiming) (s : DriveSys) : DriveSys :=
  let line := s.line.stopMotor t
  ⟨dvdCustomBypassExit s.banner, if native then line.xfer .bypassExit t else line⟩

def DriveSys.startRead (dst : DbrBuffer) (len offset : UInt32) (next : Int) (s : DriveSys) : Int × DriveSys :=
  let (result, banner) := diStartRead dst len offset next s.banner
  (result, ⟨banner, s.line.issue .read true⟩)

/-- `dbr_fail`. -/
def DriveSys.fail (t : DriveTiming) (s : DriveSys) : Int × DriveSys :=
  let s := s.bypassExit native t
  (-1, { s with banner := { s.banner with step := -1 } })

/-- The blocking FST read: it spins until the bit is clear. In bypass, or on a
FlippyDrive, it is a drive command; else a file is read. -/
def DriveSys.readFst (s : DriveSys) : DriveSys :=
  if s.banner.passthrough || native then { s with line := (s.line.issue .read true).wait true } else s

def DriveSys.start (t : DriveTiming) (s : DriveSys) : DriveSys :=
  DriveSys.bypassEnter native t
    { s with banner := { s.banner with step := 0, retry := 0, frames := 0, offset := 0 } }

def DriveSys.cancel (t : DriveTiming) (s : DriveSys) : DriveSys :=
  if s.banner.step < 0 ∨ 4 < s.banner.step then s
  else
    let s := DriveSys.bypassExit native t { s with line := s.line.wait t.waited }
    { s with banner := { s.banner with step := -1 } }

/-- Whether the table does not answer and the FST is small enough to walk. -/
def DiAnswer.walksFst (a : DiAnswer) : Bool := a.fastOffset = 0 ∧ a.fstSize ≤ 0x100000

def DriveSys.poll (a : DiAnswer) (t : DriveTiming) (s : DriveSys) : Int × DriveSys :=
  let s := { s with banner := { s.banner with frames := s.banner.frames + 1 } }
  if dbrTimeoutFrames < s.banner.frames then s.fail native t
  else
    match s.banner.step with
    | 0 =>
      if 0 < s.banner.retry then (0, { s with banner := { s.banner with retry := s.banner.retry - 1 } })
      else s.startRead .scratch 32 0 1
    | 1 =>
      if s.line.busy then (0, s)
      else if a.failed then (0, { s with banner := { s.banner with retry := dbrRetryFrames, step := 0 } })
      else s.startRead .header sizeofDiskHeader 0 2
    | 2 =>
      if s.line.busy then (0, s)
      else if a.failed then s.fail native t
      else if a.magicWord ≠ dvdMagicWord then s.fail native t
      else
        let s := if a.walksFst then s.readFst native else s
        let s := { s with banner := { s.banner with offset := a.bannerOffset } }
        if a.bannerOffset = 0 then s.fail native t else s.startRead .scratch 32 a.bannerOffset 3
    | 3 =>
      if s.line.busy then (0, s)
      else if a.failed then s.fail native t
      else if a.bannerMagic ≠ bannerMagic1 ∧ a.bannerMagic ≠ bannerMagic2 then s.fail native t
      else s.startRead .out sizeofBnr s.banner.offset 4
    | 4 =>
      if s.line.busy then (0, s)
      else if a.failed then s.fail native t
      else
        let s := s.bypassExit native t
        (1, { s with banner := { s.banner with step := 5 } })
    | _ => (-1, s)

end

/-! ## Runs -/

inductive DriveLabel where
  | start (t : DriveTiming)
  | poll (a : DiAnswer) (t : DriveTiming)
  | cancel (t : DriveTiming)

/-- Between two calls the drive may finish what was in flight. -/
def DriveSys.settle (t : DriveTiming) (s : DriveSys) : DriveSys :=
  if t.ended then { s with line := { s.line with pending := none } } else s

def driveStep (native : Bool) (s : DriveSys) : DriveLabel → DriveSys
  | .start t => (s.settle t).start native t
  | .poll a t => ((s.settle t).poll native a t).2
  | .cancel t => (s.settle t).cancel native t

/-- The statics before the first call, the drive idle. -/
def DriveSys.idle : DriveSys := ⟨⟨0, 0, 0, 0, none, false⟩, ⟨none, []⟩⟩

/-- A transfer of the poll, with its start bit set and no wait on it expired. -/
def DiPending.live (p : DiPending) : Bool := p.byPoll && !p.expired

def DiLine.Live (l : DiLine) : Prop := ∃ p ∈ l.pending, p.live = true

/-- A read, the stop-motor command or the exit magic did not go out over a live transfer. -/
def DiIssue.Apart (i : DiIssue) : Prop := i.cmd ≠ .bypassEnter → ∀ p ∈ i.during, p.live = false

def OneAtATime (s : DriveSys) : Prop := ∀ i ∈ s.line.log, i.Apart

/-- The condition on a step: a poll that finds a live transfer neither gives up, at
the frame limit, nor asks for the disc ID. -/
def LeavesRoom (s : DriveSys) : DriveLabel → Prop
  | .poll _ t => (s.settle t).line.Live →
      s.banner.frames + 1 ≤ dbrTimeoutFrames ∧ ¬ (s.banner.step = 0 ∧ s.banner.retry ≤ 0)
  | _ => True

/-! ## The read's own state -/

section
variable (native : Bool)

theorem readFst_banner (s : DriveSys) : (s.readFst native).banner = s.banner := by
  rw [DriveSys.readFst]
  split <;> rfl

/-- The walk leaves the read's own state alone. -/
theorem walk_banner (a : DiAnswer) (s : DriveSys) :
    (if a.walksFst then s.readFst native else s).banner = s.banner := by
  split
  · exact readFst_banner native s
  · rfl

/-- With the start bit as the busy flag, the poll is `discBannerPoll`. -/
theorem poll_banner (a : DiAnswer) (t : DriveTiming) (s : DriveSys) :
    let plain := discBannerPoll { a with busy := s.line.busy } s.banner
    (s.poll native a t).1 = plain.1 ∧ (s.poll native a t).2.banner = plain.2 := by
  have hsteps : s.banner.step = 0 ∨ s.banner.step = 1 ∨ s.banner.step = 2 ∨ s.banner.step = 3 ∨
      s.banner.step = 4 ∨ (s.banner.step ≠ 0 ∧ s.banner.step ≠ 1 ∧ s.banner.step ≠ 2 ∧ s.banner.step ≠ 3 ∧
        s.banner.step ≠ 4) := by omega
  simp only [DriveSys.poll, discBannerPoll]
  split
  · exact ⟨rfl, rfl⟩
  · obtain h | h | h | h | h | ⟨h0, h1, h2, h3, h4⟩ := hsteps
    · simp only [h]
      split <;> exact ⟨rfl, rfl⟩
    · simp only [h]
      split
      · exact ⟨rfl, rfl⟩
      · split <;> exact ⟨rfl, rfl⟩
    · have hoffset : DiAnswer.bannerOffset { a with busy := s.line.busy } = a.bannerOffset := rfl
      simp only [h, hoffset]
      split
      · exact ⟨rfl, rfl⟩
      · split
        · exact ⟨rfl, rfl⟩
        · split
          · exact ⟨rfl, rfl⟩
          · simp only [walk_banner]
            split
            · rename_i hzero
              rw [hzero]
              exact ⟨rfl, rfl⟩
            · exact ⟨rfl, rfl⟩
    · simp only [h]
      split
      · exact ⟨rfl, rfl⟩
      · split
        · exact ⟨rfl, rfl⟩
        · split <;> exact ⟨rfl, rfl⟩
    · simp only [h]
      split
      · exact ⟨rfl, rfl⟩
      · split <;> exact ⟨rfl, rfl⟩
    · simp

/-! ## What each call issues -/

theorem issue_log (cmd : DiCommand) (byPoll : Bool) (l : DiLine) (i : DiIssue) :
    i ∈ (l.issue cmd byPoll).log ↔ i ∈ l.log ∨ i = ⟨cmd, l.pending⟩ := by
  rw [DiLine.issue, List.mem_append, List.mem_singleton]

/-- Issuing a command keeps what was issued apart exactly if it goes out apart itself. -/
theorem issue_apart (cmd : DiCommand) (byPoll : Bool) (l : DiLine) :
    (∀ i ∈ (l.issue cmd byPoll).log, i.Apart) ↔ (∀ i ∈ l.log, i.Apart) ∧ DiIssue.Apart ⟨cmd, l.pending⟩ := by
  simp only [issue_log]
  constructor
  · exact fun h => ⟨fun i hi => h i (.inl hi), h _ (.inr rfl)⟩
  · intro h i hi
    obtain hi | rfl := hi
    · exact h.1 i hi
    · exact h.2

theorem apart_iff {cmd : DiCommand} (hc : cmd ≠ .bypassEnter) (l : DiLine) :
    DiIssue.Apart ⟨cmd, l.pending⟩ ↔ ¬ l.Live := by
  constructor
  · intro h hl
    obtain ⟨p, hp, hlive⟩ := hl
    rw [h hc p hp] at hlive
    cases hlive
  · intro h _ p hp
    exact Bool.eq_false_iff.mpr fun hlive => h ⟨p, hp, hlive⟩

/-- Once a command that is not the poll's is out, nothing of the poll is live. -/
theorem issue_wait_dead (cmd : DiCommand) (answered : Bool) (l : DiLine) :
    ¬ ((l.issue cmd false).wait answered).Live := by
  intro h
  obtain ⟨p, hp, hlive⟩ := h
  cases answered with
  | true => cases hp
  | false =>
    obtain rfl : (⟨false, true⟩ : DiPending) = p := Option.some.inj hp
    cases hlive

/-- A full wait, and nothing is live whether it was answered or not. -/
theorem wait_dead (answered : Bool) (l : DiLine) : ¬ (l.wait answered).Live := by
  intro h
  obtain ⟨p, hp, hlive⟩ := h
  cases answered with
  | true => cases hp
  | false =>
    obtain ⟨q, -, rfl⟩ := Option.map_eq_some_iff.mp hp
    simp [DiPending.live] at hlive

theorem bypassExit_apart (t : DriveTiming) (s : DriveSys) :
    OneAtATime (s.bypassExit native t) ↔ OneAtATime s ∧ ¬ s.line.Live := by
  have hmotor : (∀ i ∈ (s.line.stopMotor t).log, i.Apart) ↔ OneAtATime s ∧ ¬ s.line.Live := by
    have hcmd : DiCommand.stopMotor ≠ .bypassEnter := by decide
    rw [← apart_iff hcmd]
    exact issue_apart .stopMotor false s.line
  rw [OneAtATime, DriveSys.bypassExit]
  cases native with
  | false => exact hmotor
  | true =>
    -- the magic goes out over the motor command, if anything
    have hmagic := issue_apart .bypassExit false (s.line.stopMotor t)
    rw [apart_iff (by decide)] at hmagic
    refine hmagic.trans ?_
    rw [hmotor]
    exact and_iff_left (issue_wait_dead .stopMotor t.stopped s.line)

theorem fail_apart (t : DriveTiming) (s : DriveSys) :
    OneAtATime (s.fail native t).2 ↔ OneAtATime s ∧ ¬ s.line.Live := bypassExit_apart native t s

theorem startRead_apart (dst : DbrBuffer) (len offset : UInt32) (next : Int) (s : DriveSys) :
    OneAtATime (s.startRead dst len offset next).2 ↔ OneAtATime s ∧ ¬ s.line.Live := by
  have hcmd : DiCommand.read ≠ .bypassEnter := by decide
  rw [← apart_iff hcmd]
  exact issue_apart .read true s.line

theorem bypassEnter_apart (t : DriveTiming) (s : DriveSys) :
    OneAtATime (s.bypassEnter native t) ↔ OneAtATime s := by
  have hlog : (s.bypassEnter native t).line.log =
      (if native then s.line.xfer .bypassEnter t else s.line).log := by
    rw [DriveSys.bypassEnter]
    dsimp only
    split <;> rfl
  rw [OneAtATime, hlog]
  cases native with
  | false => rfl
  | true =>
    refine (issue_apart .bypassEnter false s.line).trans ?_
    exact and_iff_left fun hne => absurd rfl hne

theorem cancel_apart (t : DriveTiming) (s : DriveSys) : OneAtATime (s.cancel native t) ↔ OneAtATime s := by
  rw [DriveSys.cancel]
  split
  · rfl
  · -- the wait comes first
    refine (bypassExit_apart native t { s with line := s.line.wait t.waited }).trans ?_
    exact and_iff_left (wait_dead t.waited s.line)

theorem readFst_apart {s : DriveSys} (hidle : s.line.pending = none) :
    (s.readFst native).line.pending = none ∧ (OneAtATime (s.readFst native) ↔ OneAtATime s) := by
  rw [DriveSys.readFst]
  split
  · refine ⟨rfl, (issue_apart .read true s.line).trans (and_iff_left ?_)⟩
    intro _ p hp
    rw [hidle] at hp
    cases hp
  · exact ⟨hidle, Iff.rfl⟩

/-! ## One poll -/

theorem not_live_of_idle {l : DiLine} (h : l.pending = none) : ¬ l.Live := by
  intro hl
  obtain ⟨p, hp, -⟩ := hl
  rw [h] at hp
  cases hp

theorem idle_of_not_busy {s : DriveSys} (h : ¬ s.line.busy = true) : s.line.pending = none :=
  Option.isNone_iff_eq_none.mp (Option.isSome_eq_false_iff.mp (Bool.eq_false_iff.mpr h))

/-- The walk waits for its own read. -/
theorem walk_apart (a : DiAnswer) {s : DriveSys} (h : s.line.pending = none) :
    (if a.walksFst then s.readFst native else s).line.pending = none ∧
      (OneAtATime (if a.walksFst then s.readFst native else s) ↔ OneAtATime s) := by
  split
  · exact readFst_apart native h
  · exact ⟨h, Iff.rfl⟩

/-- What a poll may do over a live transfer: anything but giving up and asking for the disc ID. -/
def PollLeavesRoom (s : DriveSys) : Prop :=
  s.line.Live → s.banner.frames + 1 ≤ dbrTimeoutFrames ∧ ¬ (s.banner.step = 0 ∧ s.banner.retry ≤ 0)

omit native in
/-- Past the look at the start bit nothing is live. -/
theorem apart_when_idle {s s' : DriveSys} (hb : ¬ s.line.busy = true)
    (h : OneAtATime s' ↔ OneAtATime s ∧ ¬ s.line.Live) : OneAtATime s' ↔ OneAtATime s ∧ PollLeavesRoom s := by
  have hdead := not_live_of_idle (idle_of_not_busy hb)
  rw [h]
  exact and_congr_right fun _ => ⟨fun _ hl => absurd hl hdead, fun _ => hdead⟩

/-- A poll keeps transfers apart unless it gives up, or asks for the disc ID, over a
live one: in every other step it looks at the start bit first. -/
theorem poll_apart (a : DiAnswer) (t : DriveTiming) (s : DriveSys) :
    OneAtATime (s.poll native a t).2 ↔ OneAtATime s ∧ PollLeavesRoom s := by
  simp only [DriveSys.poll]
  split
  · -- the frame limit
    rename_i hlimit
    refine (fail_apart native t _).trans (and_congr_right fun _ => ?_)
    exact ⟨fun hdead hl => absurd hl hdead, fun h hl => absurd (h hl).1 (by omega)⟩
  · rename_i hlimit
    have hframes : s.banner.frames + 1 ≤ dbrTimeoutFrames := by omega
    have hnone : s.banner.step ≠ 0 → (OneAtATime s ↔ OneAtATime s ∧ PollLeavesRoom s) := fun h0 =>
      (and_iff_left fun _ => ⟨hframes, fun h => h0 h.1⟩).symm
    split
    · rename_i h0
      split
      · rename_i hretry
        exact (and_iff_left fun _ => ⟨hframes, fun h => absurd h.2 (by omega)⟩).symm
      · rename_i hretry
        refine (startRead_apart _ _ _ _ _).trans (and_congr_right fun _ => ?_)
        exact ⟨fun hdead hl => absurd hl hdead, fun h hl => (h hl).2 ⟨h0, by omega⟩⟩
    · rename_i h1
      split
      · exact hnone (by omega)
      · rename_i hb
        split
        · exact hnone (by omega)
        · exact apart_when_idle hb (startRead_apart _ _ _ _ _)
    · rename_i h2
      split
      · exact hnone (by omega)
      · rename_i hb
        split
        · exact apart_when_idle hb (fail_apart native t _)
        · split
          · exact apart_when_idle hb (fail_apart native t _)
          · have hidle := idle_of_not_busy hb
            obtain ⟨hafter, hsame⟩ := walk_apart native a
              (s := { s with banner := { s.banner with frames := s.banner.frames + 1 } }) hidle
            have hdead := not_live_of_idle hidle
            have hdead' := not_live_of_idle hafter
            split
            · refine apart_when_idle hb ((fail_apart native t _).trans ?_)
              exact (and_iff_left hdead').trans (hsame.trans (and_iff_left hdead).symm)
            · refine apart_when_idle hb ((startRead_apart _ _ _ _ _).trans ?_)
              exact (and_iff_left hdead').trans (hsame.trans (and_iff_left hdead).symm)
    · rename_i h3
      split
      · exact hnone (by omega)
      · rename_i hb
        split
        · exact apart_when_idle hb (fail_apart native t _)
        · split
          · exact apart_when_idle hb (fail_apart native t _)
          · exact apart_when_idle hb (startRead_apart _ _ _ _ _)
    · rename_i h4
      split
      · exact hnone (by omega)
      · rename_i hb
        split
        · exact apart_when_idle hb (fail_apart native t _)
        · exact apart_when_idle hb (bypassExit_apart native t _)
    · rename_i h0 _ _ _ _
      exact hnone h0

/-! ## Over every run -/

theorem settle_oneAtATime (t : DriveTiming) (s : DriveSys) : OneAtATime (s.settle t) ↔ OneAtATime s := by
  rw [DriveSys.settle]
  split <;> rfl

theorem settle_banner (t : DriveTiming) (s : DriveSys) : (s.settle t).banner = s.banner := by
  rw [DriveSys.settle]
  split <;> rfl

theorem driveStep_apart (s : DriveSys) (l : DriveLabel) :
    OneAtATime (driveStep native s l) ↔ OneAtATime s ∧ LeavesRoom s l := by
  cases l with
  | start t =>
    refine (bypassEnter_apart native t _).trans ((settle_oneAtATime t s).trans ?_)
    exact (and_iff_left trivial).symm
  | poll a t =>
    have hpoll := poll_apart native a t (s.settle t)
    rw [settle_oneAtATime, PollLeavesRoom, settle_banner] at hpoll
    exact hpoll
  | cancel t =>
    refine (cancel_apart native t _).trans ((settle_oneAtATime t s).trans ?_)
    exact (and_iff_left trivial).symm

/-- Over every run of starts, polls and cancels, whatever the drive answers and
whenever: the commands go out one at a time exactly if every poll leaves room. -/
theorem one_transfer_iff (ls : List DriveLabel) :
    OneAtATime (Steps.run (driveStep native) .idle ls) ↔ Steps.Guarded (driveStep native) LeavesRoom .idle ls := by
  have hidle : OneAtATime .idle := by
    intro i hi
    cases hi
  have hrun : OneAtATime (Steps.run (driveStep native) .idle ls) ↔
      OneAtATime .idle ∧ Steps.Guarded (driveStep native) LeavesRoom .idle ls :=
    Steps.verdict_run (fun _ => True) OneAtATime (fun _ _ _ => trivial)
      (fun s l _ => driveStep_apart native s l) trivial
  exact hrun.trans (and_iff_right hidle)

end

/-- Nothing is answered. -/
def silent : DriveTiming := ⟨false, false, false, false, false⟩

/-- The poll of a read that is not answered. -/
def silentPoll : DriveLabel := .poll ⟨true, false, 0, 0, 0, 0, 0⟩ silent

/-- Up to the limit they count frames and do nothing else. -/
theorem silentPolls (native : Bool) (n : Nat) : ∀ {s : DriveSys}, s.banner.step = 1 → s.line.busy = true →
    s.banner.frames + n ≤ dbrTimeoutFrames →
    Steps.run (driveStep native) s (List.replicate n silentPoll) =
      { s with banner := { s.banner with frames := s.banner.frames + n } } := by
  induction n with
  | zero =>
    intro s _ _ _
    simp
  | succ n ih =>
    intro s hstep hbusy hlimit
    have hone : driveStep native s silentPoll =
        { s with banner := { s.banner with frames := s.banner.frames + 1 } } := by
      have hmore : ¬ dbrTimeoutFrames < s.banner.frames + 1 := by omega
      simp [driveStep, silentPoll, DriveSys.settle, silent, DriveSys.poll, hmore, hstep, hbusy]
    have hrest := ih (s := { s with banner := { s.banner with frames := s.banner.frames + 1 } }) hstep hbusy
      (by dsimp only; omega)
    have hsum : s.banner.frames + 1 + (n : Int) = s.banner.frames + ((n + 1 : Nat) : Int) := by omega
    rw [List.replicate_succ, Steps.run_cons, hone, hrest]
    simp only [hsum]

/-- A drive that never answers the disc ID read: 15 seconds on, the stop-motor
command goes out with the read still on the interface. -/
theorem timeout_over_read : ¬ ∀ (native : Bool) (ls : List DriveLabel),
    OneAtATime (Steps.run (driveStep native) .idle ls) := by
  intro h
  have hrun := h false ([.start silent, silentPoll] ++ (List.replicate 899 silentPoll ++ [silentPoll]))
  rw [Steps.run_append, Steps.run_append, silentPolls false 899 (by decide) (by decide) (by decide)] at hrun
  have hapart : DiIssue.Apart ⟨.stopMotor, some ⟨true, false⟩⟩ := hrun _ (by decide)
  exact absurd (hapart (by decide) _ rfl) (by decide)

end Cubiboot
