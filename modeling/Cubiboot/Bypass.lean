import Cubiboot.Browser

/-
  The disc read and the file layer keep out of each other's way.

  Bypass points the whole file layer at raw disc sectors, so the enumeration
  thread must be off the device while a disc is read. The Z press and the lid
  wait for the worker before they start a read, and every end of a read leaves
  bypass before it starts the worker again. But a frame goes on after its Z
  handler: with B or A pressed on the same frame it can start the worker on
  another folder, on top of the read it has just started.

  What is proved:
    1. `browserStep_bypass` — a step that does not do that keeps `BypassInv`.
    2. `bypass_exclusive` — hence over every run, bypass lasts exactly as long as
       a read, and the worker never runs meanwhile.
    3. `z_and_b_together` — a frame with Z and B breaks it.
-/

set_option autoImplicit false

namespace Cubiboot

/-- Bypass lasts as long as the read; the worker does not run meanwhile. -/
def BypassExclusive (b : Browser) : Prop :=
  b.disc.banner.passthrough = b.disc.reading ∧ ¬ (b.games.running = true ∧ b.disc.banner.passthrough = true)

/-- Z starts a disc read this frame. -/
def startsRead (f : FrameInput) (b : Browser) : Prop :=
  b.disc.mode = false ∧ f.z = true ∧ b.gcLoader = false

/-- The condition on a step: a frame that starts a disc read with Z does not also
leave the folder with B or enter one with A. -/
def StaysPut (b : Browser) : BrowserLabel → Prop
  | .frame f =>
    startsRead f b →
      (leavesFolder f (afterZ f b) → leavesMenu f (afterZ f b) = true) ∧
        ∀ e, actsOn f (afterB f b) e → e.type ≠ .directory
  | _ => True

structure BypassInv (b : Browser) : Prop where
  base : b.games.Base
  flag : b.disc.banner.passthrough = b.disc.reading
  flight : b.disc.reading = true → b.disc.banner.InFlight
  apart : b.disc.reading = true → b.games.running = false
  screen : b.disc.reading = true → b.disc.mode = true

theorem BypassInv.exclusive {b : Browser} (h : BypassInv b) : BypassExclusive b := by
  refine ⟨h.flag, ?_⟩
  rintro ⟨hrun, hpass⟩
  have := h.apart (h.flag ▸ hpass)
  simp [hrun] at this

/-- A worker that has been waited for does not run. -/
theorem waited_not_running {g : Games} (h : g.Base) (worker : Nat → WorkerAnswer) :
    (gmDeinitThread worker g).running = false := by
  have hbase := gmDeinitThread_base h worker
  apply Bool.eq_false_iff.mpr
  intro hrun
  exact hbase.running.mp hrun (gmDeinitThread_idle h worker)

/-- Outside a read, a change of what the worker scans is harmless. -/
theorem BypassInv.rescan {b : Browser} (h : BypassInv b) (hr : b.disc.reading = false) {g : Games} (hg : g.Base) :
    BypassInv { b with games := g } :=
  ⟨hg, h.flag, h.flight, fun hr' => by simp [hr] at hr', h.screen⟩

/-- A read started with the worker waited for. -/
theorem BypassInv.reads {b b' : Browser} (h : BypassInv b) {worker : Nat → WorkerAnswer}
    (hgames : b'.games = gmDeinitThread worker b.games) (hbanner : b'.disc.banner = discBannerStart b.disc.banner)
    (hreading : b'.disc.reading = true) (hmode : b'.disc.mode = true) : BypassInv b' := by
  have hflight := discBannerStart_inFlight b.disc.banner
  refine ⟨?_, ?_, fun _ => ?_, fun _ => ?_, fun _ => hmode⟩
  · rw [hgames]
    exact gmDeinitThread_base h.base worker
  · rw [hbanner, hreading]
    exact hflight.bypass
  · rw [hbanner]
    exact hflight
  · rw [hgames]
    exact waited_not_running h.base worker

/-- A read ended: bypass is left before the worker starts again. -/
theorem BypassInv.ends {b b' : Browser} (h : BypassInv b) (hgames : b'.games = restartScan b.games)
    (hpass : b'.disc.banner.passthrough = false) (hreading : b'.disc.reading = false) : BypassInv b' := by
  have hno : b'.disc.reading ≠ true := by simp [hreading]
  refine ⟨?_, by rw [hpass, hreading], fun hr => absurd hr hno, fun hr => absurd hr hno, fun hr => absurd hr hno⟩
  rw [hgames]
  exact gmStartThread_base h.base _

theorem pressB_disc (f : FrameInput) (b : Browser) : (pressB f b).disc = b.disc := by
  obtain ⟨-, heq⟩ | ⟨-, heq⟩ | ⟨-, heq⟩ := pressB_cases f b <;> rw [heq]

/-- Without Z no read is on when B and A are handled. -/
theorem afterZ_not_reading {b : Browser} {f : FrameInput} (h : BypassInv b) (hm : b.disc.mode = false)
    (hz : f.z = false) : (afterZ f b).disc.reading = false := by
  have hr : b.disc.reading = false := by
    apply Bool.eq_false_iff.mpr
    intro hr
    simp [h.screen hr] at hm
  obtain ⟨_, _, _, _, heq⟩ := frameHead_eq f b
  rw [afterZ, pressZ, hz, heq]
  exact hr

/-- With Z the worker is not started: the frame stays put. -/
theorem startsRead_of_z {b : Browser} {f : FrameInput} (hm : b.disc.mode = false)
    (hgc : (f.z && b.gcLoader) = false) (hz : f.z = true) : startsRead f b := by
  rw [hz, Bool.true_and] at hgc
  exact ⟨hm, hz, hgc⟩

theorem frame_bypass {b : Browser} {f : FrameInput} (h : BypassInv b) (hg : StaysPut b (.frame f)) :
    BypassInv (gameselectInputs f b) := by
  apply gameselectInputs_inv BypassInv
  · intro _
    -- the disc screen: leaving it ends the bypass with the reading
    obtain ⟨boot, heq⟩ | ⟨⟨-, -, hr⟩, heq⟩ | ⟨hr, heq⟩ := discInputs_cases f b
    · rw [heq]
      exact ⟨h.base, h.flag, h.flight, h.apart, h.screen⟩
    · rw [heq]
      exact h.ends rfl (discBannerCancel_exit (h.flight hr)) rfl
    · rw [heq]
      have hno : ¬ b.disc.reading = true := by simp [hr]
      exact ⟨h.base, h.flag, h.flight, h.apart, fun hr' => absurd hr' hno⟩
  · intro _
    obtain ⟨_, _, _, _, heq⟩ := frameHead_eq f b
    obtain ⟨_, _, _, hap⟩ := applyPending_eq b.games
    rw [heq, hap]
    exact ⟨⟨h.base.running, h.base.backing, h.base.empty, h.base.unfinished, h.base.uncut⟩, h.flag, h.flight,
      h.apart, h.screen⟩
  · intro hm _ h1
    -- Z is what starts a reading
    obtain ⟨-, heq⟩ | ⟨-, heq⟩ := pressZ_cases f (frameHead f b)
    · rw [afterZ, heq]
      exact h1
    · rw [afterZ, heq]
      exact h1.reads rfl rfl rfl rfl
  · rintro ⟨hm, hgc, hleave⟩ h2
    obtain ⟨-, heq⟩ | ⟨-, heq⟩ | ⟨hlf, heq⟩ := pressB_cases f (afterZ f b)
    · rw [afterB, heq]
      exact h2
    · rw [afterB, heq]
      exact ⟨h2.base, h2.flag, h2.flight, h2.apart, h2.screen⟩
    · rw [afterB, heq]
      -- another folder is scanned only while nothing is read from the disc
      apply h2.rescan
      · cases hz : f.z with
        | false => exact afterZ_not_reading h hm hz
        | true =>
          have hmenu := (hg (startsRead_of_z hm hgc hz)).1 hlf
          simp [hleave] at hmenu
      · exact gmStartThread_base (gmDeinitThread_base h2.base _) _
  · rintro ⟨hm, hgc, hleave⟩ h3
    obtain ⟨-, heq⟩ | ⟨e, hact, ⟨hdir, heq⟩ | ⟨-, -, heq⟩ | ⟨-, -, heq⟩⟩ := pressA_cases f (afterB f b)
    · rw [afterA, heq]
      exact h3
    · rw [afterA, heq]
      apply h3.rescan
      · cases hz : f.z with
        | false =>
          rw [afterB, pressB_disc]
          exact afterZ_not_reading h hm hz
        | true => exact absurd hdir ((hg (startsRead_of_z hm hgc hz)).2 e hact)
      · exact gmStartThread_base (gmDeinitThread_base h3.base _) _
    · rw [afterA, heq]
      exact ⟨h3.base, h3.flag, h3.flight, h3.apart, h3.screen⟩
    · rw [afterA, heq]
      exact ⟨h3.base, h3.flag, h3.flight, h3.apart, h3.screen⟩
  · intro b' h4
    obtain ⟨_, games, heq, hscroll, -⟩ := frameEnd_eq f b'
    rw [heq]
    refine ⟨h4.base.scrolls hscroll, h4.flag, h4.flight, fun hr => ?_, h4.screen⟩
    rw [hscroll.eq]
    exact h4.apart hr

/-- Every step that stays put keeps the invariant. -/
theorem browserStep_bypass (b : Browser) (l : BrowserLabel) (h : BypassInv b) (hg : StaysPut b l) :
    BypassInv (browserStep b l) := by
  cases l with
  | worker answer =>
    refine ⟨workerStep_base false b.games answer h.base, h.flag, h.flight, fun hr => ?_, h.screen⟩
    -- during a read the worker is idle, and stays so
    have hidle : b.games.worker = .idle := by
      by_contra hne
      have hrun := h.base.running.mpr hne
      simp [h.apart hr] at hrun
    have hsame : workerStep false b.games answer = b.games := by simp only [workerStep, hidle]
    simp only [browserStep, hsame]
    exact h.apart hr
  | frame f => exact frame_bypass h hg
  | tick drive coverOpen worker =>
    simp only [browserStep]
    split
    · rename_i hm
      rcases stockDiscTick_cases drive coverOpen worker b with ⟨hr, h0, heq⟩ | ⟨⟨hr, hne⟩, _, heq⟩ |
        ⟨hr, _, _, heq⟩ | ⟨⟨hr, -, -⟩, heq⟩
      · -- the read goes on
        rw [heq]
        obtain ⟨-, hflight⟩ | ⟨hne, -⟩ := discBannerPoll_spec (h.flight hr) drive
        · exact ⟨h.base, by rw [hflight.bypass]; exact hr.symm, fun _ => hflight, h.apart, h.screen⟩
        · exact absurd h0 hne
      · rw [heq]
        obtain ⟨h0, -⟩ | ⟨-, hpass⟩ := discBannerPoll_spec (h.flight hr) drive
        · exact absurd h0 hne
        · exact h.ends rfl hpass rfl
      · rw [heq]
        have hno : ¬ b.disc.reading = true := by simp [hr]
        exact ⟨h.base, h.flag, h.flight, h.apart, fun hr' => absurd hr' hno⟩
      · rw [heq]
        exact h.reads rfl rfl rfl hm
    · exact h
  | menuAlpha back =>
    simp only [browserStep, menuAlphaSetup]
    split
    · exact ⟨h.base, h.flag, h.flight, h.apart, h.screen⟩
    · exact h
  | cardMessage => exact h

theorem coldBoot_bypass (o : MenuOptions) : BypassInv (.coldBoot o) := by
  have hno : ¬ (Browser.coldBoot o).disc.reading = true := by simp [Browser.coldBoot]
  exact ⟨coldBoot_base o, rfl, fun hr => absurd hr hno, fun hr => absurd hr hno, fun hr => absurd hr hno⟩

/-- In every run whose steps all stay put, in every state on the way: bypass is
on exactly while a disc read is, and the worker does not run meanwhile. -/
theorem bypass_exclusive (o : MenuOptions) (ls : List BrowserLabel)
    (hg : Steps.Guarded browserStep StaysPut (.coldBoot o) ls) {pre : List BrowserLabel} (hp : pre <+: ls) :
    BypassExclusive (Steps.run browserStep (.coldBoot o) pre) :=
  (Steps.inv_run BypassInv browserStep_bypass (coldBoot_bypass o) (hg.upto hp)).exclusive

/-- Z, then a poll of a drive that fails: the read is started and waits. -/
def zThenTick : List BrowserLabel :=
  [.worker quietAnswer, .frame { quietFrame with z := true },
    .tick ⟨false, true, 0, 0, 0, 0, 0⟩ false fun _ => quietAnswer]

theorem bypass_exclusive_z_alone :
    BypassExclusive (Steps.run browserStep (.coldBoot plainOptions) zThenTick) := by
  apply bypass_exclusive plainOptions zThenTick ?_ (List.prefix_refl _)
  exact ⟨trivial, fun _ => ⟨fun hb => absurd hb.1 (by decide), fun e ha => absurd ha.1 (by decide)⟩, trivial,
    trivial⟩

/-- Z and B on one frame, in a folder. -/
def zAndB : List BrowserLabel := [.worker quietAnswer, .frame { quietFrame with z := true, b := true }]

/-- The worker is started on the folder above, with the drive in bypass. -/
theorem z_and_b_together :
    ¬ BypassExclusive (Steps.run browserStep (.coldBoot plainOptions) zAndB) := by
  intro h
  have hboth : (Steps.run browserStep (.coldBoot plainOptions) zAndB).games.running = true ∧
      (Steps.run browserStep (.coldBoot plainOptions) zAndB).disc.banner.passthrough = true := by
    decide +kernel
  exact h.2 hboth

end Cubiboot
