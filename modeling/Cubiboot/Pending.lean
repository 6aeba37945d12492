import Cubiboot.Browser

/-
  A pending jump belongs to the list it was computed on.

  The worker publishes the slot at the end of an armed scan, a frame of the
  browser consumes it. Both take place on one list as long as no start of the
  worker frees that list in between. A wait for the worker lets it run to its
  end, the search included, also when it cuts the scan short: the slot published
  then is still pending when the folder is left, and nothing clears it.

  What is proved:
    1. `workerStep_belongs` — the slot is the search's result on the list as it
       is, from the search until the list is freed.
    2. `browserStep_pending` — every step that frees no list with a slot pending
       keeps `PendingInv`; a cut-short scan's slot stays behind the disc screen.
    3. `jumps_to_last_played` — hence over every run, every jump goes to the
       last-played file, or to slot 0 of a complete list that does not have it.
    4. `slot_survives_the_folder` — a slot published while B waits for the worker
       jumps in the folder above.
-/

set_option autoImplicit false

namespace Cubiboot

/-- What `gm_match_last_played` looks for. -/
def FileEntry.isLastPlayed (lastPlayed : Path) (e : FileEntry) : Bool := e.bootable && strcasecmpEq e.path lastPlayed

/-- Past the loop over the paths. -/
def WorkerPc.listed : WorkerPc → Bool
  | .pair | .setupGrid | .background _ | .finish | .idle => true
  | _ => false

/-- Past the search of this scan, if it is armed. -/
def WorkerPc.searched : WorkerPc → Bool
  | .background .matchSlot => false
  | .background _ | .finish | .idle => true
  | _ => false

/-- Every path of the folder has been checked. -/
def Games.ListComplete (g : Games) : Prop := g.scanStopped = false ∧ g.worker.listed = true

/-- The list shown is the one that was searched, and `slot` of it the last-played
file; or 0, when the whole folder does not have it. -/
def JumpFits (g : Games) (slot : Nat) : Prop :=
  g.searchedNo = g.listNo ∧
    ((∃ e, g.ld.entries[slot]? = some e ∧ e.isLastPlayed g.lastPlayedPath = true) ∨
      (slot = 0 ∧ g.ListComplete ∧ ∀ e ∈ g.ld.entries, e.isLastPlayed g.lastPlayedPath = false))

/-- A start of the worker that frees no list with a slot pending. -/
def Games.StartsClean (g : Games) (target : Option Path) : Prop := g.freesList target = true → g.pending < 0

/-- The condition on a step: every start of the worker in it is such. -/
def NothingPending (b : Browser) : BrowserLabel → Prop
  | .frame f =>
    (b.disc.mode = true → cancelsRead f b → b.games.StartsClean (restartTarget b.games)) ∧
    (reachesStart f b →
      (leavesFolder f (afterZ f b) → (gmDeinitThread f.worker (afterZ f b).games).StartsClean (some dotdot)) ∧
      ∀ e, actsOn f (afterB f b) e → e.type = .directory →
        (gmDeinitThread f.worker (afterB f b).games).StartsClean (some (e.path ++ [slash])))
  | .tick drive _ _ =>
    b.disc.mode = true → endsRead drive b → b.games.StartsClean (restartTarget b.games)
  | _ => True

theorem nothingPending_of_unwaited {G : Games → WorkerAnswer → Prop} {b : Browser} {l : BrowserLabel}
    (h : Unwaited G b l) : NothingPending b l := by
  cases l with
  | worker answer => trivial
  | frame f =>
    obtain ⟨-, hb, ha⟩ := h
    refine ⟨fun _ hc => ?_, fun _ => ⟨fun hlf => ?_, fun e hact => ?_⟩⟩
    · simp [cancelsRead, hb] at hc
    · simp [leavesFolder, hb] at hlf
    · simp [actsOn, ha] at hact
  | tick | menuAlpha | cardMessage => exact h.elim

/-! ## The search -/

theorem SameFile.isLastPlayed {e e' : FileEntry} (h : SameFile e e') (lastPlayed : Path) :
    e'.isLastPlayed lastPlayed = e.isLastPlayed lastPlayed := by
  simp only [FileEntry.isLastPlayed, FileEntry.bootable, h.path, h.type]

/-- The search finds the same slot as long as the entries stay the same files. -/
theorem gmMatchLastPlayed_kept {es es' : List FileEntry} (h : Kept es es') (hlen : es'.length = es.length)
    (lastPlayed : Path) : gmMatchLastPlayed es' lastPlayed = gmMatchLastPlayed es lastPlayed := by
  have hmap : es'.map (FileEntry.isLastPlayed lastPlayed) = es.map (FileEntry.isLastPlayed lastPlayed) := by
    apply List.ext_getElem?
    intro i
    rw [List.getElem?_map, List.getElem?_map]
    cases he : es[i]? with
    | none =>
      rw [List.getElem?_eq_none_iff] at he
      rw [List.getElem?_eq_none (by omega)]
    | some e =>
      obtain ⟨e', he', hsame⟩ := h i e he
      rw [he']
      exact congrArg some (hsame.isLastPlayed lastPlayed)
  have hfind : ∀ es : List FileEntry, es.findIdx? (FileEntry.isLastPlayed lastPlayed) =
      (es.map (FileEntry.isLastPlayed lastPlayed)).findIdx? id := by
    intro es
    rw [List.findIdx?_map, Function.id_comp]
  show (es'.findIdx? (FileEntry.isLastPlayed lastPlayed)).getD 0 =
    (es.findIdx? (FileEntry.isLastPlayed lastPlayed)).getD 0
  rw [hfind es', hfind es, hmap]

theorem gmMatchLastPlayed_spec (es : List FileEntry) (lastPlayed : Path) :
    (∃ e, es[gmMatchLastPlayed es lastPlayed]? = some e ∧ e.isLastPlayed lastPlayed = true) ∨
      (gmMatchLastPlayed es lastPlayed = 0 ∧ ∀ e ∈ es, e.isLastPlayed lastPlayed = false) := by
  have hslot : gmMatchLastPlayed es lastPlayed = (es.findIdx? (FileEntry.isLastPlayed lastPlayed)).getD 0 := rfl
  rw [hslot]
  cases hf : es.findIdx? (FileEntry.isLastPlayed lastPlayed) with
  | some i =>
    obtain ⟨hi, hp, -⟩ := List.findIdx?_eq_some_iff_getElem.mp hf
    exact .inl ⟨es[i], List.getElem?_eq_getElem hi, hp⟩
  | none => exact .inr ⟨rfl, List.findIdx?_eq_none_iff.mp hf⟩

/-! ## The slot, from the search on -/

structure SlotBelongs (g : Games) : Prop where
  list : g.searchedNo = g.listNo
  slot : g.pending = gmMatchLastPlayed g.ld.entries g.lastPlayedPath
  past : g.worker.searched = true

/-- Only the search publishes a slot. -/
theorem workerStep_pending (held : Bool) {g : Games} (a : WorkerAnswer) (hw : g.worker ≠ .background .matchSlot) :
    (workerStep held g a).pending = g.pending := by
  cases hpc : g.worker with
  | arm listing =>
    obtain ⟨armed, path, consumed, heq⟩ := workerStep_arm held a hpc
    rw [heq]
  | poll rest => obtain ⟨-, heq⟩ | ⟨-, heq⟩ | ⟨e, rest', -, heq⟩ := workerStep_poll held a hpc <;> rw [heq]
  | background pc =>
    obtain ⟨-, heq⟩ | ⟨-, heq⟩ | heq := workerStep_background held a hpc <;> rw [heq]
    refine (bgWorker_keeps a.fetch (g.bgState pc)).pending fun hm => hw ?_
    rw [hpc]
    exact congrArg WorkerPc.background hm
  | _ => simp only [workerStep, hpc]

theorem workerStep_belongs (held : Bool) (g : Games) (a : WorkerAnswer) (h : 0 ≤ g.pending → SlotBelongs g)
    (hp : 0 ≤ (workerStep held g a).pending) : SlotBelongs (workerStep held g a) := by
  by_cases hmatch : g.worker = .background .matchSlot
  · -- the search itself
    have hstep : workerStep held g a = g.bgStep a.fetch .matchSlot := by
      simp only [workerStep, hmatch, bgPolls, Bool.and_false, Bool.false_eq_true, if_false]
    rw [hstep]
    exact ⟨rfl, rfl, rfl⟩
  · rw [workerStep_pending held a hmatch] at hp
    obtain ⟨hlist, hslot, hpast⟩ := h hp
    cases hw : g.worker with
    | idle => simpa only [workerStep, hw] using ⟨hlist, hslot, hpast⟩
    | finish =>
      simp only [workerStep, hw]
      exact ⟨hlist, hslot, rfl⟩
    | background pc =>
      have hpc : pc ≠ .matchSlot := fun hpc => hmatch (by rw [hw, hpc])
      obtain ⟨-, heq⟩ | ⟨-, heq⟩ | heq := workerStep_background held a hw <;> rw [heq]
      · exact ⟨hlist, hslot, rfl⟩
      · exact ⟨hlist, hslot, rfl⟩
      · have hkeeps := bgWorker_keeps a.fetch (g.bgState pc)
        refine ⟨?_, ?_, ?_⟩
        · show (if pc = .matchSlot then g.listNo else g.searchedNo) = g.listNo
          rw [if_neg hpc]
          exact hlist
        · calc (g.bgStep a.fetch pc).pending
            _ = g.pending := hkeeps.pending hpc
            _ = gmMatchLastPlayed g.ld.entries g.lastPlayedPath := hslot
            _ = gmMatchLastPlayed (g.bgStep a.fetch pc).ld.entries g.lastPlayedPath :=
              congrArg Nat.cast (gmMatchLastPlayed_kept hkeeps.entries hkeeps.length g.lastPlayedPath).symm
        · show (WorkerPc.background (bgWorker a.fetch (g.bgState pc)).pc).searched = true
          have hnext := hkeeps.pc
          cases hn : (bgWorker a.fetch (g.bgState pc)).pc with
          | matchSlot => exact absurd hn hnext
          | readSlot | window | fill | done => rfl
    | begin | list | arm | poll | checkPath | publish | pair | setupGrid => simp [hw, WorkerPc.searched] at hpast

structure SlotInv (g : Games) : Prop where
  base : g.Base
  belongs : 0 ≤ g.pending → SlotBelongs g
  stopped : g.scanStopped = true → g.worker = .idle ∨ g.worker = .begin

/-- Left alone, the worker does not stop. -/
theorem workerStep_stopped {g : Games} (a : WorkerAnswer) (h : (workerStep false g a).scanStopped = true) :
    g.scanStopped = true ∧ g.worker ≠ .begin := by
  cases hw : g.worker with
  | begin => simp [workerStep, hw] at h
  | arm listing =>
    obtain ⟨armed, path, consumed, heq⟩ := workerStep_arm false a hw
    rw [heq] at h
    exact ⟨h, by simp⟩
  | poll rest =>
    obtain ⟨-, heq⟩ | ⟨hheld, -⟩ | ⟨e, rest', -, heq⟩ := workerStep_poll false a hw
    · rw [heq] at h
      exact ⟨h, by simp⟩
    · cases hheld
    · rw [heq] at h
      exact ⟨h, by simp⟩
  | background pc =>
    obtain ⟨-, heq⟩ | ⟨hheld, -⟩ | heq := workerStep_background false a hw
    · rw [heq] at h
      exact ⟨h, by simp⟩
    · cases hheld
    · rw [heq] at h
      exact ⟨h, by simp⟩
  | idle | list | checkPath | publish | pair | setupGrid | finish =>
    simp only [workerStep, hw] at h
    exact ⟨h, by simp⟩

theorem workerStep_slotInv {g : Games} (h : SlotInv g) (a : WorkerAnswer) : SlotInv (workerStep false g a) := by
  refine ⟨workerStep_base false g a h.base, workerStep_belongs false g a h.belongs, fun hs => ?_⟩
  obtain ⟨hstopped, hbegin⟩ := workerStep_stopped a hs
  have hidle : g.worker = .idle := (h.stopped hstopped).resolve_right hbegin
  left
  simp only [workerStep, hidle]

theorem gmDeinitThread_slotInv {g : Games} (h : SlotInv g) (worker : Nat → WorkerAnswer) :
    SlotInv (gmDeinitThread worker g) := by
  refine ⟨gmDeinitThread_base h.base worker, ?_, fun _ => .inl (gmDeinitThread_idle h.base worker)⟩
  exact gmDeinitThread_inv (fun g => 0 ≤ g.pending → SlotBelongs g)
    (fun g a hg _ => workerStep_belongs true g a hg) h.belongs fun _ => Steps.guarded_true _

/-- After a clean start, no slot of a scan that was cut short is pending. -/
theorem gmStartThread_slotInv {g : Games} (h : SlotInv g) {target : Option Path} (hclean : g.StartsClean target) :
    SlotInv (gmStartThread target g) ∧
      ((gmStartThread target g).scanStopped = true → (gmStartThread target g).pending < 0) := by
  have hb := gmStartThread_base h.base target
  obtain ⟨hrun, heq⟩ | ⟨-, hkeep, heq⟩ | ⟨-, hfree, heq⟩ := gmStartThread_cases target g <;> rw [heq] at hb ⊢
  · refine ⟨h, fun hs => Int.not_le.mp fun hp => ?_⟩
    -- the worker runs, so it is at its beginning, where no slot is pending
    have hw : g.worker = .begin := (h.stopped hs).resolve_left (h.base.running.mp hrun)
    have hpast := (h.belongs hp).past
    simp [hw, WorkerPc.searched] at hpast
  · simp only [Games.keepsList, decide_eq_true_eq] at hkeep
    have hwhole := h.base.uncut hkeep.1
    refine ⟨⟨hb, fun hp => ?_, h.stopped⟩, fun hs => ?_⟩
    · obtain ⟨hlist, hslot, hpast⟩ := h.belongs hp
      exact ⟨hlist, hslot, hpast⟩
    · simp [hwhole] at hs
  · have hp := hclean hfree
    exact ⟨⟨hb, fun hp' => absurd hp' (Int.not_le.mpr hp), fun _ => .inr rfl⟩, fun _ => hp⟩

/-! ## The whole system -/

structure PendingInv (b : Browser) : Prop where
  games : SlotInv b.games
  reading : b.games.scanStopped = true → 0 ≤ b.games.pending → b.disc.reading = true ∧ b.disc.mode = true

/-- A change that leaves the list's state and the disc screen's as they are. -/
theorem PendingInv.goesOn {b b' : Browser} (h : PendingInv b) (hg : b'.games = b.games)
    (hr : b'.disc.reading = b.disc.reading) (hm : b'.disc.mode = b.disc.mode) : PendingInv b' := by
  refine ⟨by rw [hg]; exact h.games, ?_⟩
  rw [hg, hr, hm]
  exact h.reading

/-- The worker started, cleanly, whatever becomes of the disc screen. -/
theorem PendingInv.starts {b' : Browser} {g : Games} (h : SlotInv g) {target : Option Path}
    (hclean : g.StartsClean target) (hg : b'.games = gmStartThread target g) : PendingInv b' := by
  obtain ⟨hslot, hstop⟩ := gmStartThread_slotInv h hclean
  refine ⟨by rw [hg]; exact hslot, ?_⟩
  rw [hg]
  exact fun hs hp => absurd (hstop hs) (Int.not_lt.mpr hp)

theorem frameHead_pending (f : FrameInput) {b : Browser} (h : PendingInv b) : PendingInv (frameHead f b) := by
  have hb := base_gamesInv.frameHead f h.games.base
  obtain ⟨_, _, _, _, heq⟩ := frameHead_eq f b
  rw [heq] at hb ⊢
  obtain ⟨-, hap⟩ | ⟨-, -, hap⟩ | ⟨slot, -, hap⟩ := applyPending_cases b.games <;> rw [hap] at hb ⊢
  · exact h.goesOn rfl rfl rfl
  all_goals
    have hnone : ¬ (0 : Int) ≤ -1 := by decide
    exact ⟨⟨hb, fun hp => absurd hp hnone, h.games.stopped⟩, fun _ hp => absurd hp hnone⟩

theorem pressZ_pending (f : FrameInput) {b : Browser} (h : PendingInv b) : PendingInv (pressZ f b) := by
  obtain ⟨-, heq⟩ | ⟨-, heq⟩ := pressZ_cases f b <;> rw [heq]
  · exact h
  · exact ⟨gmDeinitThread_slotInv h.games f.worker, fun _ _ => ⟨rfl, rfl⟩⟩

theorem frameEnd_pending (f : FrameInput) {b : Browser} (h : PendingInv b) :
    PendingInv (menuMoves f (pressStart f b)) := by
  obtain ⟨boot, games, heq, hscroll, -⟩ := frameEnd_eq f b
  have hb := h.games.base.scrolls hscroll
  have hkept := hscroll.entries
  have hlen := hscroll.length
  rw [hscroll.eq] at hb
  rw [heq, hscroll.eq]
  refine ⟨⟨hb, fun hp => ?_, h.games.stopped⟩, h.reading⟩
  obtain ⟨hlist, hslot, hpast⟩ := h.games.belongs hp
  refine ⟨hlist, ?_, hpast⟩
  rw [gmMatchLastPlayed_kept hkept hlen]
  exact hslot

theorem frame_pending {b : Browser} {f : FrameInput} (h : PendingInv b) (hg : NothingPending b (.frame f)) :
    PendingInv (gameselectInputs f b) := by
  apply gameselectInputs_inv PendingInv
  · intro hm
    obtain ⟨boot, heq⟩ | ⟨hcancel, heq⟩ | ⟨hr, heq⟩ := discInputs_cases f b <;> rw [heq]
    · exact h.goesOn rfl rfl rfl
    · exact .starts h.games (hg.1 hm hcancel) rfl
    · refine ⟨h.games, fun hs hp => ?_⟩
      have := (h.reading hs hp).1
      simp [hr] at this
  · exact fun _ => frameHead_pending f h
  · exact fun _ _ => pressZ_pending f
  · intro hr h2
    obtain ⟨-, heq⟩ | ⟨-, heq⟩ | ⟨hlf, heq⟩ := pressB_cases f (afterZ f b) <;> rw [afterB, heq]
    · exact h2
    · exact h2.goesOn rfl rfl rfl
    · exact .starts (gmDeinitThread_slotInv h2.games f.worker) ((hg.2 hr).1 hlf) rfl
  · intro hr h3
    obtain ⟨-, heq⟩ | ⟨e, hact, ⟨hdir, heq⟩ | ⟨-, -, heq⟩ | ⟨-, -, heq⟩⟩ := pressA_cases f (afterB f b) <;>
      rw [afterA, heq]
    · exact h3
    · exact .starts (gmDeinitThread_slotInv h3.games f.worker) ((hg.2 hr).2 e hact hdir) rfl
    · exact h3.goesOn rfl rfl rfl
    · exact h3.goesOn rfl rfl rfl
  · exact fun _ => frameEnd_pending f

theorem browserStep_pending (b : Browser) (l : BrowserLabel) (h : PendingInv b) (hg : NothingPending b l) :
    PendingInv (browserStep b l) := by
  cases l with
  | worker answer =>
    refine ⟨workerStep_slotInv h.games answer, fun hs hp => ?_⟩
    -- the scan was stopped already, and the worker is idle
    obtain ⟨hstopped, hbegin⟩ := workerStep_stopped answer hs
    have hidle : b.games.worker = .idle := (h.games.stopped hstopped).resolve_right hbegin
    have hsame : workerStep false b.games answer = b.games := by simp only [workerStep, hidle]
    simp only [browserStep, hsame] at hp
    exact h.reading hstopped hp
  | frame f => exact frame_pending h hg
  | tick drive coverOpen worker =>
    simp only [browserStep]
    split
    · rename_i hm
      rcases stockDiscTick_cases drive coverOpen worker b with ⟨-, -, heq⟩ | ⟨hends, _, heq⟩ | ⟨-, _, _, heq⟩ |
        ⟨-, heq⟩ <;> rw [heq]
      · exact h.goesOn rfl rfl rfl
      · exact .starts h.games (hg hm hends) rfl
      · exact h.goesOn rfl rfl rfl
      · exact ⟨gmDeinitThread_slotInv h.games worker, fun _ _ => ⟨rfl, hm⟩⟩
    · exact h
  | menuAlpha back =>
    simp only [browserStep, menuAlphaSetup]
    split
    · exact h.goesOn rfl rfl rfl
    · exact h
  | cardMessage => exact h

theorem coldBoot_pending (o : MenuOptions) : PendingInv (.coldBoot o) := by
  have hp : ¬ 0 ≤ (Browser.coldBoot o).games.pending := by
    show ¬ (0 : Int) ≤ -1
    decide
  exact ⟨⟨coldBoot_base o, fun h => absurd h hp, fun _ => .inr rfl⟩, fun _ h => absurd h hp⟩

theorem PendingInv.fits {b : Browser} (h : PendingInv b) (hm : b.disc.mode = false) {slot : Nat}
    (hj : b.games.jumps slot) : JumpFits b.games slot := by
  have hp : 0 ≤ b.games.pending := by rw [hj.1]; exact Int.natCast_nonneg slot
  obtain ⟨hlist, hslot, hpast⟩ := h.games.belongs hp
  have hmatch : slot = gmMatchLastPlayed b.games.ld.entries b.games.lastPlayedPath :=
    Int.ofNat.inj (hj.1.symm.trans hslot)
  refine ⟨hlist, ?_⟩
  rw [hmatch]
  refine (gmMatchLastPlayed_spec b.games.ld.entries b.games.lastPlayedPath).imp_right ?_
  rintro ⟨hzero, hnone⟩
  refine ⟨hzero, ⟨Bool.eq_false_iff.mpr fun hs => ?_, ?_⟩, hnone⟩
  · have := (h.reading hs hp).2
    simp [hm] at this
  · cases hw : b.games.worker with
    | begin | list | arm | poll | checkPath | publish => simp [hw, WorkerPc.searched] at hpast
    | idle | pair | setupGrid | background | finish => rfl

/-- In every run in which no start of the worker frees a list with a slot
pending: every frame that jumps does so in the list that was searched, to the
last-played file, or to slot 0 of a complete list that does not have it. -/
theorem jumps_to_last_played (o : MenuOptions) (ls : List BrowserLabel)
    (hg : Steps.Guarded browserStep NothingPending (.coldBoot o) ls) {pre : List BrowserLabel} {f : FrameInput}
    (hp : pre ++ [.frame f] <+: ls) {slot : Nat} (hm : (Steps.run browserStep (.coldBoot o) pre).disc.mode = false)
    (hj : (Steps.run browserStep (.coldBoot o) pre).games.jumps slot) :
    JumpFits (Steps.run browserStep (.coldBoot o) pre).games slot := by
  have hpre := hg.upto ((List.prefix_append pre [.frame f]).trans hp)
  exact (Steps.inv_run PendingInv browserStep_pending (coldBoot_pending o) hpre).fits hm hj

/-- The scan is done and the search has found the second game. -/
def scanAndSearch : List BrowserLabel := List.replicate 13 (.worker gamePair)

theorem jumps_to_last_played_second :
    JumpFits (Steps.run browserStep (.coldBoot plainOptions) scanAndSearch).games 1 := by
  have hg : Steps.Guarded browserStep (Unwaited fun _ _ => True) (.coldBoot plainOptions)
      (scanAndSearch ++ [.frame quietFrame]) := by
    decide +kernel
  exact jumps_to_last_played plainOptions _ (hg.mono fun _ _ => nothingPending_of_unwaited) (List.prefix_refl _)
    (by decide +kernel) (by decide +kernel)

/-- B as the scan ends: the search runs while B waits. Then the folder above is
scanned. -/
def leaveBeforeSearch : List BrowserLabel :=
  List.replicate 11 (.worker gamePairBelow) ++ [.frame { quietFrame with b := true, worker := fun _ => gamePairBelow }] ++
    List.replicate 9 (.worker gamePair)

/-- The slot found in the one folder jumps in the other. -/
theorem slot_survives_the_folder :
    let b := Steps.run browserStep (.coldBoot plainOptions) leaveBeforeSearch
    b.disc.mode = false ∧ b.games.jumps 1 ∧ ¬ JumpFits b.games 1 := by
  intro b
  have hend : b.disc.mode = false ∧ b.games.jumps 1 ∧ b.games.searchedNo ≠ b.games.listNo := by decide +kernel
  exact ⟨hend.1, hend.2.1, fun h => hend.2.2 h.1⟩

end Cubiboot
