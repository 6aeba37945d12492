import Cubiboot.Browser

/-
  What is confirmed is what boots.

  A on an entry opens the Game Play submenu, which keeps no entry but only the
  cursor's index. While it is open the cursor must stay where it is and the
  entry there must stay the same file. The d-pad is gated on the submenu, but the
  pending jump is taken in any frame of the browser, and the disc screen, which Z
  opens over the submenu too, ends its read with a start of the worker that frees
  a list whose scan it cut short.

  What is proved:
    1. `browserStep_confirm` — every step that moves neither the cursor nor the
       list under the submenu keeps `ConfirmInv`.
    2. `confirmed_is_booted` — hence over every run: the submenu is on the file it
       was opened on, and START boots that file and no other.
    3. `jump_under_the_submenu` — the jump taken with the submenu open, and the
       other file booted.
-/

set_option autoImplicit false

namespace Cubiboot

/-- The entry under the cursor is the file `e`. -/
def Games.ShowsFile (g : Games) (e : FileEntry) : Prop :=
  ∃ e', g.entryAt g.grid.selectedSlot = some e' ∧ SameFile e e'

/-- While the submenu is open, it is on the file it was opened on. -/
def Confirmed (b : Browser) : Prop := b.submenu = .start → ∃ e, b.opened = some e ∧ b.games.ShowsFile e

/-- The condition on a step. With the submenu open, a frame of the browser takes
no jump away from the cursor, and no read of a disc ends, by itself or by B, with
a start of the worker that frees the list. -/
def KeepsConfirmed (b : Browser) : BrowserLabel → Prop
  | .frame f =>
    b.submenu = .start →
      (b.disc.mode = false → ∀ slot, b.games.jumps slot → (slot : Int) = b.games.grid.selectedSlot) ∧
      (b.disc.mode = true → cancelsRead f b → b.games.freesList (restartTarget b.games) = false)
  | .tick drive _ _ =>
    b.submenu = .start → b.disc.mode = true → endsRead drive b →
      b.games.freesList (restartTarget b.games) = false
  | _ => True

structure ConfirmInv (b : Browser) : Prop where
  base : b.games.Base
  confirmed : Confirmed b

/-! ## The list and the cursor -/

/-- The worker leaves the cursor on its file. -/
theorem workerStep_showsFile (held : Bool) {g : Games} (a : WorkerAnswer) (hb : g.Base) {e : FileEntry}
    (h : g.ShowsFile e) : (workerStep held g a).ShowsFile e := by
  obtain ⟨e', he', hsame⟩ := h
  -- at the first set-up, which moves the cursor, nothing is listed yet
  have hw : g.worker ≠ .list := by
    intro hw
    have hempty := hb.empty (by rw [hw]; rfl)
    simp [Games.entryAt, hempty] at he'
  obtain ⟨e'', he'', hsame'⟩ := entryAt_kept (workerStep_keeps held g a) he'
  refine ⟨e'', ?_, hsame.trans hsame'⟩
  rw [workerStep_selectedSlot held a hw]
  exact he''

theorem gmDeinitThread_showsFile {g : Games} (hb : g.Base) (worker : Nat → WorkerAnswer) {e : FileEntry}
    (h : g.ShowsFile e) : (gmDeinitThread worker g).ShowsFile e := by
  have hboth : (gmDeinitThread worker g).Base ∧ (gmDeinitThread worker g).ShowsFile e :=
    gmDeinitThread_inv (fun g => g.Base ∧ g.ShowsFile e)
      (fun g a h _ => ⟨workerStep_base true g a h.1, workerStep_showsFile true a h.1 h.2⟩) ⟨hb, h⟩
      fun _ => Steps.guarded_true _
  exact hboth.2

/-- A start of the worker that does not free the list changes nothing shown. -/
theorem gmStartThread_showsFile {g : Games} {target : Option Path} (hkeep : g.freesList target = false)
    {e : FileEntry} (h : g.ShowsFile e) : (gmStartThread target g).ShowsFile e := by
  obtain ⟨-, heq⟩ | ⟨-, -, heq⟩ | ⟨-, hfree, -⟩ := gmStartThread_cases target g
  · rw [heq]
    exact h
  · rw [heq]
    exact h
  · simp [hkeep] at hfree

theorem applyPending_showsFile {g : Games} (hjump : ∀ slot, g.jumps slot → (slot : Int) = g.grid.selectedSlot)
    {e : FileEntry} (h : g.ShowsFile e) : g.applyPending.ShowsFile e := by
  obtain ⟨-, heq⟩ | ⟨-, -, heq⟩ | ⟨slot, hj, heq⟩ := applyPending_cases g <;> rw [heq]
  · exact h
  · exact h
  · simp only [Games.ShowsFile, hjump slot hj]
    exact h

/-! ## A frame -/

/-- A change that leaves the submenu as it is and, where it is open, its file. -/
theorem ConfirmInv.goesOn {b b' : Browser} (h : ConfirmInv b) (hb : b'.games.Base) (hs : b'.submenu = b.submenu)
    (ho : b'.opened = b.opened) (hshow : b.submenu = .start → ∀ e, b.games.ShowsFile e → b'.games.ShowsFile e) :
    ConfirmInv b' := by
  refine ⟨hb, fun hs' => ?_⟩
  rw [hs] at hs'
  obtain ⟨e, he, hshown⟩ := h.confirmed hs'
  exact ⟨e, ho.trans he, hshow hs' e hshown⟩

/-- The submenu is not open. -/
theorem ConfirmInv.closed {b : Browser} (hb : b.games.Base) (hs : b.submenu = .loader) : ConfirmInv b :=
  ⟨hb, fun hs' => by rw [hs] at hs'; cases hs'⟩

theorem frameHead_confirm {f : FrameInput} {b : Browser} (h : ConfirmInv b) (hm : b.disc.mode = false)
    (hg : KeepsConfirmed b (.frame f)) : ConfirmInv (frameHead f b) := by
  have hb := base_gamesInv.frameHead f h.base
  obtain ⟨_, _, _, _, heq⟩ := frameHead_eq f b
  rw [heq] at hb ⊢
  exact h.goesOn hb rfl rfl fun hs e => applyPending_showsFile ((hg hs).1 hm)

theorem pressZ_confirm (f : FrameInput) {b : Browser} (h : ConfirmInv b) : ConfirmInv (pressZ f b) := by
  obtain ⟨-, heq⟩ | ⟨-, heq⟩ := pressZ_cases f b <;> rw [heq]
  · exact h
  · exact h.goesOn (gmDeinitThread_base h.base _) rfl rfl fun _ e => gmDeinitThread_showsFile h.base _

theorem pressB_confirm (f : FrameInput) {b : Browser} (h : ConfirmInv b) : ConfirmInv (pressB f b) := by
  obtain ⟨-, heq⟩ | ⟨-, heq⟩ | ⟨⟨-, -, hs⟩, heq⟩ := pressB_cases f b <;> rw [heq]
  · exact h
  · exact .closed h.base rfl
  · exact .closed (gmStartThread_base (gmDeinitThread_base h.base _) _) hs

theorem pressA_confirm (f : FrameInput) {b : Browser} (h : ConfirmInv b) : ConfirmInv (pressA f b) := by
  obtain ⟨-, heq⟩ | ⟨e, hact, ⟨-, heq⟩ | ⟨-, -, heq⟩ | ⟨-, -, heq⟩⟩ := pressA_cases f b <;> rw [heq]
  · exact h
  · exact .closed (gmStartThread_base (gmDeinitThread_base h.base _) _) hact.2.1
  all_goals
    have hshown : b.games.ShowsFile e := ⟨e, (actsOn_slot hact).1, .refl e⟩
    exact ⟨h.base, fun _ => ⟨e, rfl, hshown⟩⟩

/-- Up to START the submenu stays on its file. -/
theorem afterA_confirm {f : FrameInput} {b : Browser} (h : ConfirmInv b) (hg : KeepsConfirmed b (.frame f))
    (hr : reachesStart f b) : ConfirmInv (afterA f b) :=
  afterA_inv ConfirmInv hr (fun hm => frameHead_confirm h hm hg) (fun _ _ => pressZ_confirm f)
    (fun _ => pressB_confirm f) fun _ => pressA_confirm f

theorem frameEnd_confirm (f : FrameInput) {b : Browser} (h : ConfirmInv b) :
    ConfirmInv (menuMoves f (pressStart f b)) := by
  obtain ⟨boot, games, heq, hscroll, hsame⟩ := frameEnd_eq f b
  rw [heq]
  refine h.goesOn (h.base.scrolls hscroll) rfl rfl fun hs e hshown => ?_
  rw [hsame hs]
  exact hshown

theorem browserStep_confirm (b : Browser) (l : BrowserLabel) (h : ConfirmInv b) (hg : KeepsConfirmed b l) :
    ConfirmInv (browserStep b l) := by
  have hb := browserStep_base b l h.base
  cases l with
  | worker answer => exact h.goesOn hb rfl rfl fun _ e => workerStep_showsFile false answer h.base
  | frame f =>
    apply gameselectInputs_inv ConfirmInv
    · intro hm
      have hb : (discInputs f b).games.Base := by
        rwa [browserStep, gameselectInputs, if_pos hm] at hb
      obtain ⟨boot, heq⟩ | ⟨hcancel, heq⟩ | ⟨-, heq⟩ := discInputs_cases f b <;> rw [heq] at hb ⊢
      · exact h.goesOn hb rfl rfl fun _ _ hshown => hshown
      · exact h.goesOn hb rfl rfl fun hs e => gmStartThread_showsFile ((hg hs).2 hm hcancel)
      · exact h.goesOn hb rfl rfl fun _ _ hshown => hshown
    · exact fun hm => frameHead_confirm h hm hg
    · exact fun _ _ => pressZ_confirm f
    · exact fun _ => pressB_confirm f
    · exact fun _ => pressA_confirm f
    · exact fun _ => frameEnd_confirm f
  | tick drive coverOpen worker =>
    simp only [browserStep] at hb ⊢
    split
    · rename_i hm
      rw [if_pos hm] at hb
      rcases stockDiscTick_cases drive coverOpen worker b with ⟨-, -, heq⟩ | ⟨hends, _, heq⟩ | ⟨-, _, _, heq⟩ |
        ⟨-, heq⟩ <;> rw [heq] at hb ⊢
      · exact h.goesOn hb rfl rfl fun _ _ hshown => hshown
      · exact h.goesOn hb rfl rfl fun hs e => gmStartThread_showsFile (hg hs hm hends)
      · exact h.goesOn hb rfl rfl fun _ _ hshown => hshown
      · exact h.goesOn hb rfl rfl fun _ e => gmDeinitThread_showsFile h.base _
    · exact h
  | menuAlpha back =>
    simp only [browserStep, menuAlphaSetup]
    split
    · exact .closed h.base rfl
    · exact h
  | cardMessage => exact h

theorem coldBoot_confirm (o : MenuOptions) : ConfirmInv (.coldBoot o) := .closed (coldBoot_base o) rfl

/-! ## START -/

/-- START is pressed with the submenu open. -/
def startsBoot (b : Browser) : BrowserLabel → Prop
  | .frame f => reachesStart f b ∧ f.start = true ∧ (afterA f b).submenu = .start
  | _ => False

theorem afterA_boot (f : FrameInput) (b : Browser) (hr : reachesStart f b) : (afterA f b).boot = b.boot := by
  apply afterA_inv (fun b' => b'.boot = b.boot) hr
  · intro _
    obtain ⟨_, _, _, _, heq⟩ := frameHead_eq f b
    rw [heq]
  · intro _ _ h1
    obtain ⟨-, heq⟩ | ⟨-, heq⟩ := pressZ_cases f (frameHead f b) <;> rw [afterZ, heq] <;> exact h1
  · intro _ h2
    obtain ⟨-, heq⟩ | ⟨-, heq⟩ | ⟨-, heq⟩ := pressB_cases f (afterZ f b) <;> rw [afterB, heq] <;> exact h2
  · intro _ h3
    obtain ⟨-, heq⟩ | ⟨e, -, ⟨-, heq⟩ | ⟨-, -, heq⟩ | ⟨-, -, heq⟩⟩ := pressA_cases f (afterB f b) <;>
      rw [afterA, heq] <;> exact h3

theorem menuMoves_boot (f : FrameInput) (b : Browser) : (menuMoves f b).boot = b.boot := by
  rw [menuMoves]
  split <;> rfl

/-- Nothing else sets what is to boot. -/
theorem browserStep_boot {b : Browser} {l : BrowserLabel} (h : ¬ startsBoot b l) :
    (browserStep b l).boot = b.boot := by
  cases l with
  | worker answer => rfl
  | frame f =>
    have hhead : (frameHead f b).boot = b.boot := by
      obtain ⟨_, _, _, _, heq⟩ := frameHead_eq f b
      rw [heq]
    simp only [browserStep]
    obtain ⟨-, heq⟩ | ⟨-, -, heq⟩ | ⟨-, -, -, heq⟩ | ⟨hr, heq⟩ := gameselectInputs_cases f b <;> rw [heq]
    · obtain ⟨boot, heq⟩ | ⟨-, heq⟩ | ⟨-, heq⟩ := discInputs_cases f b <;> rw [heq]
    · exact hhead
    · obtain ⟨-, heq⟩ | ⟨-, heq⟩ := pressZ_cases f (frameHead f b) <;> rw [afterZ, heq] <;> exact hhead
    · have hno : (f.start && decide ((afterA f b).submenu = .start)) = false := by
        apply Bool.eq_false_iff.mpr
        intro hs
        simp only [Bool.and_eq_true, decide_eq_true_eq] at hs
        exact h ⟨hr, hs⟩
      rw [menuMoves_boot, pressStart, hno]
      exact afterA_boot f b hr
  | tick drive coverOpen worker =>
    simp only [browserStep]
    split
    · rcases stockDiscTick_cases drive coverOpen worker b with ⟨-, -, heq⟩ | ⟨-, _, heq⟩ | ⟨-, _, _, heq⟩ |
        ⟨-, heq⟩ <;> rw [heq]
    · rfl
  | menuAlpha back =>
    simp only [browserStep, menuAlphaSetup]
    split <;> rfl
  | cardMessage => rfl

/-- What START copies: the entry, and the disc it is paired with. -/
def Games.bootOf (g : Games) (e : FileEntry) : Boot := ⟨e, e.second.bind fun j => g.ld.entries[j]?⟩

theorem pressStart_boot {f : FrameInput} {b : Browser} {e : FileEntry} (hf : f.start = true)
    (hs : b.submenu = .start) (he : b.games.entryAt b.games.grid.selectedSlot = some e) :
    (pressStart f b).boot = if f.canBoot e then some (b.games.bootOf e) else b.boot := by
  rw [pressStart, hf, hs, he]
  dsimp only
  rw [if_pos (by decide)]
  split <;> rfl

/-- In every run whose steps leave the cursor and the list under the submenu
alone: while the submenu is open it is on the file it was opened on; a START then
boots that file, with the disc it is paired with, if it can be booted; and
nothing else changes what is to boot. -/
theorem confirmed_is_booted (o : MenuOptions) (ls : List BrowserLabel)
    (hg : Steps.Guarded browserStep KeepsConfirmed (.coldBoot o) ls) {pre : List BrowserLabel} :
    (pre <+: ls → Confirmed (Steps.run browserStep (.coldBoot o) pre)) ∧
    ∀ l, pre ++ [l] <+: ls →
      let b := Steps.run browserStep (.coldBoot o) pre
      (¬ startsBoot b l → (browserStep b l).boot = b.boot) ∧
      ∀ f, l = .frame f → startsBoot b l → ∃ e e',
        (afterA f b).opened = some e ∧ SameFile e e' ∧
        (afterA f b).games.entryAt (afterA f b).games.grid.selectedSlot = some e' ∧
        (browserStep b l).boot = if f.canBoot e' then some ((afterA f b).games.bootOf e') else b.boot := by
  have hinv : ∀ {pre}, pre <+: ls → ConfirmInv (Steps.run browserStep (.coldBoot o) pre) := fun hp =>
    Steps.inv_run ConfirmInv browserStep_confirm (coldBoot_confirm o) (hg.upto hp)
  refine ⟨fun hp => (hinv hp).confirmed, fun l hp => ⟨browserStep_boot, ?_⟩⟩
  rintro f rfl ⟨hr, hf, hs⟩
  have hb := hinv ((List.prefix_append pre [.frame f]).trans hp)
  have hA := afterA_confirm hb (hg.upto hp).at hr
  obtain ⟨e, he, e', hat, hsame⟩ := hA.confirmed hs
  refine ⟨e, e', he, hsame, hat, ?_⟩
  simp only [browserStep, gameselectInputs_reaches hr, menuMoves_boot, pressStart_boot hf hs hat,
    afterA_boot f _ hr]

/-- A as soon as the first game is listed, then START. -/
def confirmAtOnce : List BrowserLabel :=
  List.replicate 6 (.worker gamePair) ++ [.frame { quietFrame with a := true }, .frame { quietFrame with start := true }]

theorem confirmed_is_booted_at_once :
    Confirmed (Steps.run browserStep (.coldBoot plainOptions) confirmAtOnce) := by
  refine (confirmed_is_booted plainOptions confirmAtOnce ?_).1 (List.prefix_refl _)
  refine ⟨trivial, trivial, trivial, trivial, trivial, trivial, fun hs => ?_,
    fun _ => ⟨fun _ slot hj => ?_, fun hm => ?_⟩,
    trivial⟩
  · exact absurd hs (by decide +kernel)
  · have hp : (-1 : Int) = slot := Eq.trans (by decide +kernel) hj.1
    omega
  · exact absurd hm (by decide +kernel)

/-- A on the first game while the folder is scanned; then the worker publishes
the slot of the second; then START. -/
def confirmThenJump : List BrowserLabel :=
  List.replicate 12 (.worker gamePair) ++
    [.frame { quietFrame with a := true }, .worker gamePair, .frame { quietFrame with start := true }]

/-- The submenu is open for the first game, and the second is what boots. -/
theorem jump_under_the_submenu :
    let b := Steps.run browserStep (.coldBoot plainOptions) confirmThenJump
    ¬ Confirmed b ∧ b.opened.map FileEntry.path = some (numberedGame 0).path ∧
      b.boot.map (fun boot => boot.entry.path) = some (numberedGame 1).path := by
  intro b
  have hend : b.submenu = .start ∧ b.opened.map FileEntry.path = some (numberedGame 0).path ∧
      (b.games.entryAt b.games.grid.selectedSlot).map FileEntry.path = some (numberedGame 1).path ∧
      b.boot.map (fun boot => boot.entry.path) = some (numberedGame 1).path := by
    decide +kernel
  obtain ⟨hs, hopened, hat, hboot⟩ := hend
  refine ⟨fun hc => ?_, hopened, hboot⟩
  obtain ⟨e, he, e', he', hsame⟩ := hc hs
  rw [he] at hopened
  rw [he'] at hat
  have hpath : (numberedGame 0).path = (numberedGame 1).path :=
    calc (numberedGame 0).path
      _ = e.path := (Option.some.inj hopened).symm
      _ = e'.path := hsame.path.symm
      _ = (numberedGame 1).path := Option.some.inj hat
  exact absurd hpath (by decide)

end Cubiboot
