import Cubiboot.Browser

/-
  The memory-card hook and the entry it reads (`gameid.c`).

  A on a game leaves a pointer to its entry behind; the card thread's hook reads
  through it at every message, whatever the menu has done since, and nothing
  clears it. While the list it was taken from lives, the entry stays in place and
  stays the same file. A start of the worker frees the entries and leaves the
  pointer. The name is copied with `strcpy` from a field that need not end
  within the buffer.

  What is proved:
    1. `browserStep_mcp` — while its list lives, the entry selected is the game
       confirmed last; `within_mcp` says so of the moments inside a step.
    2. `hook_safe_iff` — hence over every run, every message finds a live entry
       and a name that fits if and only if the list has not been freed since, and
       the name ends.
    3. `hook_reads_freed_entry` — the folder left, and a message after it.

  Correspondence (C ↔ Lean):
    `struct gcm_disk_info`              ↔ `GcmDiskInfo`
    `strcpy` into `diskInfo`            ↔ `strcpyInto`
    `pre_custom_card_OSSendMessage`     ↔ `preCustomCardOSSendMessage`
-/

set_option autoImplicit false

namespace Cubiboot

/-! ## The hook -/

structure GcmDiskInfo where
  gameCode : List UInt8
  makerCode : List UInt8
  diskId : UInt8
  version : UInt8
  deriving DecidableEq, Repr

def FileEntry.diskInfo (e : FileEntry) : GcmDiskInfo where
  gameCode := e.extra.gameId.take 4
  makerCode := (e.extra.gameId.drop 4).take 2
  diskId := e.extra.discNum
  version := e.extra.discVer

/-- The descriptor's fields as they lie one behind the other. -/
def BnrDesc.bytes (d : BnrDesc) : List UInt8 :=
  d.gameName ++ d.company ++ d.fullGameName ++ d.fullCompany ++ d.description

/-- `strcpy` into a buffer of `size` bytes: the string copied, or `none` when it
runs past the buffer. -/
def strcpyInto (size : Nat) (src : List UInt8) : Option (List UInt8) :=
  match src.findIdx? (· = 0) with
  | some n => if n < size then some (src.take n) else none
  | none => none

def diskInfoLen : Nat := 64

/-- What a message makes of the pointer. -/
inductive HookOutcome where
  | nothing
  | sends (diskId : GcmDiskInfo) (diskInfo : List UInt8)
  | deadEntry
  | overrun
  deriving DecidableEq, Repr

/-- An entry lives as long as the list it is in. -/
def Games.deref (g : Games) (r : EntryRef) : Option FileEntry :=
  if r.listNo = g.listNo then g.ld.entries[r.slot]? else none

def preCustomCardOSSendMessage (b : Browser) : HookOutcome :=
  match b.mcpSelected with
  | none => .nothing
  | some r =>
    match b.games.deref r with
    | none => .deadEntry
    | some e =>
      match strcpyInto diskInfoLen e.desc.bytes with
      | none => .overrun
      | some name => .sends e.diskInfo name

/-- The hook has nothing to do, or sends the id of the game confirmed last, and
that game is still listed. -/
def HookSafe (b : Browser) : Prop :=
  match preCustomCardOSSendMessage b with
  | .nothing => True
  | .sends diskId _ =>
    ∃ c, b.confirmedGame = some c ∧ diskId = c.diskInfo ∧ ∃ e ∈ b.games.ld.entries, SameFile c e
  | .deadEntry | .overrun => False

/-- The condition on a message: if a game was ever selected, the list has not been
freed since, and a NUL ends the name within `gameName` and `company`. -/
def SelectedLives (b : Browser) : Prop :=
  ∀ r, b.mcpSelected = some r →
    r.listNo = b.games.listNo ∧
      ∀ e, b.games.ld.entries[r.slot]? = some e → 0 ∈ e.desc.bytes.take diskInfoLen

/-- A message falls on a state of which `P` holds. -/
def OnMessage (P : Browser → Prop) (b : Browser) : BrowserLabel → Prop
  | .cardMessage => P b
  | _ => True

instance (b : Browser) : Decidable (SelectedLives b) :=
  match hm : b.mcpSelected with
  | none => isTrue fun r hr => by rw [hm] at hr; cases hr
  | some r =>
    decidable_of_iff
      (r.listNo = b.games.listNo ∧ ∀ e ∈ b.games.ld.entries[r.slot]?, 0 ∈ e.desc.bytes.take diskInfoLen)
      (by simp only [SelectedLives, hm, Option.some.injEq, forall_eq', Option.mem_def])

instance (P : Browser → Prop) [DecidablePred P] (b : Browser) : ∀ l, Decidable (OnMessage P b l)
  | .cardMessage => inferInstanceAs (Decidable (P b))
  | .worker _ | .frame _ | .tick _ _ _ | .menuAlpha _ => isTrue trivial

theorem strcpyInto_isSome (size : Nat) (src : List UInt8) : (strcpyInto size src).isSome ↔ 0 ∈ src.take size := by
  rw [strcpyInto]
  cases hf : src.findIdx? (· = 0) with
  | none =>
    rw [List.findIdx?_eq_none_iff] at hf
    refine iff_of_false (by simp) fun h0 => ?_
    simpa using hf 0 (List.mem_of_mem_take h0)
  | some n =>
    obtain ⟨hn, hzero, hfirst⟩ := List.findIdx?_eq_some_iff_getElem.mp hf
    rw [decide_eq_true_eq] at hzero
    dsimp only
    constructor
    · intro h
      split at h
      · rename_i hlt
        rw [List.mem_take_iff_getElem]
        exact ⟨n, by omega, hzero⟩
      · cases h
    · intro h0
      obtain ⟨i, hi, hi0⟩ := List.mem_take_iff_getElem.mp h0
      have hle : n ≤ i := by
        by_contra hlt
        have := hfirst i (by omega)
        simp [hi0] at this
      rw [if_pos (by omega)]
      rfl

/-! ## The selection -/

/-- The entry selected in list `r.listNo` is the file `c`, as long as that list
lives. -/
structure Selected (r : EntryRef) (c : FileEntry) (g : Games) : Prop where
  base : g.Base
  past : r.listNo ≤ g.listNo
  listed : r.listNo = g.listNo → ∃ e, g.ld.entries[r.slot]? = some e ∧ SameFile c e

theorem Selected.keeps {r : EntryRef} {c : FileEntry} {g g' : Games} (h : Selected r c g) (hb : g'.Base)
    (hlist : g'.listNo = g.listNo) (hkept : Kept g.ld.entries g'.ld.entries) : Selected r c g' := by
  refine ⟨hb, hlist ▸ h.past, fun hr => ?_⟩
  obtain ⟨e, he, hsame⟩ := h.listed (hr.trans hlist)
  obtain ⟨e', he', hsame'⟩ := hkept r.slot e he
  exact ⟨e', he', hsame.trans hsame'⟩

theorem selected_gamesInv (r : EntryRef) (c : FileEntry) : GamesInv (fun _ _ => True) (Selected r c) where
  step := fun held g a h _ =>
    h.keeps (workerStep_base held g a h.base) (workerStep_listNo held g a) (workerStep_keeps held g a)
  start := by
    intro target g h
    have hb := gmStartThread_base h.base target
    obtain ⟨-, heq⟩ | ⟨-, -, heq⟩ | ⟨-, -, heq⟩ := gmStartThread_cases target g <;> rw [heq] at hb ⊢
    · exact h
    · exact h.keeps hb rfl (.refl _)
    · -- the list is another one now
      refine ⟨hb, Nat.le_succ_of_le h.past, fun hr => ?_⟩
      have hpast := h.past
      dsimp only at hr
      omega
  jump := by
    intro g h
    obtain ⟨_, _, _, heq⟩ := applyPending_eq g
    have hb := base_gamesInv.jump g h.base
    rw [heq] at hb ⊢
    exact h.keeps hb rfl (.refl _)
  move := by
    intro f g h
    have hs := movesOf_scrolled f g
    refine h.keeps (h.base.scrolls hs) ?_ hs.entries
    rw [hs.eq]

/-- The selection of `b` is the game confirmed last, as long as its list lives. -/
structure McpInv (b : Browser) : Prop where
  base : b.games.Base
  selected : ∀ r, b.mcpSelected = some r → ∃ c, b.confirmedGame = some c ∧ Selected r c b.games

/-- A change that selects nothing, of a list whose selections it keeps. -/
theorem McpInv.keeps {b b' : Browser} (h : McpInv b) (hb : b'.games.Base)
    (hmcp : b'.mcpSelected = b.mcpSelected ∧ b'.confirmedGame = b.confirmedGame)
    (hsel : ∀ r c, Selected r c b.games → Selected r c b'.games) : McpInv b' := by
  refine ⟨hb, fun r hr => ?_⟩
  rw [hmcp.1] at hr
  obtain ⟨c, hc, hs⟩ := h.selected r hr
  exact ⟨c, hmcp.2.trans hc, hsel r c hs⟩

/-! ## The blocks of a frame -/

theorem frameHead_mcp (f : FrameInput) {b : Browser} (h : McpInv b) : McpInv (frameHead f b) := by
  refine h.keeps (base_gamesInv.frameHead f h.base) ?_ fun r c => (selected_gamesInv r c).frameHead f
  obtain ⟨_, _, _, _, heq⟩ := frameHead_eq f b
  rw [heq]
  exact ⟨rfl, rfl⟩

theorem pressZ_mcp (f : FrameInput) {b : Browser} (h : McpInv b) : McpInv (pressZ f b) := by
  have hwait : f.z = true → b.games.WaitMeets (fun _ _ => True) f.worker := fun _ => waitMeets_true _ _
  refine h.keeps (base_gamesInv.pressZ h.base hwait) ?_ fun r c hs => (selected_gamesInv r c).pressZ hs hwait
  obtain ⟨-, heq⟩ | ⟨-, heq⟩ := pressZ_cases f b <;> rw [heq] <;> exact ⟨rfl, rfl⟩

theorem pressB_mcp (f : FrameInput) {b : Browser} (h : McpInv b) : McpInv (pressB f b) := by
  have hwait : leavesFolder f b → b.games.WaitMeets (fun _ _ => True) f.worker := fun _ => waitMeets_true _ _
  refine h.keeps (base_gamesInv.pressB h.base hwait) ?_ fun r c hs => (selected_gamesInv r c).pressB hs hwait
  obtain ⟨-, heq⟩ | ⟨-, heq⟩ | ⟨-, heq⟩ := pressB_cases f b <;> rw [heq] <;> exact ⟨rfl, rfl⟩

/-- A on a game selects it; A on anything else selects nothing. -/
theorem pressA_mcp (f : FrameInput) {b : Browser} (h : McpInv b) : McpInv (pressA f b) := by
  have hb := base_gamesInv.pressA (f := f) h.base fun _ _ _ => waitMeets_true _ _
  have hsel : ∀ r c, Selected r c b.games → Selected r c (pressA f b).games := fun r c hs =>
    (selected_gamesInv r c).pressA hs fun _ _ _ => waitMeets_true _ _
  obtain ⟨-, heq⟩ | ⟨e, hact, ⟨-, heq⟩ | ⟨-, -, heq⟩ | ⟨-, -, heq⟩⟩ := pressA_cases f b <;> rw [heq] at hb hsel ⊢
  · exact h
  · exact h.keeps hb ⟨rfl, rfl⟩ hsel
  · exact h.keeps hb ⟨rfl, rfl⟩ hsel
  · refine ⟨hb, fun r hr => ⟨e, rfl, ?_⟩⟩
    obtain rfl := Option.some.inj hr
    exact ⟨hb, Nat.le_refl _, fun _ => ⟨e, (actsOn_slot hact).2, .refl e⟩⟩

theorem frameEnd_mcp (f : FrameInput) {b : Browser} (h : McpInv b) : McpInv (menuMoves f (pressStart f b)) := by
  obtain ⟨boot, games, heq, hscroll, -⟩ := frameEnd_eq f b
  rw [heq]
  refine h.keeps (h.base.scrolls hscroll) ⟨rfl, rfl⟩ fun r c hs => ?_
  refine hs.keeps (h.base.scrolls hscroll) ?_ hscroll.entries
  rw [hscroll.eq]

/-- The states a message can fall on inside a step: between the blocks of a
frame, and while the menu waits for the worker, whatever the worker is told. -/
inductive Within (b : Browser) : BrowserLabel → Browser → Prop where
  | head (f : FrameInput) : Within b (.frame f) (frameHead f b)
  | waitZ (f : FrameInput) (as : List WorkerAnswer) : Within b (.frame f)
      { frameHead f b with games := Steps.run (workerStep true) (frameHead f b).games as }
  | z (f : FrameInput) : Within b (.frame f) (afterZ f b)
  | waitB (f : FrameInput) (as : List WorkerAnswer) : Within b (.frame f)
      { afterZ f b with games := Steps.run (workerStep true) (afterZ f b).games as }
  | b (f : FrameInput) : Within b (.frame f) (afterB f b)
  | waitA (f : FrameInput) (as : List WorkerAnswer) : Within b (.frame f)
      { afterB f b with games := Steps.run (workerStep true) (afterB f b).games as }
  | a (f : FrameInput) : Within b (.frame f) (afterA f b)
  | waitLid (drive : DiAnswer) (coverOpen : Bool) (worker : Nat → WorkerAnswer) (as : List WorkerAnswer) :
      Within b (.tick drive coverOpen worker) { b with games := Steps.run (workerStep true) b.games as }

/-- While the menu waits. -/
theorem McpInv.waits {b : Browser} (h : McpInv b) (as : List WorkerAnswer) :
    McpInv { b with games := Steps.run (workerStep true) b.games as } := by
  have hrun : ∀ P : Games → Prop, GamesInv (fun _ _ => True) P → P b.games →
      P (Steps.run (workerStep true) b.games as) := fun P hP hg =>
    Steps.inv_run P (hP.step true) hg (Steps.guarded_true as)
  exact h.keeps (hrun _ base_gamesInv h.base) ⟨rfl, rfl⟩ fun r c hs => hrun _ (selected_gamesInv r c) hs

theorem within_mcp {b b' : Browser} {l : BrowserLabel} (h : McpInv b) (hw : Within b l b') : McpInv b' := by
  cases hw with
  | head f => exact frameHead_mcp f h
  | waitZ f as => exact (frameHead_mcp f h).waits as
  | z f => exact pressZ_mcp f (frameHead_mcp f h)
  | waitB f as => exact (pressZ_mcp f (frameHead_mcp f h)).waits as
  | b f => exact pressB_mcp f (pressZ_mcp f (frameHead_mcp f h))
  | waitA f as => exact (pressB_mcp f (pressZ_mcp f (frameHead_mcp f h))).waits as
  | a f => exact pressA_mcp f (pressB_mcp f (pressZ_mcp f (frameHead_mcp f h)))
  | waitLid drive coverOpen worker as => exact h.waits as

/-! ## The whole system -/

theorem browserStep_mcp (b : Browser) (l : BrowserLabel) (h : McpInv b) : McpInv (browserStep b l) := by
  have hkeep : ∀ {b'}, (b'.mcpSelected = b.mcpSelected ∧ b'.confirmedGame = b.confirmedGame) →
      b'.games = (browserStep b l).games → McpInv b' := by
    intro b' hmcp hgames
    refine h.keeps ?_ hmcp fun r c hs => ?_ <;> rw [hgames]
    · exact browserStep_base b l h.base
    · exact (selected_gamesInv r c).browserStep hs (workerMeets_true b l)
  cases l with
  | worker answer => exact hkeep ⟨rfl, rfl⟩ rfl
  | frame f =>
    apply gameselectInputs_inv McpInv
    · intro hm
      refine hkeep ?_ (by rw [browserStep, gameselectInputs, if_pos hm])
      obtain ⟨boot, heq⟩ | ⟨-, heq⟩ | ⟨-, heq⟩ := discInputs_cases f b <;> rw [heq] <;> exact ⟨rfl, rfl⟩
    · exact fun _ => frameHead_mcp f h
    · exact fun _ _ => pressZ_mcp f
    · exact fun _ => pressB_mcp f
    · exact fun _ => pressA_mcp f
    · exact fun _ => frameEnd_mcp f
  | tick drive coverOpen worker =>
    refine hkeep ?_ rfl
    simp only [browserStep]
    split
    · rcases stockDiscTick_cases drive coverOpen worker b with ⟨-, -, heq⟩ | ⟨-, _, heq⟩ | ⟨-, _, _, heq⟩ |
        ⟨-, heq⟩ <;> rw [heq] <;> exact ⟨rfl, rfl⟩
    · exact ⟨rfl, rfl⟩
  | menuAlpha back =>
    refine hkeep ?_ rfl
    simp only [browserStep, menuAlphaSetup]
    split <;> exact ⟨rfl, rfl⟩
  | cardMessage => exact h

theorem coldBoot_mcp (o : MenuOptions) : McpInv (.coldBoot o) :=
  ⟨coldBoot_base o, fun r hr => by cases hr⟩

theorem hook_live {b : Browser} {r : EntryRef} {e : FileEntry} (hm : b.mcpSelected = some r)
    (hlive : r.listNo = b.games.listNo) (he : b.games.ld.entries[r.slot]? = some e) :
    preCustomCardOSSendMessage b =
      match strcpyInto diskInfoLen e.desc.bytes with
      | none => .overrun
      | some name => .sends e.diskInfo name := by
  simp only [preCustomCardOSSendMessage, hm, Games.deref, if_pos hlive, he]

theorem hook_dead {b : Browser} {r : EntryRef} (hm : b.mcpSelected = some r) (hdead : r.listNo ≠ b.games.listNo) :
    preCustomCardOSSendMessage b = .deadEntry := by
  simp only [preCustomCardOSSendMessage, hm, Games.deref, if_neg hdead]

/-- Where the invariant holds, the hook is safe exactly when the condition holds. -/
theorem hookSafe_iff {b : Browser} (h : McpInv b) : HookSafe b ↔ SelectedLives b := by
  rw [SelectedLives, HookSafe]
  cases hm : b.mcpSelected with
  | none =>
    have hnothing : preCustomCardOSSendMessage b = .nothing := by
      simp only [preCustomCardOSSendMessage, hm]
    rw [hnothing]
    exact iff_of_true trivial fun r hr => by cases hr
  | some r =>
    obtain ⟨c, hc, hsel⟩ := h.selected r hm
    by_cases hlive : r.listNo = b.games.listNo
    · obtain ⟨e, he, hsame⟩ := hsel.listed hlive
      have hfits := strcpyInto_isSome diskInfoLen e.desc.bytes
      rw [hook_live hm hlive he]
      cases hcopy : strcpyInto diskInfoLen e.desc.bytes with
      | none =>
        rw [hcopy] at hfits
        refine iff_of_false id fun hl => ?_
        cases hfits.mpr ((hl r rfl).2 e he)
      | some name =>
        rw [hcopy] at hfits
        have hid : e.diskInfo = c.diskInfo := by
          simp only [FileEntry.diskInfo, hsame.gameId, hsame.discNum, hsame.discVer]
        refine iff_of_true ⟨c, hc, hid, e, List.mem_of_getElem? he, hsame⟩ fun r' hr' => ?_
        obtain rfl := Option.some.inj hr'
        refine ⟨hlive, fun e' he' => ?_⟩
        obtain rfl := Option.some.inj (he.symm.trans he')
        exact hfits.mp rfl
    · rw [hook_dead hm hlive]
      exact iff_of_false id fun hl => hlive (hl r rfl).1

/-- Over every run: every card message that falls on it finds no selection, or a
live entry, sends the id of the game confirmed last, and copies a name that fits,
if and only if at every message the list has not been freed since that game was
selected, and its name ends within the buffer. The same holds of a message that
falls inside a step. -/
theorem hook_safe_iff (o : MenuOptions) (ls : List BrowserLabel) :
    (Steps.Guarded browserStep (OnMessage HookSafe) (.coldBoot o) ls ↔
      Steps.Guarded browserStep (OnMessage SelectedLives) (.coldBoot o) ls) ∧
    ∀ l b', Within (Steps.run browserStep (.coldBoot o) ls) l b' → (HookSafe b' ↔ SelectedLives b') := by
  have hmessage : ∀ b l, McpInv b → (OnMessage HookSafe b l ↔ OnMessage SelectedLives b l) := by
    intro b l h
    cases l with
    | cardMessage => exact hookSafe_iff h
    | worker | frame | tick | menuAlpha => exact Iff.rfl
  refine ⟨Steps.guarded_iff McpInv browserStep_mcp hmessage (coldBoot_mcp o), fun l b' hw => ?_⟩
  have hrun : McpInv (Steps.run browserStep (.coldBoot o) ls) :=
    Steps.inv_run McpInv (fun b l h _ => browserStep_mcp b l h) (coldBoot_mcp o) (Steps.guarded_true ls)
  exact hookSafe_iff (within_mcp hrun hw)

/-- A game confirmed, then a message, and another while Z waits for the worker. -/
def confirmThenMessage : List BrowserLabel :=
  List.replicate 6 (.worker gamePairBelow) ++ [.frame { quietFrame with a := true }, .cardMessage]

theorem hook_safe_game_confirmed :
    Steps.Guarded browserStep (OnMessage HookSafe) (.coldBoot plainOptions) confirmThenMessage ∧
      HookSafe (afterZ { quietFrame with z := true }
        (Steps.run browserStep (.coldBoot plainOptions) confirmThenMessage)) :=
  ⟨(hook_safe_iff plainOptions confirmThenMessage).1.mpr (by decide +kernel),
    ((hook_safe_iff plainOptions confirmThenMessage).2 _ _ (.z { quietFrame with z := true })).mpr
      (by decide +kernel)⟩

/-- A run that ends with a message to a dead entry is not safe. -/
theorem message_to_dead_entry {b : Browser} {ls : List BrowserLabel}
    (h : preCustomCardOSSendMessage (Steps.run browserStep b ls) = .deadEntry) :
    ¬ Steps.Guarded browserStep (OnMessage HookSafe) b (ls ++ [.cardMessage]) := by
  intro hg
  have hlast : HookSafe (Steps.run browserStep b ls) := hg.at
  rw [HookSafe, h] at hlast
  exact hlast

/-- A game selected, its folder left, and then a message. -/
def selectThenLeave : List BrowserLabel :=
  List.replicate 9 (.worker gamePairBelow) ++ [.frame { quietFrame with a := true }] ++
    List.replicate 19 (.frame quietFrame) ++ [.frame { quietFrame with b := true }] ++
    List.replicate 19 (.frame quietFrame) ++ [.frame { quietFrame with b := true, worker := fun _ => gamePairBelow }]

/-- The hook reads an entry that was freed. -/
theorem hook_reads_freed_entry :
    ¬ Steps.Guarded browserStep (OnMessage HookSafe) (.coldBoot plainOptions) (selectThenLeave ++ [.cardMessage]) := by
  apply message_to_dead_entry
  decide +kernel

end Cubiboot
