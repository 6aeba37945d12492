import Cubiboot.Browser

/-
  The list that is kept: a complete scan of the folder asked for, on a card
  whose contents do not change.

  `gm_start_thread` keeps the entries when the last scan was not cut short and
  the folder asked for is the one shown. Both are read off what the worker and
  earlier starts left: the two flags the worker resets when it begins, and
  `game_enum_path`, which the `".."` case cuts in place and a cold boot's worker
  replaces.

  What the worker is told comes off a `FixedCard`; heap addresses, the recent list
  and the banners read are anything. Lists are compared by `FileEntry.bare`,
  without what a banner load brings.

  What is proved:
    1. `workerStep_scan` — at every step of a scan that is not cut short, the
       entries are what the paths examined so far make.
    2. `gmStartThread_scan` — a start keeps that, whatever it does to the path.
    3. `kept_list_complete` — hence over every run of starts, worker steps, stops
       and scrolls, a list that is kept is the complete list of the folder, and
       a scan stopped with a path left to examine is not kept.
    4. `cold_boot_keeps_root` — for `NULL` that folder is the root, which is
       shown, and not the one a cold boot resolves.
-/

set_option autoImplicit false

namespace Cubiboot

/-- What a card holds, as a scan sees it: the folder a cold boot resolves, the
paths of each folder, and what each path is. -/
structure FixedCard where
  coldBootFolder : Path
  listing : Path → List PathEntry
  info : PathEntry → FoundGame
  appDol : PathEntry → Option Path

/-- The entry a path becomes, at heap address 0. -/
def FixedCard.entry (c : FixedCard) (e : PathEntry) : Option FileEntry := newEntry e ⟨c.info e, c.appDol e, 0, none⟩

/-- The paths of a folder, in the order they are examined. -/
def FixedCard.paths (c : FixedCard) (folder : Path) : List PathEntry := gmSortFiles ((c.listing folder).take maxPaths)

/-- What a complete scan of a folder yields. -/
def FixedCard.completeScan (c : FixedCard) (folder : Path) : List FileEntry :=
  gmFindMultiDisc ((c.paths folder).filterMap c.entry)

/-- What the worker's next step is told is what the card holds. -/
def FixedCard.Tells (c : FixedCard) (g : Games) (a : WorkerAnswer) : Prop :=
  match g.worker with
  | .begin => a.coldBootFolder = c.coldBootFolder
  | .list => a.listing = c.listing g.enumPath
  | .checkPath e _ => a.check.info = c.info e ∧ a.check.appDol = c.appDol e
  | _ => True

instance (c : FixedCard) (g : Games) (a : WorkerAnswer) : Decidable (c.Tells g a) := by
  unfold FixedCard.Tells
  split <;> infer_instance

def noDesc : BnrDesc := ⟨[], [], [], [], []⟩

/-- An entry without its heap address and without what a banner load brings it. -/
def FileEntry.bare (e : FileEntry) : FileEntry :=
  if e.bearsBanner then
    { e with
      addr := 0
      desc := noDesc
      banner := ⟨false, .none, none⟩
      extra := { e.extra with dvdBnrType := if e.extra.standaloneBnr then 0 else e.extra.dvdBnrType } }
  else { e with addr := 0 }

/-- The same entries, but for heap addresses and banners. -/
def SameList (es es' : List FileEntry) : Prop := es.map FileEntry.bare = es'.map FileEntry.bare

instance (es es' : List FileEntry) : Decidable (SameList es es') := inferInstanceAs (Decidable (_ = _))

theorem SameList.append {es es' : List FileEntry} (h : SameList es es') (xs : List FileEntry) :
    SameList (es ++ xs) (es' ++ xs) := by
  show (es ++ xs).map FileEntry.bare = (es' ++ xs).map FileEntry.bare
  have hmap : es.map FileEntry.bare = es'.map FileEntry.bare := h
  rw [List.map_append, List.map_append, hmap]

/-! ## Runs -/

/-- The menu starts the worker, the worker goes on, the menu waits for it to
stop, or scrolls to a line. -/
inductive ListLabel where
  | start (target : Option Path)
  | worker (a : WorkerAnswer)
  | stop (answers : Nat → WorkerAnswer)
  | scroll (fetch : Nat → Option Fetched) (topLineNum selectedSlot : Int) (down : Bool)

def listStep (g : Games) : ListLabel → Games
  | .start target => gmStartThread target g
  | .worker a => workerStep false g a
  | .stop answers => gmDeinitThread answers g
  | .scroll fetch topLineNum selectedSlot down => g.scrollTo fetch topLineNum selectedSlot down

/-- The condition on a step: the worker is told what the card holds. -/
def FixedCard.Meets (c : FixedCard) (g : Games) : ListLabel → Prop
  | .worker a => c.Tells g a
  | .stop answers => g.WaitMeets c.Tells answers
  | _ => True

instance (c : FixedCard) (g : Games) : ∀ l, Decidable (c.Meets g l)
  | .worker a => inferInstanceAs (Decidable (c.Tells g a))
  | .stop _ => inferInstanceAs (Decidable (g.running = true → Steps.Guarded _ _ _ _))
  | .start _ | .scroll _ _ _ _ => isTrue trivial

def ListLabel.isStart : ListLabel → Bool
  | .start _ => true
  | _ => false

/-- The folder that is scanned, or will be. -/
def FixedCard.folderOf (c : FixedCard) (g : Games) : Path :=
  if g.worker = .begin ∧ g.coldBootResolve = true then withSlash c.coldBootFolder else g.enumPath

/-- A scan under way with a path left to examine. -/
def FixedCard.Unexamined (c : FixedCard) (g : Games) : Prop :=
  match g.worker with
  | .begin | .list | .arm _ => c.paths (c.folderOf g) ≠ []
  | .poll rest | .publish rest => rest ≠ []
  | .checkPath _ rest => rest ≠ []
  | _ => False

/-! ## What a banner load leaves alone -/

theorem bare_of_load {e : FileEntry} (hb : e.bearsBanner = true) (banner : Banner) (desc : BnrDesc) (t : UInt8)
    (ht : e.extra.standaloneBnr = false → t = e.extra.dvdBnrType) :
    FileEntry.bare { e with banner := banner, desc := desc, extra := { e.extra with dvdBnrType := t } } = e.bare := by
  have hb' : FileEntry.bearsBanner
      { e with banner := banner, desc := desc, extra := { e.extra with dvdBnrType := t } } = true := hb
  simp only [FileEntry.bare, hb, hb', if_true]
  cases hs : e.extra.standaloneBnr with
  | true => rfl
  | false => simp only [ht hs]

/-- All that a banner load can write to an entry. -/
theorem gmLoadBanner_writes (fetched : Option Fetched) (e : FileEntry) (p : BannerPool) :
    ∃ banner desc t, (e.extra.standaloneBnr = false → t = e.extra.dvdBnrType) ∧
      (gmLoadBanner fetched e p).2.1 =
        { e with banner := banner, desc := desc, extra := { e.extra with dvdBnrType := t } } := by
  have hnote : ∀ f, ∃ t, (e.extra.standaloneBnr = false → t = e.extra.dvdBnrType) ∧
      e.noteBnrType f = { e with extra := { e.extra with dvdBnrType := t } } := by
    intro f
    rw [FileEntry.noteBnrType]
    split
    · rename_i h
      simp only [Bool.and_eq_true] at h
      exact ⟨_, fun hs => by simp [hs] at h, rfl⟩
    · exact ⟨_, fun _ => rfl, rfl⟩
  have hshow : ∀ (e : FileEntry) k bnr, ∃ desc,
      e.showBanner k bnr = { e with banner := { e.banner with state := .loaded, buf := some k }, desc := desc } := by
    intro e k bnr
    simp only [FileEntry.showBanner]
    split <;> exact ⟨_, rfl⟩
  simp only [gmLoadBanner]
  split
  · exact ⟨_, _, _, fun _ => rfl, rfl⟩
  · split
    · exact ⟨_, _, _, fun _ => rfl, rfl⟩
    · cases fetched with
      | none => exact ⟨_, _, _, fun _ => rfl, rfl⟩
      | some f =>
        obtain ⟨t, ht, heq⟩ := hnote f
        dsimp only
        rw [heq]
        cases Slots.takeFirst p.used with
        | none => exact ⟨_, _, t, ht, rfl⟩
        | some taken =>
          obtain ⟨desc, hdesc⟩ := hshow { e with
            banner := { e.banner with state := .loading }, extra := { e.extra with dvdBnrType := t } } taken.1 f.bnr
          exact ⟨_, desc, t, ht, hdesc⟩

theorem gmBannerFree_bare {e : FileEntry} (hb : e.bearsBanner = true) (p : BannerPool) :
    (gmBannerFree e p).1.bare = e.bare := by
  have hfree : ∃ banner, (gmBannerFree e p).1 = { e with banner := banner } := by
    rw [gmBannerFree]
    split <;> exact ⟨_, rfl⟩
  obtain ⟨banner, heq⟩ := hfree
  rw [heq]
  exact bare_of_load hb banner e.desc e.extra.dvdBnrType fun _ => rfl

theorem sameList_set {es : List FileEntry} {i : Nat} {e e' : FileEntry} (he : es[i]? = some e)
    (hbare : e'.bare = e.bare) : SameList (es.set i e') es := by
  obtain ⟨hi, hget⟩ := List.getElem?_eq_some_iff.mp he
  rw [SameList, List.map_set, hbare, ← hget]
  apply List.ext_getElem?
  intro j
  by_cases hj : i = j
  · subst hj
    rw [List.getElem?_set_self (by rwa [List.length_map]), List.getElem?_map, he]
    exact congrArg some (congrArg FileEntry.bare hget)
  · rw [List.getElem?_set_ne hj]

theorem loadAt_sameList (ld : Loader) (i : Nat) (f : Option Fetched) : SameList (ld.loadAt i f).entries ld.entries := by
  simp only [Loader.loadAt]
  split
  · rename_i e he
    split
    · rename_i hb
      obtain ⟨banner, desc, t, ht, heq⟩ := gmLoadBanner_writes f e ld.pool
      exact sameList_set he (by rw [heq]; exact bare_of_load hb banner desc t ht)
    · rfl
  · rfl

theorem freeAt_sameList (ld : Loader) (i : Nat) : SameList (ld.freeAt i).entries ld.entries := by
  simp only [Loader.freeAt]
  split
  · rename_i e he
    split
    · rename_i hb
      exact sameList_set he (gmBannerFree_bare hb ld.pool)
    · rfl
  · rfl

theorem loadAll_sameList (ld : Loader) (fetch : Nat → Option Fetched) (is : List Nat) :
    SameList (ld.loadAll fetch is).entries ld.entries := by
  induction is generalizing ld with
  | nil => rfl
  | cons i is ih => exact (ih (ld.loadAt i (fetch i))).trans (loadAt_sameList ld i (fetch i))

theorem freeAll_sameList (ld : Loader) (is : List Nat) : SameList (ld.freeAll is).entries ld.entries := by
  induction is generalizing ld with
  | nil => rfl
  | cons i is ih => exact (ih (ld.freeAt i)).trans (freeAt_sameList ld i)

theorem gmLineChanged_sameList (cols : Nat) (fetch : Nat → Option Fetched) (n new : Nat) (down : Bool) (ld : Loader) :
    SameList (gmLineChanged cols fetch n new down ld).entries ld.entries := by
  have hunload : ∀ l, SameList (gmLineUnload cols ld l).entries ld.entries := by
    intro l
    cases l with
    | none => rfl
    | some l =>
      simp only [gmLineUnload, gmLineFree]
      split
      · exact freeAll_sameList ld _
      · rfl
  have hbring : ∀ (ld : Loader) l, SameList (gmLineBringIn cols fetch ld l).entries ld.entries := by
    intro ld l
    cases l with
    | none => rfl
    | some l =>
      simp only [gmLineBringIn, gmLineLoad]
      split
      · exact loadAll_sameList ld fetch _
      · rfl
  exact (hbring (gmLineUnload cols ld (linesChanged n new down).1) (linesChanged n new down).2).trans
    (hunload (linesChanged n new down).1)

theorem bgWorker_sameList (fetch : Nat → Option Fetched) (st : BgState) :
    SameList (bgWorker fetch st).ld.entries st.ld.entries := by
  have hload : ∀ line, SameList (st.loadLine fetch line).entries st.ld.entries := fun line =>
    loadAll_sameList st.ld fetch _
  simp only [bgWorker]
  cases st.pc with
  | window resident first last line =>
    dsimp only
    split
    · exact hload line
    · split <;> rfl
  | fill first last line =>
    dsimp only
    split
    · split
      · rfl
      · exact hload line
    · rfl
  | _ => rfl

/-! ## What one path adds -/

/-- The entry of a path, but for its address and banner, is what the card says. -/
theorem newEntry_bare (c : FixedCard) (e : PathEntry) {a : CheckAnswer} (hinfo : a.info = c.info e)
    (hdol : a.appDol = c.appDol e) :
    (newEntry e a).map FileEntry.bare = (c.entry e).map FileEntry.bare := by
  have haddr : ∀ (x : FileEntry) addr, FileEntry.bare { x with addr := addr } = x.bare := by
    intro x addr
    have hbears : FileEntry.bearsBanner { x with addr := addr } = x.bearsBanner := rfl
    rw [FileEntry.bare, FileEntry.bare, hbears]
  have hsame : newEntry e a = (c.entry e).map fun x => { x with addr := a.addr } := by
    rw [FixedCard.entry, newEntry, newEntry, hinfo, hdol]
    cases e.type with
    | game => dsimp only; split <;> rfl
    | directory => cases c.appDol e <;> rfl
    | program | unknown | app => rfl
  rw [hsame, Option.map_map]
  apply congrArg (fun f => (c.entry e).map f)
  funext x
  exact haddr x a.addr

theorem gmCheckFile_adds (c : FixedCard) (ld : Loader) (armed : Bool) (e : PathEntry) {a : CheckAnswer}
    (hinfo : a.info = c.info e) (hdol : a.appDol = c.appDol e) :
    SameList (gmCheckFile ld armed e a).entries (ld.entries ++ (c.entry e).toList) := by
  have hbare := newEntry_bare c e hinfo hdol
  obtain heq | ⟨b, hb, hcases⟩ := gmCheckFile_cases ld armed e a
  · -- nothing added: the path is not one to list
    cases hn : newEntry e a with
    | none =>
      rw [hn] at hbare
      have hnone : c.entry e = none := Option.map_eq_none_iff.mp hbare.symm
      rw [heq, hnone, Option.toList_none, List.append_nil]
      exact rfl
    | some b =>
      have hlen := congrArg (fun ld => ld.entries.length) heq
      simp only [gmCheckFile, hn] at hlen
      split at hlen
      · split at hlen <;> simp at hlen
      · simp at hlen
  · rw [hb] at hbare
    obtain ⟨b', hb', hsame⟩ := Option.map_eq_some_iff.mp hbare.symm
    have happ : SameList (ld.append b).entries (ld.entries ++ (c.entry e).toList) := by
      rw [hb', SameList, Loader.append, List.map_append, List.map_append]
      exact congrArg (fun x => ld.entries.map FileEntry.bare ++ [x]) hsame.symm
    obtain ⟨-, heq⟩ | ⟨-, -, heq⟩ | ⟨-, -, -, heq⟩ := hcases
    · rw [heq]
      exact happ
    · rw [heq]
      exact happ
    · rw [heq]
      split
      · exact happ
      · exact (loadAt_sameList _ _ _).trans happ

/-! ## The multi-disc search sees none of it -/

theorem bare_second (e : FileEntry) (second : Option Nat) :
    FileEntry.bare { e with second := second } = { e.bare with second := second } := by
  have hbears : FileEntry.bearsBanner { e with second := second } = e.bearsBanner := rfl
  rw [FileEntry.bare, FileEntry.bare, hbears]
  cases e.bearsBanner <;> rfl

theorem bare_pairs (e e2 : FileEntry) : e.bare.pairs e2.bare = e.pairs e2 := by
  have hsame : ∀ e : FileEntry, e.bare.type = e.type ∧ e.bare.extra.gameId = e.extra.gameId ∧
      e.bare.extra.discNum = e.extra.discNum := by
    intro e
    rw [FileEntry.bare]
    split <;> exact ⟨rfl, rfl, rfl⟩
  obtain ⟨ht, hg, hd⟩ := hsame e
  obtain ⟨ht2, hg2, hd2⟩ := hsame e2
  simp only [FileEntry.pairs, ht, hg, hd, ht2, hg2, hd2]

theorem pairAt_bare (es : List FileEntry) (i j : Nat) :
    pairAt (es.map FileEntry.bare) i j = (pairAt es i j).map FileEntry.bare := by
  simp only [pairAt, List.getElem?_map]
  cases es[i]? with
  | none => rfl
  | some e =>
    cases es[j]? with
    | none => rfl
    | some e2 =>
      simp only [Option.map_some, bare_pairs]
      split
      · simp only [List.map_set, bare_second]
      · rfl

theorem gmFindMultiDisc_bare (es : List FileEntry) :
    gmFindMultiDisc (es.map FileEntry.bare) = (gmFindMultiDisc es).map FileEntry.bare := by
  simp only [gmFindMultiDisc, List.length_map]
  apply List.foldl_hom (List.map FileEntry.bare)
  intro es' i
  apply List.foldl_hom (List.map FileEntry.bare)
  intro es'' j
  exact pairAt_bare es'' i j

theorem gmFindMultiDisc_sameList {es es' : List FileEntry} (h : SameList es es') :
    SameList (gmFindMultiDisc es) (gmFindMultiDisc es') := by
  rw [SameList, ← gmFindMultiDisc_bare, ← gmFindMultiDisc_bare, h]

/-! ## A scan, step by step -/

/-- The entries are what `paths` make, if the scan has not been cut short. -/
def FixedCard.Made (c : FixedCard) (g : Games) (paths : List PathEntry) : Prop :=
  SameList g.ld.entries (paths.filterMap c.entry)

/-- What holds of the list wherever the worker is. -/
def FixedCard.ScanAt (c : FixedCard) (g : Games) : Prop :=
  match g.worker with
  | .idle => g.scanComplete = true → g.enumPath.getLast? = some slash →
      SameList g.ld.entries (c.completeScan g.enumPath)
  | .begin => True
  | .list => g.scanStopped = false
  | .arm listing => g.scanStopped = false ∧ listing = (c.listing g.enumPath).take maxPaths
  | .poll rest | .publish rest =>
    g.scanStopped = false ∧ ∃ done, c.paths g.enumPath = done ++ rest ∧ c.Made g done
  | .checkPath e rest =>
    g.scanStopped = false ∧ ∃ done, c.paths g.enumPath = done ++ e :: rest ∧ c.Made g done
  | .pair => g.scanStopped = false → c.Made g (c.paths g.enumPath)
  | .setupGrid | .background _ | .finish =>
    g.scanStopped = false → SameList g.ld.entries (c.completeScan g.enumPath)

structure FixedCard.ListInv (c : FixedCard) (g : Games) : Prop where
  base : g.Base
  scan : c.ScanAt g

theorem workerStep_scan (c : FixedCard) (held : Bool) {g : Games} {a : WorkerAnswer} (hbase : g.Base)
    (ht : c.Tells g a) (h : c.ScanAt g) : c.ScanAt (workerStep held g a) := by
  cases hw : g.worker with
  | idle =>
    simp only [workerStep, hw]
    exact h
  | begin =>
    simp only [workerStep, hw, FixedCard.ScanAt]
  | list =>
    simp only [FixedCard.ScanAt, FixedCard.Tells, hw] at h ht
    simp only [workerStep, hw, FixedCard.ScanAt]
    exact ⟨h, by rw [ht]⟩
  | arm listing =>
    have hempty := hbase.empty (by simp [hw, WorkerPc.early])
    simp only [FixedCard.ScanAt, hw] at h
    obtain ⟨armed, path, consumed, heq⟩ := workerStep_arm held a hw
    rw [heq]
    refine ⟨h.1, [], ?_, ?_⟩
    · rw [h.2]
      rfl
    · show SameList g.ld.entries []
      rw [hempty]
      rfl
  | poll rest =>
    simp only [FixedCard.ScanAt, hw] at h
    obtain ⟨hstop, done, hpaths, hmade⟩ := h
    obtain ⟨rfl, heq⟩ | ⟨-, heq⟩ | ⟨e, rest', rfl, heq⟩ := workerStep_poll held a hw
    · rw [heq]
      intro _
      show SameList g.ld.entries ((c.paths g.enumPath).filterMap c.entry)
      rw [hpaths, List.append_nil]
      exact hmade
    · -- cut short: nothing is said of the list
      rw [heq]
      intro hfalse
      cases hfalse
    · rw [heq]
      exact ⟨hstop, done, hpaths, hmade⟩
  | checkPath e rest =>
    simp only [FixedCard.ScanAt, FixedCard.Tells, hw] at h ht
    obtain ⟨hstop, done, hpaths, hmade⟩ := h
    have hadds := gmCheckFile_adds c g.ld g.scanIsLastPlayed e ht.1 ht.2
    have hmade' : SameList (gmCheckFile g.ld g.scanIsLastPlayed e a.check).entries
        ((done ++ [e]).filterMap c.entry) := by
      have hlast : [e].filterMap c.entry = (c.entry e).toList := by
        rw [List.filterMap_cons, List.filterMap_nil]
        cases c.entry e <;> rfl
      rw [List.filterMap_append, hlast]
      exact hadds.trans (hmade.append _)
    have hpaths' : c.paths g.enumPath = (done ++ [e]) ++ rest := by rw [hpaths, List.append_assoc]; rfl
    simp only [workerStep, hw]
    split <;> exact ⟨hstop, done ++ [e], hpaths', hmade'⟩
  | publish rest =>
    simp only [FixedCard.ScanAt, hw] at h
    simp only [workerStep, hw, FixedCard.ScanAt]
    exact h
  | pair =>
    simp only [FixedCard.ScanAt, hw] at h
    simp only [workerStep, hw, FixedCard.ScanAt]
    exact fun hstop => gmFindMultiDisc_sameList (h hstop)
  | setupGrid =>
    simp only [FixedCard.ScanAt, hw] at h
    simp only [workerStep, hw]
    split <;> exact h
  | background pc =>
    simp only [FixedCard.ScanAt, hw] at h
    obtain ⟨-, heq⟩ | ⟨-, heq⟩ | heq := workerStep_background held a hw
    · rw [heq]
      exact h
    · rw [heq]
      intro hfalse
      cases hfalse
    · rw [heq]
      exact fun hstop => (bgWorker_sameList a.fetch (g.bgState pc)).trans (h hstop)
  | finish =>
    simp only [FixedCard.ScanAt, hw] at h
    simp only [workerStep, hw, FixedCard.ScanAt, Bool.not_eq_true']
    exact fun hstop _ => h hstop

theorem workerStep_listInv (c : FixedCard) (held : Bool) (g : Games) (a : WorkerAnswer) (h : c.ListInv g)
    (ht : c.Tells g a) : c.ListInv (workerStep held g a) :=
  ⟨workerStep_base held g a h.base, workerStep_scan c held h.base ht h.scan⟩

/-! ## Starts -/

/-- A list that is kept is the complete one of the folder the start compares with. -/
theorem keepsList_complete {c : FixedCard} {g : Games} (h : c.ListInv g) {target : Option Path}
    (hrun : g.running = false) (hk : g.keepsList target = true) :
    SameList g.ld.entries (c.completeScan (g.startPath target).1) := by
  obtain ⟨hcomplete, -, hpath⟩ := of_decide_eq_true hk
  have hidle : g.worker = .idle := by
    by_contra hne
    rw [h.base.running.mpr hne] at hrun
    cases hrun
  have hslash : (g.startPath target).1.getLast? = some slash := by
    have hwith : ∀ path, (withSlash path).getLast? = some slash := by
      intro path
      rw [withSlash]
      split
      · assumption
      · exact List.getLast?_concat
    cases target with
    | none => rfl
    | some target =>
      simp only [Games.startPath]
      split
      · exact hwith _
      · exact hwith target
  have hscan := h.scan
  simp only [FixedCard.ScanAt, hidle] at hscan
  rw [hpath] at hslash ⊢
  exact hscan hcomplete hslash

/-- The path a kept list is left with is the folder's, or ends in no slash. -/
theorem startPath_kept {g : Games} {target : Option Path} (hk : (g.startPath target).1 = g.enumPath)
    (hslash : (g.startPath target).2.getLast? = some slash) : (g.startPath target).2 = g.enumPath := by
  cases target with
  | none => rfl
  | some target =>
    by_cases hdots : target = dotdot
    · have hstart : g.startPath (some target) = (withSlash (popPath g.enumPath), popPath g.enumPath) := if_pos hdots
      rw [hstart] at hk hslash ⊢
      have hwith : withSlash (popPath g.enumPath) = popPath g.enumPath := if_pos hslash
      exact hwith.symm.trans hk
    · have hstart : g.startPath (some target) = (withSlash target, g.enumPath) := if_neg hdots
      rw [hstart]

theorem gmStartThread_scan {c : FixedCard} {g : Games} (h : c.ListInv g) (target : Option Path) :
    c.ScanAt (gmStartThread target g) := by
  obtain ⟨-, heq⟩ | ⟨hrun, hk, heq⟩ | ⟨-, -, heq⟩ := gmStartThread_cases target g
  · rw [heq]
    exact h.scan
  · have hidle : g.worker = .idle := by
      by_contra hne
      rw [h.base.running.mpr hne] at hrun
      cases hrun
    obtain ⟨-, -, hpath⟩ := of_decide_eq_true hk
    have hscan := h.scan
    rw [heq]
    simp only [FixedCard.ScanAt, hidle] at hscan ⊢
    intro hcomplete hslash
    have hsame := startPath_kept hpath hslash
    rw [hsame] at hslash ⊢
    exact hscan hcomplete hslash
  · rw [heq]
    trivial

/-! ## Scans that are stopped -/

/-- A scan with a path left to examine, or one that was stopped with one left. -/
def FixedCard.Cut (c : FixedCard) (g : Games) : Prop :=
  match g.worker with
  | .idle => g.scanComplete = false
  | .pair | .setupGrid | .background _ | .finish => g.scanStopped = true
  | _ => c.Unexamined g

theorem FixedCard.Unexamined.cut {c : FixedCard} {g : Games} (h : c.Unexamined g) : c.Cut g := by
  cases hw : g.worker with
  | idle | pair | setupGrid | background _ | finish =>
    simp only [FixedCard.Unexamined, hw] at h
  | _ =>
    simp only [FixedCard.Cut, hw]
    exact h

/-- With the mutex held the next poll stops the scan, and nothing takes that back. -/
theorem workerStep_cut (c : FixedCard) (g : Games) (a : WorkerAnswer) (h : c.ListInv g ∧ c.Cut g) (ht : c.Tells g a) :
    c.ListInv (workerStep true g a) ∧ c.Cut (workerStep true g a) := by
  obtain ⟨hinv, hcut⟩ := h
  refine ⟨workerStep_listInv c true g a hinv ht, ?_⟩
  have hscan := hinv.scan
  cases hw : g.worker with
  | idle =>
    simp only [workerStep, hw]
    exact hcut
  | begin =>
    simp only [FixedCard.Tells, FixedCard.Cut, FixedCard.Unexamined, FixedCard.folderOf, hw, true_and] at ht hcut
    simp only [workerStep, hw, FixedCard.Cut, FixedCard.Unexamined, FixedCard.folderOf, ht, reduceCtorEq, false_and,
      if_false]
    exact hcut
  | list =>
    simp only [FixedCard.Cut, FixedCard.Unexamined, FixedCard.folderOf, hw, reduceCtorEq, false_and, if_false] at hcut
    simp only [workerStep, hw, FixedCard.Cut, FixedCard.Unexamined, FixedCard.folderOf, reduceCtorEq, false_and,
      if_false]
    exact hcut
  | arm listing =>
    simp only [FixedCard.ScanAt, hw] at hscan
    simp only [FixedCard.Cut, FixedCard.Unexamined, FixedCard.folderOf, hw, reduceCtorEq, false_and, if_false] at hcut
    obtain ⟨armed, path, consumed, heq⟩ := workerStep_arm true a hw
    rw [heq, hscan.2]
    exact hcut
  | poll rest =>
    simp only [FixedCard.Cut, FixedCard.Unexamined, hw] at hcut
    obtain ⟨e, rest, rfl⟩ := List.exists_cons_of_ne_nil hcut
    simp only [workerStep, hw, if_true, FixedCard.Cut]
  | checkPath e rest =>
    simp only [FixedCard.Cut, FixedCard.Unexamined, hw] at hcut
    simp only [workerStep, hw]
    split <;> exact hcut
  | publish rest =>
    simp only [FixedCard.Cut, FixedCard.Unexamined, hw] at hcut
    simp only [workerStep, hw, FixedCard.Cut, FixedCard.Unexamined]
    exact hcut
  | pair =>
    simp only [FixedCard.Cut, hw] at hcut
    simp only [workerStep, hw, FixedCard.Cut]
    exact hcut
  | setupGrid =>
    simp only [FixedCard.Cut, hw] at hcut
    simp only [workerStep, hw]
    split <;> exact hcut
  | background pc =>
    simp only [FixedCard.Cut, hw] at hcut
    obtain ⟨-, heq⟩ | ⟨-, heq⟩ | heq := workerStep_background true a hw
    · rw [heq]
      exact hcut
    · rw [heq]
      exact rfl
    · rw [heq]
      exact hcut
  | finish =>
    simp only [FixedCard.Cut, hw] at hcut
    simp only [workerStep, hw, FixedCard.Cut, hcut, Bool.not_true]

/-- Idle, and the list not complete. -/
structure Games.Incomplete (g : Games) : Prop where
  running : g.running = false
  worker : g.worker = .idle
  complete : g.scanComplete = false

theorem stop_incomplete {c : FixedCard} {g : Games} (h : c.ListInv g) (hu : c.Unexamined g)
    {answers : Nat → WorkerAnswer} (ht : g.WaitMeets c.Tells answers) : (gmDeinitThread answers g).Incomplete := by
  have hidle := gmDeinitThread_idle h.base answers
  have hbase := gmDeinitThread_base h.base answers
  obtain ⟨-, hcut⟩ := gmDeinitThread_inv (fun g => c.ListInv g ∧ c.Cut g) (workerStep_cut c) ⟨h, hu.cut⟩ ht
  refine ⟨?_, hidle, ?_⟩
  · apply Bool.eq_false_iff.mpr
    intro hrun
    exact hbase.running.mp hrun hidle
  · simpa only [FixedCard.Cut, hidle] using hcut

/-- Until the next start nothing completes it. -/
theorem listStep_incomplete {g : Games} (h : g.Incomplete) {l : ListLabel} (hl : l.isStart = false) :
    (listStep g l).Incomplete := by
  cases l with
  | start target => cases hl
  | worker a =>
    have hsame : workerStep false g a = g := by simp only [workerStep, h.worker]
    rw [listStep, hsame]
    exact h
  | stop answers =>
    have hsame : gmDeinitThread answers g = g := by simp only [gmDeinitThread, h.running, Bool.false_eq_true, if_false]
    rw [listStep, hsame]
    exact h
  | scroll fetch top slot down => exact ⟨h.running, h.worker, h.complete⟩

theorem run_incomplete {g : Games} (h : g.Incomplete) {ms : List ListLabel} (hms : ∀ l ∈ ms, l.isStart = false) :
    (Steps.run listStep g ms).Incomplete := by
  induction ms generalizing g with
  | nil => exact h
  | cons l ms ih =>
    exact ih (listStep_incomplete h (hms l List.mem_cons_self)) fun l' hl' => hms l' (List.mem_cons_of_mem l hl')

/-! ## Over every run -/

theorem listStep_inv (c : FixedCard) (g : Games) (l : ListLabel) (h : c.ListInv g) (hl : c.Meets g l) :
    c.ListInv (listStep g l) := by
  cases l with
  | start target => exact ⟨gmStartThread_base h.base target, gmStartThread_scan h target⟩
  | worker a => exact workerStep_listInv c false g a h hl
  | stop answers => exact gmDeinitThread_inv c.ListInv (workerStep_listInv c true) h hl
  | scroll fetch top slot down =>
    have hlist := gmLineChanged_sameList g.grid.columnsPerLine fetch g.grid.numberOfLines top.toNat down g.ld
    obtain ⟨-, hlen⟩ := gmLineChanged_kept g.grid.columnsPerLine fetch g.grid.numberOfLines top.toNat down g.ld
    refine ⟨⟨h.base.running, ?_, ?_, h.base.unfinished, h.base.uncut⟩, ?_⟩
    · show g.backingCount ≤ (gmLineChanged _ _ _ _ _ g.ld).entries.length
      rw [hlen]
      exact h.base.backing
    · intro he
      apply List.length_eq_zero_iff.mp
      show (gmLineChanged _ _ _ _ _ g.ld).entries.length = 0
      rw [hlen, h.base.empty he, List.length_nil]
    · have hscan := h.scan
      show c.ScanAt (g.scrollTo fetch top slot down)
      cases hw : g.worker with
      | idle =>
        simp only [FixedCard.ScanAt, Games.scrollTo, hw] at hscan ⊢
        exact fun hcomplete hslash => hlist.trans (hscan hcomplete hslash)
      | begin => simp only [FixedCard.ScanAt, Games.scrollTo, hw]
      | list | arm _ =>
        simp only [FixedCard.ScanAt, Games.scrollTo, hw] at hscan ⊢
        exact hscan
      | poll rest | publish rest | checkPath e rest =>
        simp only [FixedCard.ScanAt, Games.scrollTo, hw] at hscan ⊢
        obtain ⟨hstop, done, hpaths, hmade⟩ := hscan
        exact ⟨hstop, done, hpaths, hlist.trans hmade⟩
      | pair | setupGrid | background pc | finish =>
        simp only [FixedCard.ScanAt, Games.scrollTo, hw] at hscan ⊢
        exact fun hstop => hlist.trans (hscan hstop)

theorem powerOn_inv (c : FixedCard) (o : MenuOptions) : c.ListInv (.powerOn o) := by
  refine ⟨⟨by simp [Games.powerOn], Nat.le_refl _, fun _ => rfl, fun hw => absurd rfl hw, ?_⟩, ?_⟩
  · intro hcomplete
    cases hcomplete
  · intro hcomplete
    cases hcomplete

/-- Whatever is started, stopped and scrolled: a list that is kept is the complete
list of the folder the start compares with, and a scan stopped with a path left to
examine is not kept. -/
theorem kept_list_complete (c : FixedCard) (o : MenuOptions) (ls : List ListLabel)
    (hc : Steps.Guarded listStep c.Meets (.powerOn o) ls) :
    let g := Steps.run listStep (.powerOn o) ls
    (∀ target, g.running = false → g.keepsList target = true →
      SameList g.ld.entries (c.completeScan (g.startPath target).1)) ∧
    (c.Unexamined g → ∀ answers, g.WaitMeets c.Tells answers → ∀ ms, (∀ l ∈ ms, l.isStart = false) → ∀ target,
      (Steps.run listStep g (.stop answers :: ms)).keepsList target = false) := by
  have hinv : c.ListInv (Steps.run listStep (.powerOn o) ls) :=
    Steps.inv_run c.ListInv (listStep_inv c) (powerOn_inv c o) hc
  refine ⟨fun target hrun hk => keepsList_complete hinv hrun hk, ?_⟩
  intro hu answers ht ms hms target
  have hend := run_incomplete (stop_incomplete hinv hu ht) hms
  apply decide_eq_false
  intro hk
  have hcomplete : (Steps.run listStep (gmDeinitThread answers _) ms).scanComplete = true := hk.1
  rw [hend.complete] at hcomplete
  cases hcomplete

/-! ## A card with two folders -/

/-- An app folder in the root, one program in it, and the cold boot starts there. -/
def appsCard : FixedCard where
  coldBootFolder := cstr "/apps"
  listing := fun folder =>
    if folder = [slash] then [⟨cstr "/apps", .directory⟩]
    else if folder = cstr "/apps/" then [⟨cstr "/apps/boot.dol", .program⟩]
    else []
  info := fun _ => plainInfo
  appDol := fun _ => none

/-- A scan of a folder of `appsCard`, told to the worker from the first step to the last. -/
def scanOf (folder : Path) : List ListLabel :=
  let answer : WorkerAnswer := { quietAnswer with
    coldBootFolder := appsCard.coldBootFolder
    listing := appsCard.listing folder
    check := ⟨plainInfo, none, 0, none⟩ }
  List.replicate 10 (.worker answer)

/-- The cold boot's folder is listed, and asked for again. -/
theorem kept_list_complete_apps :
    let g := Steps.run listStep (.powerOn plainOptions) (.start none :: scanOf (cstr "/apps/"))
    SameList g.ld.entries (appsCard.completeScan (g.startPath (some (cstr "/apps"))).1) :=
  (kept_list_complete appsCard plainOptions (.start none :: scanOf (cstr "/apps/")) (by decide +kernel)).1
    (some (cstr "/apps")) (by decide +kernel) (by decide +kernel)

/-- The folder a start asks for; for `NULL` the one a cold boot resolves. -/
def FixedCard.requested (c : FixedCard) (g : Games) : Option Path → Path
  | none => withSlash c.coldBootFolder
  | some target => (g.startPath (some target)).1

/-- The cold boot, `".."` to the root, and `NULL` again: the root's list is kept,
and the cold boot's folder is another one. -/
theorem cold_boot_keeps_root : ¬ ∀ (c : FixedCard) (o : MenuOptions) (ls : List ListLabel),
    Steps.Guarded listStep c.Meets (.powerOn o) ls →
    let g := Steps.run listStep (.powerOn o) ls
    ∀ target, g.running = false → g.keepsList target = true →
      SameList g.ld.entries (c.completeScan (c.requested g target)) := by
  intro h
  have hroot := h appsCard plainOptions
    (.start none :: scanOf (cstr "/apps/") ++ .start (some dotdot) :: scanOf [slash]) (by decide +kernel) none
    (by decide +kernel) (by decide +kernel)
  revert hroot
  decide +kernel

end Cubiboot
