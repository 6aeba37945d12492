import Mathlib.Data.List.Sort
import Cubiboot.Background

/-
  The enumeration thread: the state of `games.c` and `grid.c`, the worker that
  scans a folder into it, and how the menu starts and stops that worker.

  The worker goes one step at a time, so that anything the menu does can fall
  between two of its accesses to what they share. It polls the mutex before
  each path and before each line it fills in; only `gm_deinit_thread` holds the
  mutex, and it then waits for the worker to end (`gmDeinitThread`).

  `listNo` and `searchedNo` are history: which list is the current one (how
  often the entries were freed), and on which one `gm_match_last_played`
  published a slot last. Nothing reads them.

  What is proved:
    1. `gmDeinitThread_idle` — the worker ends when it is waited for.
    2. `workerStep_base`, `gmStartThread_base` — what holds of the state wherever
       the worker is.
    3. `workerStep_keeps` — while a list lives its entries stay the same files:
       the worker only adds to it and loads banners.

  Correspondence (C ↔ Lean):
    `gm_list_files`' result, `gm_sort_files`     ↔ `WorkerAnswer.listing`, `gmSortFiles`
    `gm_recent_entry_slash`, `gm_arm_last_played` ↔ `gmRecentEntryFolder`, `gmArmLastPlayed`
    `gm_thread_worker`                           ↔ `workerStep`, from `begin` to `finish`
    `gm_start_thread`, `gm_deinit_thread`        ↔ `gmStartThread`, `gmDeinitThread`
    `gm_get_game_entry`                          ↔ `Games.entryAt`
-/

set_option autoImplicit false

namespace Cubiboot

/-- Where the worker is. -/
inductive WorkerPc where
  | idle
  | begin
  | list
  | arm (listing : List PathEntry)
  | poll (rest : List PathEntry)
  | checkPath (e : PathEntry) (rest : List PathEntry)
  | publish (rest : List PathEntry)
  | pair
  | setupGrid
  | background (pc : BgPc)
  | finish
  deriving DecidableEq

structure Games where
  gridType : GridType
  rememberLastGame : Bool
  ld : Loader
  backingCount : Nat
  grid : Grid
  enumPath : Path
  running : Bool
  scanStopped : Bool
  scanComplete : Bool
  coldBootResolve : Bool
  pending : Int
  scanIsLastPlayed : Bool
  lastPlayedPath : Path
  consumed : Bool
  worker : WorkerPc
  listNo : Nat
  searchedNo : Nat

/-- What the worker's next step is told: the folder a cold boot starts in, the
paths listed, the recent list's entry and whether it has an app's banner beside
it, what the path checked is, what a banner read brings. -/
structure WorkerAnswer where
  coldBootFolder : Path
  listing : List PathEntry
  lastPlayed : Option Path
  appBanner : Bool
  check : CheckAnswer
  fetch : Nat → Option Fetched

/-! ## The steps of `gm_thread_worker` -/

/-- The cap of `gm_list_files`. -/
def maxPaths : Nat := 1920

/-- `gm_cmp_path_entry`. -/
def gmCmpPathEntry (a b : PathEntry) : Prop := a.path.map myTolower ≤ b.path.map myTolower

instance : DecidableRel gmCmpPathEntry := fun _ _ => inferInstanceAs (Decidable (_ ≤ _))

def gmSortFiles (paths : List PathEntry) : List PathEntry := paths.insertionSort gmCmpPathEntry

/-- The path up to its last slash, the slash with it. -/
def uptoSlash (path : Path) : Path := (path.reverse.dropWhile (· ≠ slash)).reverse

/-- The folder whose list has the entry a recent path maps to. -/
def gmRecentEntryFolder (appBanner : Bool) (path : Path) : Option Path :=
  let folder := uptoSlash path
  if folder = [] then none
  else if !strcasecmpEq (path.drop (folder.length - 1)) appDolName then some folder
  else if !appBanner then some folder
  else
    let outer := uptoSlash folder.dropLast
    if outer = [] then some folder else some outer

/-- Once a boot, whatever comes of it. -/
def gmArmLastPlayed (a : WorkerAnswer) (g : Games) : Games :=
  if !g.rememberLastGame || g.consumed then { g with scanIsLastPlayed := false }
  else
    match a.lastPlayed with
    | none => { g with scanIsLastPlayed := false, consumed := true }
    | some path =>
      { g with
        consumed := true
        lastPlayedPath := path
        scanIsLastPlayed :=
          match gmRecentEntryFolder a.appBanner path with
          | none => false
          | some folder => strcasecmpEq folder g.enumPath }

def withSlash (path : Path) : Path := if path.getLast? = some slash then path else path ++ [slash]

/-- Whether the background loader polls the mutex next. -/
def bgPolls (numberOfLines : Nat) : BgPc → Bool
  | .fill first last line => line < numberOfLines ∧ ¬ (first ≤ line ∧ line ≤ last)
  | _ => false

def Games.bgState (g : Games) (pc : BgPc) : BgState where
  ld := g.ld
  grid := g.grid
  lastPlayed := g.lastPlayedPath
  pending := g.pending
  pc := pc

/-- A step of the background loader; `gm_match_last_played` is its first. -/
def Games.bgStep (g : Games) (fetch : Nat → Option Fetched) (pc : BgPc) : Games :=
  let st := bgWorker fetch (g.bgState pc)
  { g with
    ld := st.ld
    pending := st.pending
    worker := .background st.pc
    searchedNo := if pc = .matchSlot then g.listNo else g.searchedNo }

/-- One step of the worker; `held` is whether the menu has the mutex. The path
it scans is never empty: it ends in a slash. -/
def workerStep (held : Bool) (g : Games) (a : WorkerAnswer) : Games :=
  match g.worker with
  | .idle => g
  | .begin =>
    { g with
      scanStopped := false
      scanComplete := false
      coldBootResolve := false
      enumPath := if g.coldBootResolve then withSlash a.coldBootFolder else g.enumPath
      worker := .list }
  | .list =>
    let listing := a.listing.take maxPaths
    { g with grid := gmSetupGrid g.gridType listing.length true g.grid, worker := .arm listing }
  | .arm listing =>
    let g := gmArmLastPlayed a g
    { g with ld := { g.ld with evictOnScroll := false }, worker := .poll (gmSortFiles listing) }
  | .poll [] => { g with worker := .pair }
  | .poll (e :: rest) =>
    if held then { g with scanStopped := true, worker := .pair } else { g with worker := .checkPath e rest }
  | .checkPath e rest =>
    let skipped := e.type = .game ∧ newEntry e a.check = none
    { g with
      ld := gmCheckFile g.ld g.scanIsLastPlayed e a.check
      worker := if skipped then .poll rest else .publish rest }
  | .publish rest => { g with backingCount := g.ld.entries.length, worker := .poll rest }
  | .pair => { g with ld := { g.ld with entries := gmFindMultiDisc g.ld.entries }, worker := .setupGrid }
  | .setupGrid =>
    { g with
      grid := gmSetupGrid g.gridType g.ld.entries.length false g.grid
      worker := if g.scanIsLastPlayed then .background .matchSlot else .finish }
  | .background .done => { g with worker := .finish }
  | .background pc =>
    if held && bgPolls g.grid.numberOfLines pc then { g with scanStopped := true, worker := .finish }
    else g.bgStep a.fetch pc
  | .finish => { g with scanComplete := !g.scanStopped, running := false, worker := .idle }

/-! ## Starting and stopping it -/

/-- The path with its last element gone, as `gm_start_thread` cuts it for `".."`. -/
def popPath (path : Path) : Path :=
  let path := path.dropLast
  let cut := if slash ∈ path then (uptoSlash path).dropLast else path
  if cut = [] then [slash] else cut

def dotdot : Path := cstr ".."

/-- The folder asked for, and `game_enum_path` as the `".."` case leaves it. -/
def Games.startPath (g : Games) (target : Option Path) : Path × Path :=
  match target with
  | none => ([slash], g.enumPath)
  | some target =>
    if target = dotdot then (withSlash (popPath g.enumPath), popPath g.enumPath)
    else (withSlash target, g.enumPath)

/-- Same folder, list complete: keep it. -/
def Games.keepsList (g : Games) (target : Option Path) : Bool :=
  g.scanComplete ∧ 0 < g.ld.entries.length ∧ (g.startPath target).1 = g.enumPath

/-- Whether `gm_start_thread(target)` frees the list. -/
def Games.freesList (g : Games) (target : Option Path) : Bool := !g.running && !g.keepsList target

def gmStartThread (target : Option Path) (g : Games) : Games :=
  if g.running then g
  else
    let (path, enumPath) := g.startPath target
    let coldBootResolve := g.coldBootResolve || target.isNone
    if g.keepsList target then { g with enumPath := enumPath, coldBootResolve := coldBootResolve }
    else
      { g with
        enumPath := path
        coldBootResolve := coldBootResolve
        running := true
        ld := { g.ld with entries := [], pool := .fresh }
        grid := { g.grid with numberOfLines := 0 }
        backingCount := 0
        worker := .begin
        listNo := g.listNo + 1 }

/-- A bound on the steps the background loader and the worker still make, with
the mutex held. -/
def bgStepsLeft (numberOfLines : Nat) : BgPc → Nat
  | .matchSlot => 7 + 2 * numberOfLines
  | .readSlot => 6 + 2 * numberOfLines
  | .window _ _ last line => 4 + numberOfLines + (last + 1 - line)
  | .fill _ _ line => 3 + (numberOfLines - line)
  | .done => 2

def stepsLeft (g : Games) : Nat :=
  let lines := linesFor g.gridType.columns g.ld.entries.length
  match g.worker with
  | .idle => 0
  | .finish => 1
  | .background pc => bgStepsLeft g.grid.numberOfLines pc
  | .setupGrid => 8 + 2 * lines
  | .pair => 9 + 2 * lines
  | .poll _ => 10 + 2 * lines
  | .publish _ => 11 + 2 * lines
  | .checkPath _ _ => 12 + 2 * linesFor g.gridType.columns (g.ld.entries.length + 1)
  | .arm _ => 11 + 2 * lines
  | .list => 12 + 2 * lines
  | .begin => 13 + 2 * lines

/-- With the mutex held the worker runs to its end, told `answers` on the way. -/
def gmDeinitThread (answers : Nat → WorkerAnswer) (g : Games) : Games :=
  if g.running then Steps.drive (workerStep true) stepsLeft answers g else g

/-- `gm_entry_count` is unsigned, so a negative index is past the end too. -/
def Games.entryAt (g : Games) (index : Int) : Option FileEntry :=
  if index < 0 then none else g.ld.entries[index.toNat]?

/-! ## Entries stay the same files -/

/-- What no banner load and no pairing changes of an entry. -/
structure SameFile (e e' : FileEntry) : Prop where
  path : e'.path = e.path
  type : e'.type = e.type
  gameId : e'.extra.gameId = e.extra.gameId
  discNum : e'.extra.discNum = e.extra.discNum
  discVer : e'.extra.discVer = e.extra.discVer

theorem SameFile.refl (e : FileEntry) : SameFile e e := ⟨rfl, rfl, rfl, rfl, rfl⟩

theorem SameFile.trans {e e' e'' : FileEntry} (h : SameFile e e') (h' : SameFile e' e'') : SameFile e e'' :=
  ⟨h'.path.trans h.path, h'.type.trans h.type, h'.gameId.trans h.gameId, h'.discNum.trans h.discNum,
    h'.discVer.trans h.discVer⟩

theorem gmLoadBanner_sameFile (fetched : Option Fetched) (e : FileEntry) (p : BannerPool) :
    SameFile e (gmLoadBanner fetched e p).2.1 := by
  have hnote : ∀ f, SameFile e (e.noteBnrType f) := by
    intro f
    rw [FileEntry.noteBnrType]
    split <;> exact ⟨rfl, rfl, rfl, rfl, rfl⟩
  have hshow : ∀ (e : FileEntry) k bnr, SameFile e (e.showBanner k bnr) := by
    intro e k bnr
    simp only [FileEntry.showBanner]
    split <;> exact ⟨rfl, rfl, rfl, rfl, rfl⟩
  simp only [gmLoadBanner]
  split
  · exact .refl e
  · split
    · exact .refl e
    · cases fetched with
      | none => exact .refl e
      | some f =>
        have hload : SameFile e
            { e.noteBnrType f with banner := { (e.noteBnrType f).banner with state := .loading } } :=
          (hnote f).trans ⟨rfl, rfl, rfl, rfl, rfl⟩
        dsimp only
        cases Slots.takeFirst p.used with
        | none => exact hload
        | some t => exact hload.trans (hshow _ _ _)

theorem gmBannerFree_sameFile (e : FileEntry) (p : BannerPool) : SameFile e (gmBannerFree e p).1 := by
  rw [gmBannerFree]
  split <;> exact ⟨rfl, rfl, rfl, rfl, rfl⟩

/-- The entries of `es` are in `es'` too, in their places. -/
def Kept (es es' : List FileEntry) : Prop :=
  ∀ (i : Nat) (e : FileEntry), es[i]? = some e → ∃ e', es'[i]? = some e' ∧ SameFile e e'

theorem Kept.refl (es : List FileEntry) : Kept es es := fun _ e he => ⟨e, he, .refl e⟩

theorem Kept.trans {es es' es'' : List FileEntry} (h : Kept es es') (h' : Kept es' es'') : Kept es es'' := by
  intro i e he
  obtain ⟨e', he', hs⟩ := h i e he
  obtain ⟨e'', he'', hs'⟩ := h' i e' he'
  exact ⟨e'', he'', hs.trans hs'⟩

theorem entryAt_kept {g g' : Games} (h : Kept g.ld.entries g'.ld.entries) {index : Int} {e : FileEntry}
    (he : g.entryAt index = some e) : ∃ e', g'.entryAt index = some e' ∧ SameFile e e' := by
  simp only [Games.entryAt] at he ⊢
  split at he
  · cases he
  · rename_i hneg
    rw [if_neg hneg]
    exact h _ e he

theorem kept_set {es : List FileEntry} {i : Nat} {e e' : FileEntry} (he : es[i]? = some e)
    (hs : SameFile e e') : Kept es (es.set i e') := by
  intro j x hx
  by_cases hj : i = j
  · subst hj
    obtain rfl : e = x := Option.some.inj (he.symm.trans hx)
    exact ⟨e', List.getElem?_set_self (List.getElem?_eq_some_iff.mp he).1, hs⟩
  · exact ⟨x, (List.getElem?_set_ne hj).trans hx, .refl x⟩

theorem kept_foldl {β : Type} {f : List FileEntry → β → List FileEntry} (hf : ∀ es b, Kept es (f es b))
    (bs : List β) (es : List FileEntry) : Kept es (bs.foldl f es) := by
  induction bs generalizing es with
  | nil => exact .refl es
  | cons b bs ih => exact (hf es b).trans (ih (f es b))

theorem loadAt_kept (ld : Loader) (i : Nat) (f : Option Fetched) : Kept ld.entries (ld.loadAt i f).entries := by
  simp only [Loader.loadAt]
  split
  · rename_i e he
    split
    · exact kept_set he (gmLoadBanner_sameFile f e ld.pool)
    · exact .refl _
  · exact .refl _

theorem freeAt_kept (ld : Loader) (i : Nat) : Kept ld.entries (ld.freeAt i).entries := by
  simp only [Loader.freeAt]
  split
  · rename_i e he
    split
    · exact kept_set he (gmBannerFree_sameFile e ld.pool)
    · exact .refl _
  · exact .refl _

theorem loadAll_kept (ld : Loader) (fetch : Nat → Option Fetched) (is : List Nat) :
    Kept ld.entries (ld.loadAll fetch is).entries := by
  induction is generalizing ld with
  | nil => exact .refl _
  | cons i is ih => exact (loadAt_kept ld i (fetch i)).trans (ih (ld.loadAt i (fetch i)))

theorem freeAll_kept (ld : Loader) (is : List Nat) : Kept ld.entries (ld.freeAll is).entries := by
  induction is generalizing ld with
  | nil => exact .refl _
  | cons i is ih => exact (freeAt_kept ld i).trans (ih (ld.freeAt i))

theorem freeAll_length (ld : Loader) (is : List Nat) :
    (ld.freeAll is).entries.length = ld.entries.length := by
  induction is generalizing ld with
  | nil => rfl
  | cons i is ih =>
    have hone : (ld.freeAt i).entries.length = ld.entries.length := by
      simp only [Loader.freeAt]
      split
      · split
        · exact List.length_set
        · rfl
      · rfl
    exact (ih (ld.freeAt i)).trans hone

theorem gmLineChanged_kept (cols : Nat) (fetch : Nat → Option Fetched) (n new : Nat) (down : Bool) (ld : Loader) :
    Kept ld.entries (gmLineChanged cols fetch n new down ld).entries ∧
      (gmLineChanged cols fetch n new down ld).entries.length = ld.entries.length := by
  have hunload : ∀ l, Kept ld.entries (gmLineUnload cols ld l).entries ∧
      (gmLineUnload cols ld l).entries.length = ld.entries.length := by
    intro l
    cases l with
    | none => exact ⟨.refl _, rfl⟩
    | some l =>
      simp only [gmLineUnload, gmLineFree]
      split
      · exact ⟨freeAll_kept ld _, freeAll_length ld _⟩
      · exact ⟨.refl _, rfl⟩
  have hbring : ∀ (ld : Loader) l, Kept ld.entries (gmLineBringIn cols fetch ld l).entries ∧
      (gmLineBringIn cols fetch ld l).entries.length = ld.entries.length := by
    intro ld l
    cases l with
    | none => exact ⟨.refl _, rfl⟩
    | some l =>
      simp only [gmLineBringIn, gmLineLoad]
      split
      · exact ⟨loadAll_kept ld fetch _, (loadAll_same ld fetch _).1⟩
      · exact ⟨.refl _, rfl⟩
  simp only [gmLineChanged]
  obtain ⟨hk1, hl1⟩ := hunload (linesChanged n new down).1
  obtain ⟨hk2, hl2⟩ := hbring (gmLineUnload cols ld (linesChanged n new down).1) (linesChanged n new down).2
  exact ⟨hk1.trans hk2, hl2.trans hl1⟩

theorem gmFindMultiDisc_kept (es : List FileEntry) : Kept es (gmFindMultiDisc es) := by
  have hpair : ∀ es i j, Kept es (pairAt es i j) := by
    intro es i j
    simp only [pairAt]
    split
    · rename_i e e2 he he2
      split
      · rename_i hne
        have hj : (es.set i { e with second := some j })[j]? = some e2 :=
          (List.getElem?_set_ne hne.1).trans he2
        have h1 : SameFile e { e with second := some j } := ⟨rfl, rfl, rfl, rfl, rfl⟩
        have h2 : SameFile e2 { e2 with second := some i } := ⟨rfl, rfl, rfl, rfl, rfl⟩
        exact (kept_set he h1).trans (kept_set hj h2)
      · exact .refl _
    · exact .refl _
  apply kept_foldl
  intro es i
  apply kept_foldl
  intro es j
  exact hpair es i j

theorem gmFindMultiDisc_length (es : List FileEntry) : (gmFindMultiDisc es).length = es.length := by
  have h := congrArg List.length (gmFindMultiDisc_unpaired es)
  simpa using h

/-- A path checked adds at most one entry, at the end. -/
theorem gmCheckFile_kept (ld : Loader) (armed : Bool) (e : PathEntry) (a : CheckAnswer) :
    Kept ld.entries (gmCheckFile ld armed e a).entries ∧
      ld.entries.length ≤ (gmCheckFile ld armed e a).entries.length ∧
      (gmCheckFile ld armed e a).entries.length ≤ ld.entries.length + 1 := by
  have happ : ∀ b, Kept ld.entries (ld.append b).entries := fun b i x hx =>
    ⟨x, (append_old ld b (List.getElem?_eq_some_iff.mp hx).1).trans hx, .refl x⟩
  have hlen : ∀ b, (ld.append b).entries.length = ld.entries.length + 1 := fun b => by simp [Loader.append]
  obtain heq | ⟨b, -, ⟨-, heq⟩ | ⟨-, -, heq⟩ | ⟨-, -, -, heq⟩⟩ := gmCheckFile_cases ld armed e a
  · rw [heq]
    exact ⟨.refl _, Nat.le_refl _, Nat.le_succ _⟩
  · rw [heq]
    exact ⟨happ b, by rw [hlen]; omega, by rw [hlen]⟩
  · rw [heq]
    exact ⟨happ b, by rw [hlen]; omega, by rw [hlen]⟩
  · rw [heq]
    split
    · exact ⟨happ b, by rw [hlen]; omega, by rw [hlen]⟩
    · rw [loadAt_entries_length, hlen]
      exact ⟨(happ b).trans (loadAt_kept _ _ _), by omega, Nat.le_refl _⟩

/-! ## What a step of the worker does -/

/-- The background loader loads banners, and at its first step sets the slot. -/
structure BgKeeps (st st' : BgState) : Prop where
  grid : st'.grid = st.grid
  lastPlayed : st'.lastPlayed = st.lastPlayed
  entries : Kept st.ld.entries st'.ld.entries
  length : st'.ld.entries.length = st.ld.entries.length
  pending : st.pc ≠ .matchSlot → st'.pending = st.pending
  pc : st'.pc ≠ .matchSlot

theorem bgWorker_keeps (fetch : Nat → Option Fetched) (st : BgState) : BgKeeps st (bgWorker fetch st) := by
  have hload : ∀ line, Kept st.ld.entries (st.loadLine fetch line).entries ∧
      (st.loadLine fetch line).entries.length = st.ld.entries.length := fun line =>
    ⟨loadAll_kept _ _ _, (loadAll_same _ _ _).1⟩
  simp only [bgWorker]
  cases hpc : st.pc with
  | matchSlot => exact ⟨rfl, rfl, .refl _, rfl, fun h => absurd hpc h, by simp⟩
  | readSlot => exact ⟨rfl, rfl, .refl _, rfl, fun _ => rfl, by simp⟩
  | window resident first last line =>
    dsimp only
    split
    · exact ⟨rfl, rfl, (hload line).1, (hload line).2, fun _ => rfl, by simp⟩
    · split <;> exact ⟨rfl, rfl, .refl _, rfl, fun _ => rfl, by simp⟩
  | fill first last line =>
    dsimp only
    split
    · split
      · exact ⟨rfl, rfl, .refl _, rfl, fun _ => rfl, by simp⟩
      · exact ⟨rfl, rfl, (hload line).1, (hload line).2, fun _ => rfl, by simp⟩
    · exact ⟨rfl, rfl, .refl _, rfl, fun _ => rfl, by simp⟩
  | done => exact ⟨rfl, rfl, .refl _, rfl, fun _ => rfl, by simp [hpc]⟩

theorem linesFor_mono (cols : Nat) {n m : Nat} (h : n ≤ m) : linesFor cols n ≤ linesFor cols m := by
  have hdiv : (n + (cols - 1)) / cols ≤ (m + (cols - 1)) / cols := Nat.div_le_div_right (by omega)
  simp only [linesFor]
  split <;> split <;> omega

theorem bgWindow_last_le (cols n : Nat) (target : Int) : (bgWindow cols n target).2 ≤ n := by
  rw [bgWindow_eq]
  dsimp only
  split <;> omega

theorem bgStepsLeft_falls (fetch : Nat → Option Fetched) {st : BgState} (hpc : st.pc ≠ .done) :
    bgStepsLeft st.grid.numberOfLines (bgWorker fetch st).pc < bgStepsLeft st.grid.numberOfLines st.pc := by
  simp only [bgWorker]
  cases h : st.pc with
  | matchSlot =>
    simp only [bgStepsLeft]
    omega
  | readSlot =>
    have hlast := bgWindow_last_le st.grid.columnsPerLine st.grid.numberOfLines st.pending
    simp only [bgStepsLeft]
    omega
  | window resident first last line =>
    dsimp only
    split
    · simp only [bgStepsLeft]
      omega
    · split <;> simp only [bgStepsLeft] <;> omega
  | fill first last line =>
    dsimp only
    split
    · split <;> simp only [bgStepsLeft] <;> omega
    · simp only [bgStepsLeft]
      omega
  | done => exact absurd h hpc

/-- Armed or not, the list and the grid stay as they are. -/
theorem workerStep_arm (held : Bool) (a : WorkerAnswer) {g : Games} {listing : List PathEntry}
    (hw : g.worker = .arm listing) : ∃ armed path consumed, workerStep held g a =
      { g with
        scanIsLastPlayed := armed
        lastPlayedPath := path
        consumed := consumed
        ld := { g.ld with evictOnScroll := false }
        worker := .poll (gmSortFiles listing) } := by
  simp only [workerStep, hw, gmArmLastPlayed]
  split
  · exact ⟨_, _, _, rfl⟩
  · split <;> exact ⟨_, _, _, rfl⟩

/-- The paths are done, the menu asks to stop, or the next path is checked. -/
theorem workerStep_poll (held : Bool) (a : WorkerAnswer) {g : Games} {rest : List PathEntry}
    (hw : g.worker = .poll rest) :
    (rest = [] ∧ workerStep held g a = { g with worker := .pair }) ∨
    (held = true ∧ workerStep held g a = { g with scanStopped := true, worker := .pair }) ∨
    ∃ e rest', rest = e :: rest' ∧ workerStep held g a = { g with worker := .checkPath e rest' } := by
  cases rest with
  | nil => exact .inl ⟨rfl, by simp only [workerStep, hw]⟩
  | cons e rest =>
    right
    simp only [workerStep, hw]
    split
    · rename_i hheld
      exact .inl ⟨hheld, rfl⟩
    · exact .inr ⟨e, rest, rfl, rfl⟩

/-- The background loader ends, is stopped at a poll, or goes on. -/
theorem workerStep_background (held : Bool) (a : WorkerAnswer) {g : Games} {pc : BgPc}
    (hw : g.worker = .background pc) :
    (pc = .done ∧ workerStep held g a = { g with worker := .finish }) ∨
    (held = true ∧ workerStep held g a = { g with scanStopped := true, worker := .finish }) ∨
    workerStep held g a = g.bgStep a.fetch pc := by
  cases pc with
  | done => exact .inl ⟨rfl, by simp only [workerStep, hw]⟩
  | _ =>
    right
    simp only [workerStep, hw]
    split
    · rename_i hpolls
      simp only [Bool.and_eq_true] at hpolls
      exact .inl ⟨hpolls.1, rfl⟩
    · exact .inr rfl

/-- With the mutex held every step brings the end nearer. -/
theorem stepsLeft_falls (g : Games) (a : WorkerAnswer) :
    stepsLeft (workerStep true g a) < stepsLeft g ∨
      (stepsLeft g = 0 ∧ stepsLeft (workerStep true g a) = 0) := by
  cases hw : g.worker with
  | idle => exact .inr (by simp only [workerStep, stepsLeft, hw, and_self])
  | finish => exact .inl (by simp [workerStep, stepsLeft, hw])
  | begin => exact .inl (by simp only [workerStep, stepsLeft, hw]; omega)
  | list => exact .inl (by simp only [workerStep, stepsLeft, hw]; omega)
  | arm listing =>
    left
    obtain ⟨armed, path, consumed, heq⟩ := workerStep_arm true a hw
    rw [heq]
    simp only [stepsLeft, hw]
    omega
  | poll rest =>
    left
    obtain ⟨-, heq⟩ | ⟨-, heq⟩ | ⟨e, rest', rfl, heq⟩ := workerStep_poll true a hw
    · rw [heq]
      simp only [stepsLeft, hw]
      omega
    · rw [heq]
      simp only [stepsLeft, hw]
      omega
    · -- not taken: the menu holds the mutex
      simp only [workerStep, hw, if_true, stepsLeft]
      omega
  | checkPath e rest =>
    left
    obtain ⟨-, -, hlen⟩ := gmCheckFile_kept g.ld g.scanIsLastPlayed e a.check
    have hmono := linesFor_mono g.gridType.columns hlen
    simp only [workerStep, stepsLeft, hw]
    split <;> rename_i h <;> split at h <;> cases h <;> omega
  | publish rest => exact .inl (by simp only [workerStep, stepsLeft, hw]; omega)
  | pair =>
    left
    simp only [workerStep, stepsLeft, hw, gmFindMultiDisc_length]
    omega
  | setupGrid =>
    left
    have hlines : (gmSetupGrid g.gridType g.ld.entries.length false g.grid).numberOfLines =
        linesFor g.gridType.columns g.ld.entries.length := rfl
    cases harm : g.scanIsLastPlayed with
    | false => simp only [workerStep, stepsLeft, hw, harm, Bool.false_eq_true, if_false]; omega
    | true => simp only [workerStep, stepsLeft, bgStepsLeft, hw, harm, if_true, hlines]; omega
  | background pc =>
    left
    have hstep : ∀ pc, pc ≠ .done → stepsLeft (g.bgStep a.fetch pc) < bgStepsLeft g.grid.numberOfLines pc := by
      intro pc hpc
      simp only [stepsLeft, Games.bgStep]
      exact bgStepsLeft_falls a.fetch (by exact hpc)
    cases pc with
    | matchSlot => simpa [workerStep, stepsLeft, hw, bgPolls] using hstep .matchSlot (by simp)
    | readSlot => simpa [workerStep, stepsLeft, hw, bgPolls] using hstep .readSlot (by simp)
    | window resident first last line =>
      simpa [workerStep, stepsLeft, hw, bgPolls] using hstep (.window resident first last line) (by simp)
    | fill first last line =>
      have hfill := hstep (.fill first last line) (by simp)
      simp only [workerStep, hw]
      split
      · simp only [stepsLeft, bgStepsLeft, hw]
        omega
      · simpa only [stepsLeft, hw] using hfill
    | done => simp [workerStep, stepsLeft, hw, bgStepsLeft]

theorem stepsLeft_zero {g : Games} : stepsLeft g = 0 ↔ g.worker = .idle := by
  simp only [stepsLeft]
  cases g.worker with
  | idle => simp
  | background pc => cases pc <;> simp [bgStepsLeft]
  | _ => simp

/-- Before the first path is checked. -/
def WorkerPc.early : WorkerPc → Bool
  | .begin | .list | .arm _ => true
  | _ => false

/-- What holds wherever the worker is. -/
structure Games.Base (g : Games) : Prop where
  running : g.running = true ↔ g.worker ≠ .idle
  backing : g.backingCount ≤ g.ld.entries.length
  empty : g.worker.early = true → g.ld.entries = []
  unfinished : g.worker ≠ .idle → g.worker ≠ .begin → g.scanComplete = false
  uncut : g.scanComplete = true → g.scanStopped = false

/-- A step that leaves the worker on its way, past the first path. -/
theorem Games.Base.going {g g' : Games} (h : g.Base) (hw : g.worker ≠ .idle) (hw' : g'.worker ≠ .idle)
    (hlate : g'.worker.early = false) (hrun : g'.running = g.running)
    (hlen : g'.backingCount ≤ g'.ld.entries.length) (hc : g'.scanComplete = false) : g'.Base where
  running := by simp [hrun, h.running.mpr hw, hw']
  backing := hlen
  empty := by simp [hlate]
  unfinished := fun _ _ => hc
  uncut := by simp [hc]

theorem workerStep_base (held : Bool) (g : Games) (a : WorkerAnswer) (h : g.Base) :
    (workerStep held g a).Base := by
  cases hw : g.worker with
  | idle => simpa only [workerStep, hw] using h
  | begin =>
    -- the flags fall here, before anything is listed
    have hrun := h.running.mpr (by simp [hw])
    simp only [workerStep, hw]
    exact ⟨by simp [hrun], h.backing, fun _ => h.empty (by simp [hw, WorkerPc.early]), fun _ _ => rfl,
      fun hc => by cases hc⟩
  | list =>
    have hrun := h.running.mpr (by simp [hw])
    simp only [workerStep, hw]
    exact ⟨by simp [hrun], h.backing, fun _ => h.empty (by simp [hw, WorkerPc.early]),
      fun _ _ => h.unfinished (by simp [hw]) (by simp [hw]), h.uncut⟩
  | arm listing =>
    have hc := h.unfinished (by simp [hw]) (by simp [hw])
    obtain ⟨armed, path, consumed, heq⟩ := workerStep_arm held a hw
    rw [heq]
    exact h.going (by simp [hw]) (by simp) rfl rfl h.backing hc
  | poll rest =>
    have hc := h.unfinished (by simp [hw]) (by simp [hw])
    obtain ⟨-, heq⟩ | ⟨-, heq⟩ | ⟨e, rest', -, heq⟩ := workerStep_poll held a hw
    all_goals
      rw [heq]
      exact h.going (by simp [hw]) (by simp) rfl rfl h.backing hc
  | checkPath e rest =>
    have hc := h.unfinished (by simp [hw]) (by simp [hw])
    obtain ⟨-, hlen, -⟩ := gmCheckFile_kept g.ld g.scanIsLastPlayed e a.check
    simp only [workerStep, hw]
    split <;> exact h.going (by simp [hw]) (by simp) rfl rfl (h.backing.trans hlen) hc
  | publish rest =>
    have hc := h.unfinished (by simp [hw]) (by simp [hw])
    simp only [workerStep, hw]
    exact h.going (by simp [hw]) (by simp) rfl rfl (Nat.le_refl _) hc
  | pair =>
    have hc := h.unfinished (by simp [hw]) (by simp [hw])
    simp only [workerStep, hw]
    exact h.going (by simp [hw]) (by simp) rfl rfl (by simpa only [gmFindMultiDisc_length] using h.backing) hc
  | setupGrid =>
    have hc := h.unfinished (by simp [hw]) (by simp [hw])
    simp only [workerStep, hw]
    split <;> exact h.going (by simp [hw]) (by simp) rfl rfl h.backing hc
  | background pc =>
    have hc := h.unfinished (by simp [hw]) (by simp [hw])
    have hlen := (bgWorker_keeps a.fetch (g.bgState pc)).length
    obtain ⟨-, heq⟩ | ⟨-, heq⟩ | heq := workerStep_background held a hw <;> rw [heq]
    · exact h.going (by simp [hw]) (by simp) rfl rfl h.backing hc
    · exact h.going (by simp [hw]) (by simp) rfl rfl h.backing hc
    · exact h.going (by simp [hw]) (by simp [Games.bgStep]) rfl rfl (h.backing.trans (Nat.le_of_eq hlen.symm)) hc
  | finish =>
    simp only [workerStep, hw]
    -- complete exactly if it was not cut short
    exact ⟨by simp, h.backing, by simp [WorkerPc.early], fun hi => absurd rfl hi, by simp⟩

/-- While a list lives its entries stay in place, and only the scan adds to it. -/
theorem workerStep_keeps (held : Bool) (g : Games) (a : WorkerAnswer) :
    Kept g.ld.entries (workerStep held g a).ld.entries := by
  cases hw : g.worker with
  | idle | begin | list | publish _ | setupGrid | finish =>
    simp only [workerStep, hw]
    exact .refl _
  | arm listing =>
    obtain ⟨armed, path, consumed, heq⟩ := workerStep_arm held a hw
    rw [heq]
    exact .refl _
  | poll rest =>
    obtain ⟨-, heq⟩ | ⟨-, heq⟩ | ⟨e, rest', -, heq⟩ := workerStep_poll held a hw <;> rw [heq] <;> exact .refl _
  | checkPath e rest =>
    simp only [workerStep, hw]
    exact (gmCheckFile_kept ..).1
  | pair =>
    simp only [workerStep, hw]
    exact gmFindMultiDisc_kept _
  | background pc =>
    obtain ⟨-, heq⟩ | ⟨-, heq⟩ | heq := workerStep_background held a hw <;> rw [heq]
    · exact .refl _
    · exact .refl _
    · exact (bgWorker_keeps a.fetch (g.bgState pc)).entries

/-- Only the first set-up of a scan moves the cursor. -/
theorem workerStep_selectedSlot (held : Bool) {g : Games} (a : WorkerAnswer) (hw : g.worker ≠ .list) :
    (workerStep held g a).grid.selectedSlot = g.grid.selectedSlot := by
  cases hpc : g.worker with
  | list => exact absurd hpc hw
  | arm listing =>
    obtain ⟨armed, path, consumed, heq⟩ := workerStep_arm held a hpc
    rw [heq]
  | poll rest => obtain ⟨-, heq⟩ | ⟨-, heq⟩ | ⟨e, rest', -, heq⟩ := workerStep_poll held a hpc <;> rw [heq]
  | background pc => rcases workerStep_background held a hpc with ⟨-, heq⟩ | ⟨-, heq⟩ | heq <;> rw [heq]; rfl
  | setupGrid =>
    simp only [workerStep, hpc]
    rfl
  | _ => simp only [workerStep, hpc]

theorem workerStep_listNo (held : Bool) (g : Games) (a : WorkerAnswer) :
    (workerStep held g a).listNo = g.listNo := by
  cases hw : g.worker with
  | arm listing =>
    obtain ⟨armed, path, consumed, heq⟩ := workerStep_arm held a hw
    rw [heq]
  | poll rest => obtain ⟨-, heq⟩ | ⟨-, heq⟩ | ⟨e, rest', -, heq⟩ := workerStep_poll held a hw <;> rw [heq]
  | background pc => rcases workerStep_background held a hw with ⟨-, heq⟩ | ⟨-, heq⟩ | heq <;> rw [heq]; rfl
  | _ => simp only [workerStep, hw]

/-! ## What the menu's calls do -/

/-- The worker ends when it is waited for. -/
theorem gmDeinitThread_idle {g : Games} (h : g.Base) (answers : Nat → WorkerAnswer) :
    (gmDeinitThread answers g).worker = .idle := by
  rw [gmDeinitThread]
  split
  · exact stepsLeft_zero.mp (Steps.drive_done stepsLeft_falls answers g)
  · rename_i hrun
    by_contra hne
    exact hrun (h.running.mpr hne)

/-- What every step of the waited-for worker keeps, the wait keeps. -/
theorem gmDeinitThread_inv {G : Games → WorkerAnswer → Prop} (Inv : Games → Prop)
    (hstep : ∀ g a, Inv g → G g a → Inv (workerStep true g a)) {answers : Nat → WorkerAnswer} {g : Games}
    (hg : Inv g) (hG : g.running = true → Steps.Driven (workerStep true) stepsLeft answers G g) :
    Inv (gmDeinitThread answers g) := by
  rw [gmDeinitThread]
  split
  · rename_i hrun
    exact Steps.inv_drive Inv hstep hg (hG hrun)
  · exact hg

theorem gmDeinitThread_base {g : Games} (h : g.Base) (answers : Nat → WorkerAnswer) :
    (gmDeinitThread answers g).Base :=
  gmDeinitThread_inv Games.Base (fun g a hg _ => workerStep_base true g a hg) h fun _ =>
    Steps.guarded_true _

/-- Three outcomes: the thread runs already, the list is kept, or it is freed and
a scan begins. -/
theorem gmStartThread_cases (target : Option Path) (g : Games) :
    (g.running = true ∧ gmStartThread target g = g) ∨
    (g.running = false ∧ g.keepsList target = true ∧ gmStartThread target g =
      { g with
        enumPath := (g.startPath target).2
        coldBootResolve := g.coldBootResolve || target.isNone }) ∨
    (g.running = false ∧ g.freesList target = true ∧ gmStartThread target g =
      { g with
        enumPath := (g.startPath target).1
        coldBootResolve := g.coldBootResolve || target.isNone
        running := true
        ld := { g.ld with entries := [], pool := .fresh }
        grid := { g.grid with numberOfLines := 0 }
        backingCount := 0
        worker := .begin
        listNo := g.listNo + 1 }) := by
  cases hrun : g.running with
  | true => exact .inl ⟨rfl, by simp [gmStartThread, hrun]⟩
  | false =>
    right
    cases hkeep : g.keepsList target with
    | true => exact .inl ⟨rfl, rfl, by simp [gmStartThread, hrun, hkeep]⟩
    | false => exact .inr ⟨rfl, by simp [Games.freesList, hrun, hkeep], by simp [gmStartThread, hrun, hkeep]⟩

theorem gmStartThread_base {g : Games} (h : g.Base) (target : Option Path) : (gmStartThread target g).Base := by
  obtain ⟨-, heq⟩ | ⟨-, -, heq⟩ | ⟨-, -, heq⟩ := gmStartThread_cases target g
  · rw [heq]
    exact h
  · rw [heq]
    exact ⟨h.running, h.backing, h.empty, h.unfinished, h.uncut⟩
  · rw [heq]
    exact ⟨by simp, Nat.le_refl _, fun _ => rfl, fun _ hb => absurd rfl hb, h.uncut⟩

end Cubiboot
