import Cubiboot.Worker
import Cubiboot.Handoff
import Cubiboot.Lib.Trim

/-
  The folder the browser shows: `game_enum_path`, from the cold boot through
  entering directories and going back.

  The cold boot takes the folder of the last game played if there is one that opens, else
  the default folder. Entering a directory appends its name; going back cuts the path at
  the slash before the last. Every copy goes through a buffer of 128 bytes, and none of
  them is checked: `inBuffer` says whether a string fits, and the state says whether one
  has not.

  What is proved:
    1. `gmStartPath_games` — `gmStartPath` is what `gmStartThread` makes of the path.
    2. `gmStartPath_enter`, `gmStartPath_back` — the path after each step, where it fits.
    3. `navigation_iff` — every state of a run is sound exactly when the folder of the
       cold boot fits and is absolute, and no directory is entered whose path does not
       fit or whose folder is written with more than one slash at its end.

  Correspondence (C ↔ Lean):
    `gm_last_played_folder`                          ↔ `gmLastPlayedFolder`
    `resolve_default_folder`                         ↔ `resolveDefaultFolder`
    `gm_thread_worker` (cold boot folder)            ↔ `coldBootPath`
    `gm_start_thread` (its paths)                    ↔ `gmStartPath`
    `handle_gameselect_inputs` (B, A on a directory) ↔ `navStep`
-/

set_option autoImplicit false

namespace Cubiboot

/-! ## The cold boot -/

/-- The size of `game_enum_path` and of the local `path` buffers. -/
def enumPathLen : Nat := 128

/-- A C string in a buffer of `size` bytes, if it fits with its NUL. -/
def inBuffer (size : Nat) (s : Path) : Option Path := if s.length < size then some s else none

/-- What the cold boot reads: the path `gm_read_last_played` finds, whether the app's
banner is beside it, and which folders open. -/
structure ColdBoot where
  rememberLastGame : Bool
  lastPlayed : Option Path
  appBanner : Bool
  defaultFolder : Path
  opens : Path → Bool

/-- Whether `gm_recent_entry_slash` looks for a banner beside the path. -/
def namesAppDol (path : Path) : Prop :=
  uptoSlash path ≠ [] ∧ strcasecmpEq (path.drop ((uptoSlash path).length - 1)) appDolName

instance (path : Path) : Decidable (namesAppDol path) := inferInstanceAs (Decidable (_ ∧ _))

/-- The folder without its slash, unless it is the root. -/
def cutFolder (folder : Path) : Path := if folder = [slash] then folder else folder.dropLast

/-- Nothing where the banner's path overruns its buffer. -/
def gmLastPlayedFolder (c : ColdBoot) : Option (Option Path) :=
  if !c.rememberLastGame then some none
  else
    match c.lastPlayed with
    | none => some none
    | some path =>
      if namesAppDol path ∧ inBuffer gmPathMax (gmAppBannerPath path) = none then none
      else some (((gmRecentEntryFolder c.appBanner path).map cutFolder).filter c.opens)

def resolveDefaultFolder (c : ColdBoot) : Path :=
  if c.defaultFolder = [] then [slash]
  else
    let path := if c.defaultFolder.head? = some slash then c.defaultFolder
      else (slash :: c.defaultFolder).take (maxFileName - 1)
    if c.opens path then path else [slash]

/-- The folder the worker starts in, and `game_enum_path` with it. -/
def coldBootPath (c : ColdBoot) : Option Path := do
  let lastPlayed ← gmLastPlayedFolder c
  let resolved ← inBuffer enumPathLen (lastPlayed.getD (resolveDefaultFolder c))
  inBuffer enumPathLen (withSlash resolved)

/-! ## Entering and going back -/

/-- The paths of `gm_start_thread`: `complete` is whether there is a complete list to keep. -/
def gmStartPath (complete : Bool) (enumPath target : Path) : Option Path := do
  let previousPath ← inBuffer enumPathLen enumPath
  let enumPath := if target = dotdot then popPath enumPath else enumPath
  let target := if target = dotdot then enumPath else target
  let path ← (inBuffer enumPathLen target).bind fun t => inBuffer enumPathLen (withSlash t)
  if complete ∧ path = previousPath then some enumPath else some path

/-- A name as a directory has it. -/
structure DirName where
  name : Path
  ne : name ≠ []
  noSlash : slash ∉ name

/-- The directory's path, as it is listed and as it is entered. -/
def enterTarget (enumPath : Path) (d : DirName) : Option Path := do
  let entry ← inBuffer gmPathMax (enumPath ++ d.name)
  inBuffer enumPathLen (entry ++ [slash])

/-- `entered` is the folders that were shown on the way here, the last one first; `overrun`
whether a buffer has been written past its end. -/
structure Nav where
  path : Path
  entered : List Path
  overrun : Bool

inductive NavOp where
  | enter (d : DirName) (complete : Bool)
  | back (complete : Bool)

def navStep (s : Nav) : NavOp → Nav
  | .enter d complete =>
    match (enterTarget s.path d).bind (gmStartPath complete s.path) with
    | none => { s with overrun := true }
    | some path => { s with path := path, entered := s.path :: s.entered }
  | .back complete =>
    if s.path = [slash] then s
    else
      match gmStartPath complete s.path dotdot with
      | none => { s with overrun := true }
      | some path => { s with path := path, entered := s.entered.tail }

def Nav.start (c : ColdBoot) : Nav :=
  match coldBootPath c with
  | none => ⟨[slash], [], true⟩
  | some path => ⟨path, [], false⟩

/-! ## What holds of a state -/

/-- From `path`, B pressed again and again shows the folders of the list one after the other. -/
def Returns : Path → List Path → Prop
  | _, [] => True
  | path, p :: rest =>
    (∀ (s : Nav) (complete : Bool), s.path = path → (navStep s (.back complete)).path = p) ∧ Returns p rest

structure NavOk (s : Nav) : Prop where
  first : s.path.head? = some slash
  last : s.path.getLast? = some slash
  short : s.path.length < enumPathLen
  fits : s.overrun = false
  returns : Returns s.path s.entered
  root : s.path = [slash] → ∀ complete, (navStep s (.back complete)).path = s.path

/-- The app's banner path fits, and the folder resolved is absolute and fits with its slash. -/
structure ColdBootFits (c : ColdBoot) : Prop where
  banner : c.rememberLastGame = true → ∀ path, c.lastPlayed = some path → namesAppDol path →
    (gmAppBannerPath path).length < gmPathMax
  folder : ∀ lastPlayed, gmLastPlayedFolder c = some lastPlayed →
    (withSlash (lastPlayed.getD (resolveDefaultFolder c))).head? = some slash ∧
      (withSlash (lastPlayed.getD (resolveDefaultFolder c))).length < enumPathLen

/-- The path of a directory entered fits with its slash, and the folder it is in is the
root or ends in one slash. -/
def EnterFits (s : Nav) : NavOp → Prop
  | .enter d _ => (s.path ++ d.name ++ [slash]).length < enumPathLen ∧ (s.path = [slash] ∨ ¬ [slash, slash] <:+ s.path)
  | .back _ => True

/-! ## The string surgery -/

theorem inBuffer_of_lt {size : Nat} {s : Path} (h : s.length < size) : inBuffer size s = some s := if_pos h

theorem inBuffer_eq_none {size : Nat} {s : Path} : inBuffer size s = none ↔ ¬ s.length < size := by
  rw [inBuffer]
  split <;> simp [*]

theorem withSlash_of_last {path : Path} (h : path.getLast? = some slash) : withSlash path = path := if_pos h

theorem withSlash_last (path : Path) : (withSlash path).getLast? = some slash := by
  rw [withSlash]
  split
  · assumption
  · exact List.getLast?_concat

theorem length_le_withSlash (path : Path) : path.length ≤ (withSlash path).length := by
  rw [withSlash]
  split
  · exact Nat.le_refl _
  · rw [List.length_append]
    exact Nat.le_add_right _ _

theorem withSlash_length_le (path : Path) : (withSlash path).length ≤ path.length + 1 := by
  rw [withSlash]
  split
  · exact Nat.le_succ _
  · rw [List.length_append]
    exact Nat.le_refl _

theorem withSlash_head {path : Path} (h : path.head? = some slash) : (withSlash path).head? = some slash := by
  rw [withSlash]
  split
  · exact h
  · rw [List.head?_append, h]
    rfl

theorem uptoSlash_append (q : Path) {d : Path} (h : slash ∉ d) : uptoSlash (q ++ slash :: d) = q ++ [slash] := by
  rw [uptoSlash, Trim.dropWhile_last q h, List.reverse_cons, List.reverse_reverse]

/-- What is cut off is the last element and the slash in front of it. -/
theorem popPath_split {path q d : Path} (hpath : path.dropLast = q ++ slash :: d) (hd : slash ∉ d) :
    popPath path = if q = [] then [slash] else q := by
  have hmem : slash ∈ q ++ slash :: d := List.mem_append_right q List.mem_cons_self
  rw [popPath]
  simp only [hpath, if_pos hmem, uptoSlash_append q hd, List.dropLast_concat]

/-- The folder above one that is absolute and is not the root. -/
structure Above (path up : Path) : Prop where
  first : up.head? = some slash
  last : up.getLast? = some slash
  shorter : up.length < path.length

theorem popPath_above {path : Path} (hfirst : path.head? = some slash) (hlast : path.getLast? = some slash)
    (hroot : path ≠ [slash]) : Above path (withSlash (popPath path)) ∧ (popPath path).length < path.length := by
  -- an absolute path that is not the root has another slash in front of its last
  obtain ⟨tail, rfl⟩ := List.head?_eq_some_iff.mp hfirst
  have htail : tail ≠ [] := fun h => hroot (by rw [h])
  have hdrop : (slash :: tail).dropLast = slash :: tail.dropLast := List.dropLast_cons_of_ne_nil htail
  have hlen : tail.dropLast.length + 1 = tail.length := by
    have hpos := List.length_pos_of_ne_nil htail
    rw [List.length_dropLast]
    omega
  have hmem : slash ∈ slash :: tail.dropLast := List.mem_cons_self
  obtain ⟨q, d, hsplit, hd⟩ := Trim.exists_last hmem
  have hq : q.length + d.length = tail.dropLast.length := by
    have hcount := congrArg List.length hsplit
    rw [List.length_cons, List.length_append, List.length_cons] at hcount
    omega
  rw [popPath_split (hdrop.trans hsplit) hd, List.length_cons]
  by_cases hnil : q = []
  · rw [if_pos hnil]
    refine ⟨⟨rfl, rfl, ?_⟩, ?_⟩
    · show 1 < (slash :: tail).length
      rw [List.length_cons]
      omega
    · show 1 < tail.length + 1
      omega
  · rw [if_neg hnil]
    have hqfirst : q.head? = some slash := by
      obtain ⟨c, cs, rfl⟩ := List.exists_cons_of_ne_nil hnil
      rw [List.cons_append] at hsplit
      rw [← (List.cons.inj hsplit).1]
      rfl
    have hlong := withSlash_length_le q
    refine ⟨⟨withSlash_head hqfirst, withSlash_last q, ?_⟩, by omega⟩
    rw [List.length_cons]
    omega

/-! ## One step -/

theorem gmStartPath_back {path : Path} (hfirst : path.head? = some slash) (hlast : path.getLast? = some slash)
    (hroot : path ≠ [slash]) (hshort : path.length < enumPathLen) (complete : Bool) :
    gmStartPath complete path dotdot = some (withSlash (popPath path)) := by
  obtain ⟨habove, hpop⟩ := popPath_above hfirst hlast hroot
  have hup := habove.shorter
  have hother : ¬ (complete = true ∧ withSlash (popPath path) = path) := by
    intro ⟨_, he⟩
    rw [he] at hup
    exact Nat.lt_irrefl _ hup
  rw [gmStartPath, inBuffer_of_lt hshort]
  simp only [Option.bind_eq_bind, Option.bind_some, if_true]
  rw [inBuffer_of_lt (by omega), Option.bind_some, inBuffer_of_lt (by omega), Option.bind_some, if_neg hother]

theorem gmStartPath_enter {path target : Path} (hfirst : target.head? = some slash)
    (hlast : target.getLast? = some slash) (hlen : path.length < target.length) (hshort : target.length < enumPathLen)
    (complete : Bool) : gmStartPath complete path target = some target := by
  have hdots : target ≠ dotdot := by
    intro he
    rw [he] at hfirst
    exact absurd hfirst (by decide +kernel)
  have hother : ¬ (complete = true ∧ target = path) := by
    intro ⟨_, he⟩
    rw [he] at hlen
    exact Nat.lt_irrefl _ hlen
  rw [gmStartPath, inBuffer_of_lt (by omega)]
  simp only [Option.bind_eq_bind, Option.bind_some, if_neg hdots]
  rw [inBuffer_of_lt hshort, Option.bind_some, withSlash_of_last hlast, inBuffer_of_lt hshort, Option.bind_some,
    if_neg hother]

theorem inBuffer_eq_some {size : Nat} {s t : Path} (h : inBuffer size s = some t) : t = s := by
  rw [inBuffer] at h
  split at h
  · exact (Option.some.inj h).symm
  · cases h

/-- Where nothing is overrun, the browser's `gm_start_thread` goes to the same path. -/
theorem gmStartPath_games {g : Games} (hrun : g.running = false) {target path : Path}
    (h : gmStartPath (g.scanComplete && decide (0 < g.ld.entries.length)) g.enumPath target = some path) :
    (gmStartThread (some target) g).enumPath = path := by
  have hstart : g.startPath (some target) =
      (withSlash (if target = dotdot then popPath g.enumPath else target),
        if target = dotdot then popPath g.enumPath else g.enumPath) := by
    rw [Games.startPath]
    by_cases hdots : target = dotdot
    · simp only [if_pos hdots]
    · simp only [if_neg hdots]
  -- every copy is the string copied
  simp only [gmStartPath, Option.bind_eq_bind, Option.bind_eq_some_iff] at h
  obtain ⟨previous, hprevious, t, ⟨t', ht', ht⟩, hpath⟩ := h
  have hfirst : t = (g.startPath (some target)).1 := by
    rw [inBuffer_eq_some ht, inBuffer_eq_some ht', hstart]
    by_cases hdots : target = dotdot
    · simp only [if_pos hdots]
    · simp only [if_neg hdots]
  rw [inBuffer_eq_some hprevious, hfirst] at hpath
  have hkeeps : g.keepsList (some target) = true ↔
      (g.scanComplete && decide (0 < g.ld.entries.length)) = true ∧ (g.startPath (some target)).1 = g.enumPath := by
    rw [Games.keepsList, decide_eq_true_eq, Bool.and_eq_true, decide_eq_true_eq, and_assoc]
  obtain ⟨hr, -⟩ | ⟨-, hkeep, heq⟩ | ⟨-, hfree, heq⟩ := gmStartThread_cases (some target) g
  · rw [hrun] at hr
    cases hr
  · rw [if_pos (hkeeps.mp hkeep)] at hpath
    rw [heq, ← Option.some.inj hpath, hstart]
  · have hkeep : ¬ g.keepsList (some target) = true := by
      rw [Games.freesList, hrun] at hfree
      simpa using hfree
    rw [if_neg fun hc => hkeep (hkeeps.mpr hc)] at hpath
    rw [heq, ← Option.some.inj hpath]

theorem navStep_back {s : Nav} (hfirst : s.path.head? = some slash) (hlast : s.path.getLast? = some slash)
    (hshort : s.path.length < enumPathLen) (hroot : s.path ≠ [slash]) (complete : Bool) :
    navStep s (.back complete) = { s with path := withSlash (popPath s.path), entered := s.entered.tail } := by
  rw [navStep, if_neg hroot, gmStartPath_back hfirst hlast hroot hshort]

/-- Where a directory's path fits, it is the folder shown next. -/
theorem navStep_enter {s : Nav} (hfirst : s.path.head? = some slash) (d : DirName) (complete : Bool)
    (hfit : (s.path ++ d.name ++ [slash]).length < enumPathLen) :
    navStep s (.enter d complete) = { s with path := s.path ++ d.name ++ [slash], entered := s.path :: s.entered } := by
  have hlen : (s.path ++ d.name ++ [slash]).length = (s.path ++ d.name).length + 1 := List.length_append
  have hentry : (s.path ++ d.name).length < gmPathMax := by
    have h1 : enumPathLen = gmPathMax := rfl
    omega
  have htarget : enterTarget s.path d = some (s.path ++ d.name ++ [slash]) := by
    rw [enterTarget, inBuffer_of_lt hentry]
    exact inBuffer_of_lt hfit
  have hstart : gmStartPath complete s.path (s.path ++ d.name ++ [slash]) = some (s.path ++ d.name ++ [slash]) := by
    apply gmStartPath_enter _ List.getLast?_concat _ hfit
    · rw [List.append_assoc, List.head?_append, hfirst]
      rfl
    · rw [hlen, List.length_append]
      omega
  rw [navStep, htarget, Option.bind_some, hstart]

/-- Where it does not, a buffer is overrun. -/
theorem navStep_enter_overrun {s : Nav} (d : DirName) (complete : Bool)
    (hfit : ¬ (s.path ++ d.name ++ [slash]).length < enumPathLen) :
    navStep s (.enter d complete) = { s with overrun := true } := by
  have htarget : enterTarget s.path d = none := by
    rw [enterTarget, inBuffer]
    split
    · exact inBuffer_eq_none.mpr hfit
    · rfl
  rw [navStep, htarget, Option.bind_none]

/-- B brings back the folder a directory was entered from, unless its path ends in two slashes. -/
theorem back_of_enter {path : Path} (hlast : path.getLast? = some slash) (d : DirName) :
    withSlash (popPath (path ++ d.name ++ [slash])) = path ↔ path = [slash] ∨ ¬ [slash, slash] <:+ path := by
  obtain ⟨q, rfl⟩ := List.getLast?_eq_some_iff.mp hlast
  have hdrop : (q ++ [slash] ++ d.name ++ [slash]).dropLast = q ++ slash :: d.name := by
    rw [List.dropLast_concat, List.append_assoc]
    rfl
  rw [popPath_split hdrop d.noSlash]
  by_cases hnil : q = []
  · rw [if_pos hnil, hnil]
    exact iff_of_true rfl (.inl rfl)
  · have hroot : q ++ [slash] ≠ [slash] := fun he => hnil (List.append_left_eq_self.mp he)
    have hdouble : [slash, slash] <:+ q ++ [slash] ↔ q.getLast? = some slash := by
      rw [List.getLast?_eq_some_iff]
      constructor
      · intro ⟨r, hr⟩
        refine ⟨r, ?_⟩
        rw [List.append_cons r slash [slash]] at hr
        exact (List.append_cancel_right hr).symm
      · rintro ⟨r, rfl⟩
        exact ⟨r, List.append_cons r slash [slash]⟩
    rw [if_neg hnil, hdouble, withSlash]
    split
    · rename_i hq
      exact iff_of_false (fun he => by simpa using congrArg List.length he) (by simp [hroot, hq])
    · rename_i hq
      exact iff_of_true rfl (.inr hq)

/-! ## A whole run -/

theorem navOk_back {s : Nav} (h : NavOk s) (complete : Bool) : NavOk (navStep s (.back complete)) := by
  by_cases hroot : s.path = [slash]
  · have hstay : navStep s (.back complete) = s := if_pos hroot
    rw [hstay]
    exact h
  · obtain ⟨habove, -⟩ := popPath_above h.first h.last hroot
    have hshort := h.short
    have hup := habove.shorter
    have hback := navStep_back h.first h.last hshort hroot complete
    have hpath : (navStep s (.back complete)).path = withSlash (popPath s.path) := by rw [hback]
    rw [hback]
    refine ⟨habove.first, habove.last, Nat.lt_trans hup hshort, h.fits, ?_, fun hr _ => ?_⟩
    · -- the rest of the folders are shown from the one this B shows
      have hreturns := h.returns
      cases hentered : s.entered with
      | nil => trivial
      | cons p rest =>
        rw [hentered] at hreturns
        have hp := hreturns.1 s complete rfl
        rw [hpath] at hp
        show Returns (withSlash (popPath s.path)) rest
        rw [hp]
        exact hreturns.2
    · rw [navStep, if_pos hr]

theorem navOk_enter {s : Nav} (h : NavOk s) (d : DirName) (complete : Bool) :
    NavOk (navStep s (.enter d complete)) ↔ EnterFits s (.enter d complete) := by
  by_cases hfit : (s.path ++ d.name ++ [slash]).length < enumPathLen
  · have hfirst : (s.path ++ d.name ++ [slash]).head? = some slash := by
      rw [List.append_assoc, List.head?_append, h.first]
      rfl
    have hlast : (s.path ++ d.name ++ [slash]).getLast? = some slash := List.getLast?_concat
    have hroot : s.path ++ d.name ++ [slash] ≠ [slash] := by
      intro he
      have hnil : s.path ++ d.name = [] := List.append_left_eq_self.mp he
      exact d.ne (List.append_eq_nil_iff.mp hnil).2
    -- what B makes of the folder entered
    have hback : ∀ (s' : Nav) (c : Bool), s'.path = s.path ++ d.name ++ [slash] →
        (navStep s' (.back c)).path = withSlash (popPath (s.path ++ d.name ++ [slash])) := by
      intro s' c hs'
      rw [navStep_back (by rw [hs']; exact hfirst) (by rw [hs']; exact hlast) (by rw [hs']; exact hfit)
        (by rw [hs']; exact hroot), hs']
    rw [navStep_enter h.first d complete hfit]
    constructor
    · intro hok
      have hreturns := hok.returns.1 ⟨_, [], false⟩ false rfl
      rw [hback _ _ rfl] at hreturns
      exact ⟨hfit, (back_of_enter h.last d).mp hreturns⟩
    · intro ⟨_, hone⟩
      refine ⟨hfirst, hlast, hfit, h.fits, ⟨fun s' c hs' => ?_, h.returns⟩, fun hr => absurd hr hroot⟩
      rw [hback s' c hs']
      exact (back_of_enter h.last d).mpr hone
  · rw [navStep_enter_overrun d complete hfit]
    exact iff_of_false (fun hok => absurd hok.fits (by simp)) fun hg => hfit hg.1

theorem navOk_step {s : Nav} (h : NavOk s) (op : NavOp) : NavOk (navStep s op) ↔ EnterFits s op := by
  cases op with
  | enter d complete => exact navOk_enter h d complete
  | back complete => exact iff_of_true (navOk_back h complete) trivial

theorem gmLastPlayedFolder_isSome (c : ColdBoot) : (gmLastPlayedFolder c).isSome ↔
    (c.rememberLastGame = true → ∀ path, c.lastPlayed = some path → namesAppDol path →
      (gmAppBannerPath path).length < gmPathMax) := by
  rw [gmLastPlayedFolder]
  cases hremember : c.rememberLastGame with
  | false => exact iff_of_true rfl fun h => absurd h (by decide)
  | true =>
    cases hlast : c.lastPlayed with
    | none => exact iff_of_true rfl fun _ path hp => absurd hp (by simp)
    | some path =>
      simp only [Bool.not_true, Bool.false_eq_true, if_false, inBuffer_eq_none]
      by_cases hover : namesAppDol path ∧ ¬ (gmAppBannerPath path).length < gmPathMax
      · rw [if_pos hover]
        exact iff_of_false (by simp) fun h => hover.2 (h trivial path rfl hover.1)
      · rw [if_neg hover]
        refine iff_of_true rfl fun _ p hp happ => ?_
        obtain rfl := Option.some.inj hp
        by_contra hlen
        exact hover ⟨happ, hlen⟩

theorem navOk_start (c : ColdBoot) : NavOk (Nav.start c) ↔ ColdBootFits c := by
  have hover : coldBootPath c = none → ¬ NavOk (Nav.start c) := by
    intro hnone hok
    have hfits := hok.fits
    rw [Nav.start, hnone] at hfits
    cases hfits
  -- the banner of an app is looked for before any folder is taken
  cases hlast : gmLastPlayedFolder c with
  | none =>
    have hnone : coldBootPath c = none := by
      rw [coldBootPath, hlast]
      rfl
    refine iff_of_false (hover hnone) fun h => ?_
    have hsome := (gmLastPlayedFolder_isSome c).mpr h.banner
    rw [hlast] at hsome
    cases hsome
  | some lastPlayed =>
    have hbanner := (gmLastPlayedFolder_isSome c).mp (by rw [hlast]; rfl)
    have hpath : coldBootPath c = (inBuffer enumPathLen (lastPlayed.getD (resolveDefaultFolder c))).bind
        fun resolved => inBuffer enumPathLen (withSlash resolved) := by
      rw [coldBootPath, hlast]
      rfl
    generalize hresolved : lastPlayed.getD (resolveDefaultFolder c) = resolved at hpath
    have hfolder : ColdBootFits c ↔
        (withSlash resolved).head? = some slash ∧ (withSlash resolved).length < enumPathLen := by
      constructor
      · intro h
        rw [← hresolved]
        exact h.folder lastPlayed hlast
      · intro h
        refine ⟨hbanner, fun l hl => ?_⟩
        obtain rfl := Option.some.inj (hlast.symm.trans hl)
        rw [hresolved]
        exact h
    rw [hfolder]
    -- both copies fit if the second does
    by_cases hfit : (withSlash resolved).length < enumPathLen
    · have hlong := length_le_withSlash resolved
      rw [inBuffer_of_lt (by omega), Option.bind_some, inBuffer_of_lt hfit] at hpath
      have hstart : Nav.start c = ⟨withSlash resolved, [], false⟩ := by rw [Nav.start, hpath]
      rw [hstart]
      constructor
      · exact fun hok => ⟨hok.first, hfit⟩
      · intro ⟨hfirst, _⟩
        refine ⟨hfirst, withSlash_last resolved, hfit, rfl, trivial, fun hr _ => ?_⟩
        rw [navStep, if_pos hr]
    · have hnone : coldBootPath c = none := by
        rw [hpath, inBuffer]
        split
        · exact inBuffer_eq_none.mpr hfit
        · rfl
      exact iff_of_false (hover hnone) fun h => hfit h.2

/-- Every state of a run is sound exactly when the cold boot's folder fits and each
directory entered does. -/
theorem navigation_iff (c : ColdBoot) (ops : List NavOp) :
    (∀ pre, pre <+: ops → NavOk (Steps.run navStep (Nav.start c) pre)) ↔
      ColdBootFits c ∧ Steps.Guarded navStep EnterFits (Nav.start c) ops := by
  constructor
  · intro h
    have h0 : NavOk (Nav.start c) := h [] List.nil_prefix
    refine ⟨(navOk_start c).mp h0, ?_⟩
    exact (Steps.always_iff_guarded (fun _ => True) NavOk (fun _ _ _ => trivial) (fun _ op _ hs => navOk_step hs op)
      trivial h0).mp h
  · intro ⟨hfits, hguarded⟩
    exact (Steps.always_iff_guarded (fun _ => True) NavOk (fun _ _ _ => trivial) (fun _ op _ hs => navOk_step hs op)
      trivial ((navOk_start c).mpr hfits)).mpr hguarded

/-! ## Three runs -/

/-- A boot into a folder that opens, with nothing played before. -/
def ColdBoot.ofDefault (folder : Path) : ColdBoot where
  rememberLastGame := false
  lastPlayed := none
  appBanner := false
  defaultFolder := folder
  opens := fun _ => true

/-- A directory with a name of `n + 1` letters. -/
def letters (n : Nat) : DirName where
  name := List.replicate (n + 1) 97
  ne := List.cons_ne_nil _ _
  noSlash := fun h => absurd (List.eq_of_mem_replicate h) (by decide)

/-- A default folder of 131 characters overruns `game_enum_path`; a directory of 126 letters
in the root overruns `path`; and out of a directory of "/a//", B goes to "/a/". -/
theorem long_folder_overruns :
    ¬ NavOk (Nav.start (.ofDefault (slash :: List.replicate 130 97))) ∧
      ¬ NavOk (Steps.run navStep (Nav.start (.ofDefault (cstr "/"))) [.enter (letters 125) true]) ∧
      (Nav.start (.ofDefault (cstr "/a//"))).path = cstr "/a//" ∧
      (Steps.run navStep (Nav.start (.ofDefault (cstr "/a//"))) [.enter (letters 0) true, .back true]).path =
        cstr "/a/" := by
  refine ⟨fun h => ?_, fun h => ?_, by decide +kernel, by decide +kernel⟩
  · exact absurd h.fits (by decide +kernel)
  · exact absurd h.fits (by decide +kernel)

end Cubiboot
