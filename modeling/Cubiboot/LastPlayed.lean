import Cubiboot.RecentList
import Cubiboot.KeptList
import Cubiboot.Pending

/-
  The last game played, on a cold boot: the folder the menu opens in, the scan of that
  folder that is armed, and the entry it is matched with.

  The folder is cut out of the path at a slash (`gm_last_played_folder`), the slash kept
  when the folder is compared with the one scanned (`gm_arm_last_played`), and the whole
  path compared with the entries' (`gm_match_last_played`). An app's path counts as its
  folder's entry; what makes it one is that a banner opens beside it.

  A `Volume` is what the files are: what opens, whatever the case of its name, and what
  each folder holds, no two names of which differ only in case.

  What is proved:
    1. `run_gmFileExists`, `run_gmDirIsApp` — the probes on a volume.
    2. `completeScan_paths` — every entry of a scan is a file of the folder, or the
       `default.dol` of an app in it.
    3. `recentFolder_accepted` — a file that is listed in the folder cut out of its path
       is in the folder the path is compared with.
    4. `completeScan_one` — no two entries have the same path.
    5. `last_played_found` — hence over every run of the worker from a cold boot the
       folder is the one scanned, the scan is armed, and the slot published is the file's.

  Correspondence (C ↔ Lean):
    `gm_last_played_folder`       ↔ `gmLastPlayedFolder`
    `gm_recent_entry_slash`       ↔ `gmRecentEntryFolder`
    `gm_dir_is_app`, `gm_file_exists` ↔ `gmDirIsApp`, `gmFileExists`
    `gm_arm_last_played`          ↔ `gmArmLastPlayed`
    `gm_match_last_played`        ↔ `gmMatchLastPlayed`
    `gm_thread_worker`            ↔ `workerStep`
-/

set_option autoImplicit false

namespace Cubiboot

/-! ## The card -/

/-- `recent` is the file of the recent list; `isFile` and `opens` say what opens. -/
structure Volume where
  isFile : Path → Bool
  opens : Path → Bool
  directory : Path → Directory
  info : PathEntry → FoundGame
  recent : RecentFile
  defaultFolder : Path
  /-- A name is looked up whatever its case. -/
  caseless : ∀ p q, strcasecmpEq p q = true → isFile p = isFile q
  /-- No two names of a folder differ only in case. -/
  distinct : ∀ folder, (directory folder).entries.Pairwise fun a b => strcasecmpEq a.name.name b.name.name = false

namespace Volume
variable (v : Volume)

/-- The answers to a probe: what opens can be looked at and closed again. -/
def answer : (q : FileReq) → Unit → FileAns q × Unit
  | .openFile path, s => (if v.isFile path then 0 else 1, s)
  | .status, s => (⟨0, 0⟩, s)
  | .read .., s => (1, s)
  | .close, s => ((), s)
  | .clear .., s => ((), s)
  | .load .., s => (0, s)

def appDol (e : PathEntry) : Option Path := ((gmDirIsApp e.path).run v.answer ()).1

/-- What both reads of the recent list find. -/
def lastPlayed : Option Path := gmReadLastPlayed v.recent maxFileName

/-- Whether `gm_recent_entry_slash` finds a banner beside the path. -/
def appBanner : Bool :=
  match v.lastPlayed with
  | none => false
  | some path => ((gmFileExists (gmAppBannerPath path)).run v.answer ()).1

/-- What the cold boot reads, with `remember_last_game` set. -/
def coldBoot : ColdBoot := ⟨true, v.lastPlayed, v.appBanner, v.defaultFolder, v.opens⟩

/-- What `gm_list_files` makes of a folder; nothing where a path does not fit. -/
def listing (folder : Path) : List PathEntry := ((gmListFiles folder (v.directory folder)).map PathList.paths).getD []

def card : FixedCard where
  coldBootFolder := ((gmLastPlayedFolder v.coldBoot).getD none).getD (resolveDefaultFolder v.coldBoot)
  listing := v.listing
  info := v.info
  appDol := v.appDol

/-- What the worker's next step is told is what the volume holds. -/
def Tells (g : Games) (a : WorkerAnswer) : Prop :=
  v.card.Tells g a ∧ a.lastPlayed = v.lastPlayed ∧ a.appBanner = v.appBanner

end Volume

/-! ## Paths, whatever their case -/

theorem myTolower_eq_slash (c : UInt8) : myTolower c = slash ↔ c = slash := by
  rw [myTolower]
  split
  · rename_i h
    refine iff_of_false (fun heq => ?_) fun heq => ?_
    · have hn := congrArg UInt8.toNat heq
      have hlo : 64 < c.toNat := h.1
      have hhi : c.toNat < 91 := h.2
      rw [UInt8.toNat_add] at hn
      simp only [slash, UInt8.reduceToNat] at hn
      omega
    · rw [heq] at h
      exact absurd h.1 (by decide)
  · exact Iff.rfl

theorem uptoSlash_tolower (p : Path) : uptoSlash (p.map myTolower) = (uptoSlash p).map myTolower := by
  have hslash : (fun c => decide (c ≠ slash)) ∘ myTolower = fun c => decide (c ≠ slash) := by
    funext c
    simp only [Function.comp_apply, ne_eq, myTolower_eq_slash]
  rw [uptoSlash, uptoSlash, ← List.map_reverse, List.dropWhile_map, hslash, List.map_reverse]

theorem strcasecmpEq_upto {a b : Path} (h : strcasecmpEq a b = true) :
    strcasecmpEq (uptoSlash a) (uptoSlash b) = true := by
  rw [strcasecmpEq_iff] at h ⊢
  rw [← uptoSlash_tolower, ← uptoSlash_tolower, h]

theorem strcasecmpEq_append (f a b : Path) : strcasecmpEq (f ++ a) (f ++ b) = strcasecmpEq a b := by
  rw [strcasecmpEq, strcasecmpEq, List.map_append, List.map_append]
  exact decide_eq_decide.mpr (List.append_right_inj _)

theorem strcasecmpEq_append_right (a b s : Path) : strcasecmpEq (a ++ s) (b ++ s) = strcasecmpEq a b := by
  rw [strcasecmpEq, strcasecmpEq, List.map_append, List.map_append]
  exact decide_eq_decide.mpr (List.append_left_inj _)

/-- A name behind a folder's slash. -/
theorem uptoSlash_folder {folder name : Path} (hfolder : folder.getLast? = some slash) (hname : slash ∉ name) :
    uptoSlash (folder ++ name) = folder := by
  obtain ⟨q, rfl⟩ := List.getLast?_eq_some_iff.mp hfolder
  rw [List.append_assoc]
  exact uptoSlash_append q hname

theorem dirPart_eq (path : Path) : dirPart path = (uptoSlash path).dropLast := by
  rw [dirPart, uptoSlash, List.dropLast_reverse, List.drop_one]

/-! ## The probes -/

namespace Volume
variable (v : Volume)

@[simp] theorem run_gmFileExists (path : Path) : (gmFileExists path).run v.answer () = (v.isFile path, ()) := by
  have hopen : (dvdCustomOpen path).run v.answer () = (if v.isFile path then 0 else 1, ()) := rfl
  rw [gmFileExists, Dialogue.run_bind, hopen]
  cases v.isFile path with
  | true => rfl
  | false => rfl

/-- The folder and the two files in it, as far as their paths fit. -/
theorem run_gmDirIsApp (dir : Path) : ((gmDirIsApp dir).run v.answer ()).1 =
    if ((dir ++ appBannerName).length < gmPathMax ∧ v.isFile (dir ++ appBannerName) = true) ∧
      (dir ++ appDolName).length < gmPathMax ∧ v.isFile (dir ++ appDolName) = true
    then some (dir ++ appDolName) else none := by
  simp only [gmDirIsApp]
  by_cases hbanner : gmPathMax ≤ (dir ++ appBannerName).length
  · rw [if_pos hbanner]
    exact (if_neg fun h => absurd h.1.1 (Nat.not_lt.mpr hbanner)).symm
  · rw [if_neg hbanner, Dialogue.run_bind, run_gmFileExists]
    cases hb : v.isFile (dir ++ appBannerName) with
    | false => exact (if_neg fun h => absurd h.1.2 Bool.false_ne_true).symm
    | true =>
      simp only [Bool.not_true, Bool.false_eq_true, if_false]
      by_cases hdol : gmPathMax ≤ (dir ++ appDolName).length
      · rw [if_pos hdol]
        exact (if_neg fun h => absurd h.2.1 (Nat.not_lt.mpr hdol)).symm
      · rw [if_neg hdol, Dialogue.run_bind, run_gmFileExists]
        cases v.isFile (dir ++ appDolName) with
        | false => exact (if_neg fun h => absurd h.2.2 Bool.false_ne_true).symm
        | true => exact (if_pos ⟨⟨Nat.not_le.mp hbanner, trivial⟩, Nat.not_le.mp hdol, rfl⟩).symm

theorem appDol_some {e : PathEntry} {dol : Path} (h : v.appDol e = some dol) :
    dol = e.path ++ appDolName ∧ v.isFile (e.path ++ appBannerName) = true := by
  rw [appDol, run_gmDirIsApp] at h
  split at h
  · rename_i hfits
    exact ⟨(Option.some.inj h).symm, hfits.1.2⟩
  · cases h

/-! ## What a scan of a folder lists -/

/-- The entry of the file `name` of a folder, or of the app of that name in it. -/
def Named (folder name : Path) (x : FileEntry) : Prop :=
  x.path = folder ++ name ∨
    (x.path = folder ++ name ++ appDolName ∧ v.isFile (folder ++ name ++ appBannerName) = true)

theorem entry_named {folder name : Path} {e : PathEntry} {x : FileEntry} (hx : v.card.entry e = some x)
    (he : e.path = folder ++ name) : v.Named folder name x := by
  have hdol : ∀ dol, v.appDol e = some dol → dol = folder ++ name ++ appDolName ∧
      v.isFile (folder ++ name ++ appBannerName) = true := by
    intro dol h
    rw [← he]
    exact v.appDol_some h
  rw [FixedCard.entry, newEntry] at hx
  cases ht : e.type with
  | game =>
    simp only [ht] at hx
    split at hx
    · rw [← Option.some.inj hx]
      exact .inl he
    · cases hx
  | directory =>
    simp only [ht] at hx
    cases happ : v.card.appDol e with
    | none =>
      rw [happ] at hx
      rw [← Option.some.inj hx]
      exact .inl he
    | some dol =>
      rw [happ] at hx
      rw [← Option.some.inj hx]
      exact .inr (hdol dol happ)
  | program =>
    simp only [ht] at hx
    rw [← Option.some.inj hx]
    exact .inl he
  | unknown | app => simp only [ht, reduceCtorEq] at hx

/-- The names a folder is listed with. -/
theorem listing_names (folder : Path) : ∃ es : List FileEntryT, es.Sublist (v.directory folder).entries ∧
    v.listing folder = es.map (·.pathEntry folder) := by
  rw [listing]
  cases hl : gmListFiles folder (v.directory folder) with
  | none => exact ⟨[], List.nil_sublist _, rfl⟩
  | some l =>
    rw [gmListFiles_listing hl]
    refine ⟨(v.directory folder).listable.take maxPaths, ?_, ?_⟩
    · exact (List.take_sublist _ _).trans List.filter_sublist
    · exact List.map_take.symm

/-- Two paths of a folder, told apart by their names. -/
def Apart (folder : Path) (a b : PathEntry) : Prop :=
  (∃ n m, a.path = folder ++ n ∧ b.path = folder ++ m ∧ slash ∉ n ∧ slash ∉ m) ∧ strcasecmpEq a.path b.path = false

theorem Apart.symm {folder : Path} {a b : PathEntry} (h : Apart folder a b) : Apart folder b a := by
  obtain ⟨⟨n, m, ha, hb, hn, hm⟩, hne⟩ := h
  refine ⟨⟨m, n, hb, ha, hm, hn⟩, ?_⟩
  rw [← hne, strcasecmpEq, strcasecmpEq]
  exact decide_eq_decide.mpr eq_comm

theorem paths_apart (folder : Path) : (v.card.paths folder).Pairwise (Apart folder) := by
  obtain ⟨es, hsub, hlisting⟩ := v.listing_names folder
  have hlist : (v.listing folder).Pairwise (Apart folder) := by
    rw [hlisting, List.pairwise_map]
    refine ((v.distinct folder).sublist hsub).imp fun {a b} h => ?_
    exact ⟨⟨a.name.name, b.name.name, rfl, rfl, a.name.noSlash, b.name.noSlash⟩,
      (strcasecmpEq_append folder a.name.name b.name.name).trans h⟩
  have hperm := List.perm_insertionSort gmCmpPathEntry ((v.listing folder).take maxPaths)
  exact (hperm.pairwise_iff fun h => h.symm).mpr (hlist.sublist (List.take_sublist _ _))

theorem paths_named {folder : Path} {e : PathEntry} (he : e ∈ v.card.paths folder) :
    ∃ name, slash ∉ name ∧ e.path = folder ++ name := by
  obtain ⟨es, -, hlisting⟩ := v.listing_names folder
  have hmem := List.mem_of_mem_take ((List.mem_insertionSort gmCmpPathEntry).mp he)
  have hin : e ∈ v.listing folder := hmem
  rw [hlisting] at hin
  obtain ⟨ent, -, rfl⟩ := List.mem_map.mp hin
  exact ⟨ent.name.name, ent.name.noSlash, rfl⟩

end Volume

/-! ## The last-played files of a list -/

/-- Which entries of a list are the last-played file. -/
def marks (lastPlayed : Path) (es : List FileEntry) : List Bool := es.map (FileEntry.isLastPlayed lastPlayed)

theorem marks_sameList {es es' : List FileEntry} (h : SameList es es') (lastPlayed : Path) :
    marks lastPlayed es = marks lastPlayed es' := by
  have hbare : ∀ e : FileEntry, e.bare.isLastPlayed lastPlayed = e.isLastPlayed lastPlayed := by
    intro e
    rw [FileEntry.bare]
    split <;> rfl
  have hmarks : ∀ es : List FileEntry,
      marks lastPlayed es = (es.map FileEntry.bare).map (FileEntry.isLastPlayed lastPlayed) := by
    intro es
    rw [marks, List.map_map]
    exact List.map_congr_left fun e _ => (hbare e).symm
  have hsame : es.map FileEntry.bare = es'.map FileEntry.bare := h
  rw [hmarks, hmarks, hsame]

theorem marks_multiDisc (lastPlayed : Path) (es : List FileEntry) :
    marks lastPlayed (gmFindMultiDisc es) = marks lastPlayed es := by
  have hmarks : ∀ es : List FileEntry,
      marks lastPlayed es = (es.map FileEntry.unpaired).map (FileEntry.isLastPlayed lastPlayed) := by
    intro es
    rw [marks, List.map_map]
    rfl
  rw [hmarks, hmarks, gmFindMultiDisc_unpaired]

/-- The search in a list that has the file, and has it once. -/
theorem gmMatchLastPlayed_one {es : List FileEntry} {lastPlayed : Path} (hmem : true ∈ marks lastPlayed es)
    (hone : (marks lastPlayed es).Pairwise fun a b => ¬ (a = true ∧ b = true)) :
    (∃ e, es[gmMatchLastPlayed es lastPlayed]? = some e ∧ e.isLastPlayed lastPlayed = true) ∧
      ∀ (j : Nat) (e : FileEntry), es[j]? = some e → e.isLastPlayed lastPlayed = true →
        j = gmMatchLastPlayed es lastPlayed := by
  have hfound : ∃ e, es[gmMatchLastPlayed es lastPlayed]? = some e ∧ e.isLastPlayed lastPlayed = true := by
    obtain hfound | ⟨-, hnone⟩ := gmMatchLastPlayed_spec es lastPlayed
    · exact hfound
    · obtain ⟨e, he, htrue⟩ := List.mem_map.mp hmem
      rw [hnone e he] at htrue
      cases htrue
  refine ⟨hfound, fun j e' he' htrue' => ?_⟩
  obtain ⟨e, he, htrue⟩ := hfound
  have hmark : ∀ {i : Nat} {e : FileEntry}, es[i]? = some e → e.isLastPlayed lastPlayed = true →
      ∃ h : i < (marks lastPlayed es).length, (marks lastPlayed es)[i] = true := by
    intro i e hi htrue
    obtain ⟨hlt, rfl⟩ := List.getElem?_eq_some_iff.mp hi
    refine ⟨by rw [marks, List.length_map]; exact hlt, ?_⟩
    simp only [marks, List.getElem_map]
    exact htrue
  obtain ⟨hk, hktrue⟩ := hmark he htrue
  obtain ⟨hj, hjtrue⟩ := hmark he' htrue'
  rw [List.pairwise_iff_getElem] at hone
  obtain hlt | heq | hlt := Nat.lt_trichotomy j (gmMatchLastPlayed es lastPlayed)
  · exact absurd ⟨hjtrue, hktrue⟩ (hone _ _ hj hk hlt)
  · exact heq
  · exact absurd ⟨hktrue, hjtrue⟩ (hone _ _ hk hj hlt)

theorem uptoSlash_app (q : Path) : uptoSlash (q ++ appDolName) = q ++ [slash] := by
  have hsplit : appDolName = slash :: cstr "default.dol" := by decide +kernel
  rw [hsplit]
  exact uptoSlash_append q (by decide +kernel)

namespace Volume
variable (v : Volume) {folder : Path} (hfolder : folder.getLast? = some slash)
include hfolder

/-- Where the last slash of an entry's path is. -/
theorem Named.upto {v : Volume} {name : Path} {x : FileEntry} (hx : v.Named folder name x) (hname : slash ∉ name) :
    (x.path = folder ++ name ∧ uptoSlash x.path = folder) ∨
      (x.path = folder ++ name ++ appDolName ∧ uptoSlash x.path = folder ++ name ++ [slash] ∧
        v.isFile (folder ++ name ++ appBannerName) = true) := by
  obtain h | ⟨h, hbanner⟩ := hx
  · rw [h]
    exact .inl ⟨rfl, uptoSlash_folder hfolder hname⟩
  · rw [h]
    exact .inr ⟨rfl, uptoSlash_app _, hbanner⟩

theorem named_apart {v : Volume} {n m : Path} {x y : FileEntry} (hx : v.Named folder n x) (hy : v.Named folder m y)
    (hn : slash ∉ n) (hm : slash ∉ m) (hxy : strcasecmpEq x.path y.path = true) :
    strcasecmpEq (folder ++ n) (folder ++ m) = true := by
  have hlen := strcasecmpEq_length (strcasecmpEq_upto hxy)
  obtain ⟨hxp, hxu⟩ | ⟨hxp, hxu, -⟩ := hx.upto hfolder hn
  · obtain ⟨hyp, -⟩ | ⟨-, hyu, -⟩ := hy.upto hfolder hm
    · rwa [hxp, hyp] at hxy
    · -- the last slash of one is further on than the other's
      rw [hxu, hyu, List.length_append, List.length_append, List.length_singleton] at hlen
      omega
  · obtain ⟨-, hyu⟩ | ⟨hyp, -, -⟩ := hy.upto hfolder hm
    · rw [hxu, hyu, List.length_append, List.length_append, List.length_singleton] at hlen
      omega
    · rw [hxp, hyp] at hxy
      exact (strcasecmpEq_append_right (folder ++ n) (folder ++ m) appDolName).symm.trans hxy

/-- No two entries of a scan have the same path. -/
theorem completeScan_one (lastPlayed : Path) :
    (marks lastPlayed (v.card.completeScan folder)).Pairwise fun a b => ¬ (a = true ∧ b = true) := by
  rw [FixedCard.completeScan, marks_multiDisc, marks, List.pairwise_map, List.pairwise_filterMap]
  refine (v.paths_apart folder).imp fun {a b} h x hx y hy => ?_
  obtain ⟨⟨n, m, ha, hb, hn, hm⟩, hne⟩ := h
  rintro ⟨hxp, hyp⟩
  rw [FileEntry.isLastPlayed, Bool.and_eq_true, strcasecmpEq_iff] at hxp hyp
  have hxy : strcasecmpEq x.path y.path = true := strcasecmpEq_iff.mpr (hxp.2.trans hyp.2.symm)
  have hsame := named_apart hfolder (v.entry_named hx ha) (v.entry_named hy hb) hn hm hxy
  rw [← ha, ← hb, hne] at hsame
  cases hsame

end Volume

/-! ## The folder of a path -/

theorem strcasecmpEq_symm {a b : Path} (h : strcasecmpEq a b = true) : strcasecmpEq b a = true := by
  rw [strcasecmpEq_iff] at h ⊢
  exact h.symm

theorem strcasecmpEq_dropLast {a b : Path} (h : strcasecmpEq a b = true) :
    strcasecmpEq a.dropLast b.dropLast = true := by
  rw [strcasecmpEq_iff] at h ⊢
  rw [List.map_dropLast, List.map_dropLast, h]

/-- The folder is the one the file is in; or for an app's `default.dol` the one above. -/
theorem gmRecentEntryFolder_cases {appBanner : Bool} {path folder : Path}
    (h : gmRecentEntryFolder appBanner path = some folder) :
    (folder = uptoSlash path ∧
      (namesAppDol path → appBanner = true → uptoSlash (uptoSlash path).dropLast = [])) ∨
    (folder = uptoSlash (uptoSlash path).dropLast ∧ folder ≠ [] ∧ uptoSlash path ≠ []) := by
  simp only [gmRecentEntryFolder] at h
  split at h
  · cases h
  · rename_i hsome
    split at h
    · rename_i hother
      refine .inl ⟨(Option.some.inj h).symm, fun hnames => ?_⟩
      rw [hnames.2] at hother
      cases hother
    · split at h
      · rename_i hnone
        refine .inl ⟨(Option.some.inj h).symm, fun _ hbanner => ?_⟩
        rw [hbanner] at hnone
        cases hnone
      · split at h
        · rename_i houter
          exact .inl ⟨(Option.some.inj h).symm, fun _ _ => houter⟩
        · rename_i houter
          obtain rfl := Option.some.inj h
          exact .inr ⟨rfl, houter, hsome⟩

theorem uptoSlash_length_le (path : Path) : (uptoSlash path).length ≤ path.length := by
  have h := (List.dropWhile_suffix (fun c => decide (c ≠ slash)) (l := path.reverse)).length_le
  rw [uptoSlash, List.length_reverse]
  exact h.trans_eq List.length_reverse

/-- The folder opened and scanned is no longer than the one cut out of the path. -/
theorem scanned_length_le {folder : Path} (h : folder ≠ []) : (withSlash (cutFolder folder)).length ≤ folder.length := by
  rw [cutFolder]
  split
  · rename_i hroot
    rw [hroot]
    exact Nat.le_refl _
  · have hlen := withSlash_length_le folder.dropLast
    have hpos := List.length_pos_of_ne_nil h
    rw [List.length_dropLast] at hlen
    omega

/-- A path with an app's ending. -/
theorem namesAppDol_of_app {q path : Path} (h : strcasecmpEq (q ++ appDolName) path = true) : namesAppDol path := by
  have hlen := strcasecmpEq_length (strcasecmpEq_upto h)
  rw [uptoSlash_app, List.length_append, List.length_singleton] at hlen
  refine ⟨fun hnil => ?_, ?_⟩
  · rw [hnil, List.length_nil] at hlen
    omega
  · have hdrop : (uptoSlash path).length - 1 = (q.map myTolower).length := by
      rw [List.length_map]
      omega
    rw [strcasecmpEq_iff] at h ⊢
    rw [hdrop, List.map_drop, ← h, List.map_append, List.drop_left]

namespace Volume
variable {v : Volume} {path folder : Path}

/-- Beside an app's path its banner opens. -/
theorem appBanner_of_app (hlast : v.lastPlayed = some path) {q : Path}
    (hbanner : v.isFile (q ++ appBannerName) = true) (h : strcasecmpEq (q ++ appDolName) path = true) :
    v.appBanner = true := by
  have hdir := strcasecmpEq_dropLast (strcasecmpEq_upto h)
  rw [uptoSlash_app, List.dropLast_concat] at hdir
  have hbeside : strcasecmpEq (q ++ appBannerName) (gmAppBannerPath path) = true := by
    rw [gmAppBannerPath, dirPart_eq, strcasecmpEq_append_right]
    exact hdir
  rw [appBanner, hlast]
  simp only [run_gmFileExists]
  rw [← v.caseless _ _ hbeside, hbanner]

/-- A file listed in the folder that is opened for it is in the folder its path is compared with. -/
theorem recentFolder_accepted (hlast : v.lastPlayed = some path)
    (hfolder : gmRecentEntryFolder v.appBanner path = some folder) {name : Path} {x : FileEntry}
    (hx : v.Named (withSlash (cutFolder folder)) name x) (hname : slash ∉ name)
    (hpath : strcasecmpEq x.path path = true) : strcasecmpEq folder (withSlash (cutFolder folder)) = true := by
  have hslash := withSlash_last (cutFolder folder)
  have hup := strcasecmpEq_upto hpath
  obtain ⟨hsame, hwhy⟩ | ⟨houter, hne, hsome⟩ := gmRecentEntryFolder_cases hfolder
  · obtain ⟨-, hxu⟩ | ⟨hxp, -, hbanner⟩ := hx.upto hslash hname
    · rw [hxu] at hup
      rw [← hsame] at hup
      exact strcasecmpEq_symm hup
    · -- an app's file is not looked for in its own folder
      rw [hxp] at hpath
      have hnil := hwhy (namesAppDol_of_app hpath) (appBanner_of_app hlast hbanner hpath)
      have hdir := strcasecmpEq_upto (strcasecmpEq_dropLast (strcasecmpEq_upto hpath))
      rw [uptoSlash_app, List.dropLast_concat, uptoSlash_folder hslash hname, hnil] at hdir
      have hzero := strcasecmpEq_length hdir
      rw [List.length_nil, List.length_eq_zero_iff] at hzero
      rw [hzero] at hslash
      cases hslash
  · obtain ⟨-, hxu⟩ | ⟨hxp, -, -⟩ := hx.upto hslash hname
    · -- the folder above is shorter than the one the file would be in
      rw [hxu] at hup
      have hlen := strcasecmpEq_length hup
      have hscan := scanned_length_le hne
      have hshort := uptoSlash_length_le (uptoSlash path).dropLast
      have hpos := List.length_pos_of_ne_nil hsome
      rw [← houter, List.length_dropLast] at hshort
      omega
    · rw [hxp] at hpath
      have hdir := strcasecmpEq_upto (strcasecmpEq_dropLast (strcasecmpEq_upto hpath))
      rw [uptoSlash_app, List.dropLast_concat, uptoSlash_folder hslash hname, ← houter] at hdir
      exact strcasecmpEq_symm hdir

end Volume

/-! ## The scan of a cold boot -/

/-- What holds wherever the worker is in it: `scanned` is the folder it scans. -/
structure ColdScan (v : Volume) (path scanned : Path) (g : Games) : Prop where
  list : v.card.ListInv g
  whole : g.scanStopped = false
  resolve : g.worker = .begin → g.coldBootResolve = true
  folder : g.worker ≠ .begin → g.enumPath = scanned
  before : g.worker.early = true → g.rememberLastGame = true ∧ g.consumed = false
  armed : g.worker.early = false → g.scanIsLastPlayed = true ∧ g.lastPlayedPath = path
  slot : g.worker.searched = true → 0 ≤ g.pending
  belongs : 0 ≤ g.pending → SlotBelongs g
  complete : g.worker = .idle → g.scanComplete = true

section
variable {v : Volume} {path scanned : Path} {g : Games} {a : WorkerAnswer}

/-- A step past the arming: the flags and the path stay. -/
theorem ColdScan.going {g' : Games} (h : ColdScan v path scanned g) (ht : v.Tells g a) (hlate : g.worker.early = false)
    (hstep : workerStep false g a = g') (hlate' : g'.worker.early = false) (hstop : g'.scanStopped = g.scanStopped)
    (hpath : g'.enumPath = g.enumPath)
    (harmed : g'.scanIsLastPlayed = g.scanIsLastPlayed ∧ g'.lastPlayedPath = g.lastPlayedPath)
    (hslot : g'.worker.searched = false ∨ 0 ≤ g'.pending)
    (hcomplete : g'.worker ≠ .idle ∨ g'.scanComplete = true) :
    ColdScan v path scanned (workerStep false g a) where
  list := workerStep_listInv v.card false g a h.list ht.1
  whole := by
    rw [hstep, hstop]
    exact h.whole
  resolve := by
    intro hb
    rw [← hstep, hb] at hlate'
    cases hlate'
  folder := by
    intro _
    rw [hstep, hpath]
    refine h.folder fun hb => ?_
    rw [hb] at hlate
    cases hlate
  before := by
    intro he
    rw [hstep, hlate'] at he
    cases he
  armed := by
    intro _
    rw [hstep, harmed.1, harmed.2]
    exact h.armed hlate
  slot := by
    intro hsearched
    rw [hstep] at hsearched ⊢
    apply hslot.resolve_left
    rw [hsearched]
    exact Bool.noConfusion
  belongs := workerStep_belongs false g a h.belongs
  complete := by
    intro hidle
    rw [hstep] at hidle ⊢
    exact hcomplete.resolve_left fun hne => hne hidle

/-- The folder is worked out on the first scan. -/
theorem ColdScan.step_begin (hcold : withSlash v.card.coldBootFolder = scanned) (h : ColdScan v path scanned g)
    (ht : v.Tells g a) (hw : g.worker = .begin) : ColdScan v path scanned (workerStep false g a) := by
  have hlist := workerStep_listInv v.card false g a h.list ht.1
  have hbelongs := workerStep_belongs false g a h.belongs
  have hresolve := h.resolve hw
  have hbefore := h.before (by rw [hw]; rfl)
  have htold := ht.1
  simp only [FixedCard.Tells, hw] at htold
  refine ⟨hlist, ?_, ?_, ?_, ?_, ?_, ?_, hbelongs, ?_⟩
  all_goals simp only [workerStep, hw, hresolve, if_true, htold, hcold, WorkerPc.early, WorkerPc.searched,
    reduceCtorEq, false_implies, true_implies, Bool.true_eq_false, ne_eq, not_false_eq_true]
  exact hbefore

theorem ColdScan.step_list (h : ColdScan v path scanned g) (ht : v.Tells g a) (hw : g.worker = .list) :
    ColdScan v path scanned (workerStep false g a) := by
  have hlist := workerStep_listInv v.card false g a h.list ht.1
  have hbelongs := workerStep_belongs false g a h.belongs
  have hpath := h.folder (by rw [hw]; exact WorkerPc.noConfusion)
  have hbefore := h.before (by rw [hw]; rfl)
  refine ⟨hlist, ?_, ?_, ?_, ?_, ?_, ?_, hbelongs, ?_⟩
  all_goals simp only [workerStep, hw, WorkerPc.early, WorkerPc.searched, reduceCtorEq, false_implies,
    true_implies, Bool.true_eq_false, Bool.false_eq_true, ne_eq, not_false_eq_true]
  · exact h.whole
  · exact hpath
  · exact hbefore

/-- The comparison that arms the scan. -/
theorem ColdScan.step_arm (hlast : v.lastPlayed = some path) {folder : Path}
    (hfolder : gmRecentEntryFolder v.appBanner path = some folder) (haccept : strcasecmpEq folder scanned = true)
    (h : ColdScan v path scanned g) (ht : v.Tells g a) {listing : List PathEntry} (hw : g.worker = .arm listing) :
    ColdScan v path scanned (workerStep false g a) := by
  have hlist := workerStep_listInv v.card false g a h.list ht.1
  have hbelongs := workerStep_belongs false g a h.belongs
  have hpath := h.folder (by rw [hw]; exact WorkerPc.noConfusion)
  obtain ⟨hremember, hconsumed⟩ := h.before (by rw [hw]; rfl)
  have harm : gmArmLastPlayed a g =
      { g with consumed := true, lastPlayedPath := path, scanIsLastPlayed := true } := by
    simp only [gmArmLastPlayed, hremember, hconsumed, ht.2.1, ht.2.2, hlast, hfolder, hpath, haccept, Bool.not_true,
      Bool.or_false, Bool.false_eq_true, if_false]
  have hstep : workerStep false g a =
      { g with
        consumed := true
        lastPlayedPath := path
        scanIsLastPlayed := true
        ld := { g.ld with evictOnScroll := false }
        worker := .poll (gmSortFiles listing) } := by
    simp only [workerStep, hw, harm]
  rw [hstep] at hlist hbelongs ⊢
  refine ⟨hlist, h.whole, ?_, fun _ => hpath, ?_, fun _ => ⟨rfl, rfl⟩, ?_, hbelongs, ?_⟩
  all_goals
    intro hearly
    cases hearly

theorem ColdScan.step_checkPath (h : ColdScan v path scanned g) (ht : v.Tells g a) {e : PathEntry}
    {rest : List PathEntry} (hw : g.worker = .checkPath e rest) : ColdScan v path scanned (workerStep false g a) := by
  have hlate : g.worker.early = false := by rw [hw]; rfl
  have hnext : ∀ {c : Prop} [Decidable c], (if c then WorkerPc.poll rest else .publish rest).early = false ∧
      (if c then WorkerPc.poll rest else .publish rest).searched = false := by
    intro c _
    split <;> exact ⟨rfl, rfl⟩
  have hstep : workerStep false g a =
      { g with
        ld := gmCheckFile g.ld g.scanIsLastPlayed e a.check
        worker := if e.type = .game ∧ newEntry e a.check = none then .poll rest else .publish rest } := by
    simp only [workerStep, hw]
  refine h.going ht hlate hstep hnext.1 rfl rfl ⟨rfl, rfl⟩ (.inl hnext.2) (.inl ?_)
  dsimp only
  split <;> exact WorkerPc.noConfusion

/-- The search: a slot once published stays so. -/
theorem ColdScan.step_background (h : ColdScan v path scanned g) (ht : v.Tells g a) {pc : BgPc}
    (hw : g.worker = .background pc) : ColdScan v path scanned (workerStep false g a) := by
  have hlate : g.worker.early = false := by rw [hw]; rfl
  obtain ⟨rfl, heq⟩ | ⟨hheld, -⟩ | heq := workerStep_background false a hw
  · exact h.going ht hlate heq rfl rfl rfl ⟨rfl, rfl⟩ (.inr (h.slot (by rw [hw]; rfl))) (.inl WorkerPc.noConfusion)
  · cases hheld
  · refine h.going ht hlate heq rfl rfl rfl ⟨rfl, rfl⟩ (.inr ?_) (.inl WorkerPc.noConfusion)
    by_cases hpc : pc = .matchSlot
    · rw [hpc]
      exact Int.natCast_nonneg _
    · have hkeeps := (bgWorker_keeps a.fetch (g.bgState pc)).pending hpc
      refine (h.slot ?_).trans hkeeps.ge
      rw [hw]
      cases pc with
      | matchSlot => exact absurd rfl hpc
      | readSlot | window | fill | done => rfl

theorem workerStep_coldScan (hcold : withSlash v.card.coldBootFolder = scanned) (hlast : v.lastPlayed = some path)
    {folder : Path} (hfolder : gmRecentEntryFolder v.appBanner path = some folder)
    (haccept : strcasecmpEq folder scanned = true) (h : ColdScan v path scanned g) (ht : v.Tells g a) :
    ColdScan v path scanned (workerStep false g a) := by
  cases hw : g.worker with
  | idle =>
    have hsame : workerStep false g a = g := by simp only [workerStep, hw]
    rw [hsame]
    exact h
  | begin => exact h.step_begin hcold ht hw
  | list => exact h.step_list ht hw
  | arm listing => exact h.step_arm hlast hfolder haccept ht hw
  | poll rest =>
    have hlate : g.worker.early = false := by rw [hw]; rfl
    obtain ⟨-, heq⟩ | ⟨hheld, -⟩ | ⟨e, rest', -, heq⟩ := workerStep_poll false a hw
    · exact h.going ht hlate heq rfl rfl rfl ⟨rfl, rfl⟩ (.inl rfl) (.inl WorkerPc.noConfusion)
    · cases hheld
    · exact h.going ht hlate heq rfl rfl rfl ⟨rfl, rfl⟩ (.inl rfl) (.inl WorkerPc.noConfusion)
  | checkPath e rest => exact h.step_checkPath ht hw
  | publish rest =>
    have hlate : g.worker.early = false := by rw [hw]; rfl
    have hstep : workerStep false g a = { g with backingCount := g.ld.entries.length, worker := .poll rest } := by
      simp only [workerStep, hw]
    exact h.going ht hlate hstep rfl rfl rfl ⟨rfl, rfl⟩ (.inl rfl) (.inl WorkerPc.noConfusion)
  | pair =>
    have hlate : g.worker.early = false := by rw [hw]; rfl
    have hstep : workerStep false g a =
        { g with ld := { g.ld with entries := gmFindMultiDisc g.ld.entries }, worker := .setupGrid } := by
      simp only [workerStep, hw]
    exact h.going ht hlate hstep rfl rfl rfl ⟨rfl, rfl⟩ (.inl rfl) (.inl WorkerPc.noConfusion)
  | setupGrid =>
    -- the scan is armed, so the search comes next
    have hlate : g.worker.early = false := by rw [hw]; rfl
    have hstep : workerStep false g a =
        { g with
          grid := gmSetupGrid g.gridType g.ld.entries.length false g.grid
          worker := .background .matchSlot } := by
      simp only [workerStep, hw, (h.armed hlate).1, if_true]
    exact h.going ht hlate hstep rfl rfl rfl ⟨rfl, rfl⟩ (.inl rfl) (.inl WorkerPc.noConfusion)
  | background pc => exact h.step_background ht hw
  | finish =>
    have hlate : g.worker.early = false := by rw [hw]; rfl
    have hstep : workerStep false g a =
        { g with scanComplete := !g.scanStopped, running := false, worker := .idle } := by
      simp only [workerStep, hw]
    refine h.going ht hlate hstep rfl rfl rfl ⟨rfl, rfl⟩ (.inr (h.slot (by rw [hw]; rfl))) (.inr ?_)
    show (!g.scanStopped) = true
    rw [h.whole]
    rfl

end

namespace Volume
variable {v : Volume} {path folder : Path}

theorem appBannerPath_length (h : namesAppDol path) : (gmAppBannerPath path).length = path.length := by
  have hlen := strcasecmpEq_length h.2
  have hpos := List.length_pos_of_ne_nil h.1
  have hnames : appBannerName.length = 12 ∧ appDolName.length = 12 := by decide +kernel
  rw [List.length_drop, hnames.2] at hlen
  rw [gmAppBannerPath, dirPart_eq, List.length_append, List.length_dropLast, hnames.1]
  omega

theorem recentFolder_length {appBanner : Bool} (h : gmRecentEntryFolder appBanner path = some folder) :
    folder ≠ [] ∧ folder.length ≤ path.length := by
  have hup := uptoSlash_length_le path
  obtain ⟨rfl, -⟩ | ⟨rfl, hne, -⟩ := gmRecentEntryFolder_cases h
  · refine ⟨fun hnil => ?_, hup⟩
    simp only [gmRecentEntryFolder, hnil, if_true, reduceCtorEq] at h
  · have hout := uptoSlash_length_le (uptoSlash path).dropLast
    rw [List.length_dropLast] at hout
    exact ⟨hne, by omega⟩

/-- The folder of a path that fits, if it opens. -/
theorem gmLastPlayedFolder_opens (hlast : v.lastPlayed = some path) (hfits : path.length < gmPathMax)
    (hfolder : gmRecentEntryFolder v.appBanner path = some folder) (hopens : v.opens (cutFolder folder) = true) :
    gmLastPlayedFolder v.coldBoot = some (some (cutFolder folder)) := by
  have hroom : ¬ (namesAppDol path ∧ inBuffer gmPathMax (gmAppBannerPath path) = none) := by
    rintro ⟨hnames, hover⟩
    rw [inBuffer_eq_none, appBannerPath_length hnames] at hover
    exact hover hfits
  simp only [gmLastPlayedFolder, coldBoot, Bool.not_true, Bool.false_eq_true, if_false, hlast, if_neg hroom, hfolder,
    Option.map_some, Option.filter_some, hopens, if_true]

theorem coldBootPath_opens (hlast : v.lastPlayed = some path) (hfits : path.length < gmPathMax)
    (hfolder : gmRecentEntryFolder v.appBanner path = some folder) (hopens : v.opens (cutFolder folder) = true) :
    coldBootPath v.coldBoot = some (withSlash (cutFolder folder)) := by
  obtain ⟨hne, hlen⟩ := recentFolder_length hfolder
  have hscan := scanned_length_le hne
  have hcut := length_le_withSlash (cutFolder folder)
  have hmax : gmPathMax = 128 ∧ enumPathLen = 128 := ⟨rfl, rfl⟩
  rw [coldBootPath, gmLastPlayedFolder_opens hlast hfits hfolder hopens]
  simp only [Option.bind_eq_bind, Option.bind_some, Option.getD_some]
  rw [inBuffer_of_lt (by omega), Option.bind_some, inBuffer_of_lt (by omega)]

/-- A scan that lists the file lists it as an entry of the folder, or as an app in it. -/
theorem listed_named (h : ∃ x ∈ v.card.completeScan folder, x.isLastPlayed path = true) :
    true ∈ marks path (v.card.completeScan folder) ∧
      ∃ name x, v.Named folder name x ∧ slash ∉ name ∧ strcasecmpEq x.path path = true := by
  obtain ⟨x, hx, htrue⟩ := h
  have hmark : true ∈ marks path (v.card.completeScan folder) := List.mem_map.mpr ⟨x, hx, htrue⟩
  refine ⟨hmark, ?_⟩
  rw [FixedCard.completeScan, marks_multiDisc] at hmark
  obtain ⟨x, hx, htrue⟩ := List.mem_map.mp hmark
  obtain ⟨e, he, hentry⟩ := List.mem_filterMap.mp hx
  obtain ⟨name, hname, hpath⟩ := v.paths_named he
  rw [FileEntry.isLastPlayed, Bool.and_eq_true] at htrue
  exact ⟨name, x, v.entry_named hentry hpath, hname, htrue.2⟩

end Volume

/-- The slot is that of the last-played file, and no other entry is it. -/
def Games.Selects (g : Games) (path : Path) : Prop :=
  ∃ k : Nat, g.pending = k ∧ (∃ e, g.ld.entries[k]? = some e ∧ e.isLastPlayed path = true) ∧
    ∀ (j : Nat) (e : FileEntry), g.ld.entries[j]? = some e → e.isLastPlayed path = true → j = k

theorem ColdScan.selects {v : Volume} {path scanned : Path} {g : Games} (h : ColdScan v path scanned g)
    (hslash : scanned.getLast? = some slash) (hlisted : true ∈ marks path (v.card.completeScan scanned))
    (hs : g.worker.searched = true) : g.Selects path := by
  have hearly : g.worker.early = false := by
    cases hw : g.worker with
    | begin | list | arm _ => simp [hw, WorkerPc.searched] at hs
    | _ => rfl
  have hfolder := h.folder fun hb => by simp [hb, WorkerPc.searched] at hs
  have hscan := h.list.scan
  have hsame : SameList g.ld.entries (v.card.completeScan scanned) := by
    rw [← hfolder]
    cases hw : g.worker with
    | idle =>
      simp only [FixedCard.ScanAt, hw] at hscan
      exact hscan (h.complete hw) (hfolder ▸ hslash)
    | background pc =>
      simp only [FixedCard.ScanAt, hw] at hscan
      exact hscan h.whole
    | finish =>
      simp only [FixedCard.ScanAt, hw] at hscan
      exact hscan h.whole
    | _ => simp [hw, WorkerPc.searched] at hs
  have hmarks := marks_sameList hsame path
  have hone := v.completeScan_one hslash path
  rw [← hmarks] at hlisted hone
  have hslot := (h.belongs (h.slot hs)).slot
  rw [(h.armed hearly).2] at hslot
  obtain ⟨hfound, hunique⟩ := gmMatchLastPlayed_one hlisted hone
  exact ⟨_, hslot, hfound, hunique⟩

/-- The folder of a last-played path that fits opens, and a scan of it lists the file: over
every run of the worker from a cold boot that folder is scanned, the scan is armed, and the
slot published is the file's entry. -/
theorem last_played_found (v : Volume) (o : MenuOptions) (hremember : o.rememberLastGame = true) {path folder : Path}
    (hlast : v.lastPlayed = some path) (hfits : path.length < gmPathMax)
    (hfolder : gmRecentEntryFolder v.appBanner path = some folder) (hopens : v.opens (cutFolder folder) = true)
    (hlisted : ∃ x ∈ v.card.completeScan (withSlash (cutFolder folder)), x.isLastPlayed path = true)
    (answers : List WorkerAnswer)
    (htold : Steps.Guarded (workerStep false) v.Tells (gmStartThread none (.powerOn o)) answers) :
    let g := Steps.run (workerStep false) (gmStartThread none (.powerOn o)) answers
    gmLastPlayedFolder v.coldBoot = some (some (cutFolder folder)) ∧
    coldBootPath v.coldBoot = some (withSlash (cutFolder folder)) ∧
    strcasecmpEq folder (withSlash (cutFolder folder)) = true ∧
    (g.worker ≠ .begin → g.enumPath = withSlash (cutFolder folder)) ∧
    (g.worker.early = false → g.scanIsLastPlayed = true) ∧
    (g.worker.searched = true → g.Selects path) := by
  have hreturns := Volume.gmLastPlayedFolder_opens hlast hfits hfolder hopens
  have hcold : withSlash v.card.coldBootFolder = withSlash (cutFolder folder) := by
    rw [Volume.card, hreturns]
    rfl
  obtain ⟨hmark, name, x, hx, hname, hpath⟩ := Volume.listed_named hlisted
  have haccept := Volume.recentFolder_accepted hlast hfolder hx hname hpath
  have hstart : ColdScan v path (withSlash (cutFolder folder)) (gmStartThread none (.powerOn o)) := by
    have hlist := listStep_inv v.card _ (.start none) (powerOn_inv v.card o) trivial
    refine ⟨hlist, rfl, fun _ => rfl, fun hne => absurd rfl hne, fun _ => ⟨hremember, rfl⟩, ?_, ?_, ?_, ?_⟩
    all_goals
      intro h
      cases h
  have hend := Steps.inv_run (ColdScan v path (withSlash (cutFolder folder)))
    (fun g a h ht => workerStep_coldScan hcold hlast hfolder haccept h ht) hstart htold
  refine ⟨hreturns, Volume.coldBootPath_opens hlast hfits hfolder hopens, haccept, hend.folder, ?_, ?_⟩
  · exact fun hlate => (hend.armed hlate).1
  · exact hend.selects (withSlash_last _) hmark

/-! ## An app below the root -/

theorem any_caseless (names : List Path) (p q : Path) (h : strcasecmpEq p q = true) :
    names.any (strcasecmpEq p) = names.any (strcasecmpEq q) := by
  rw [strcasecmpEq_iff] at h
  refine congrArg names.any (funext fun name => ?_)
  rw [strcasecmpEq, strcasecmpEq, h]

/-- A program and an app in `/apps`; the app was started last. -/
def toolVolume : Volume where
  isFile := fun path => [cstr "/apps/tool/opening.bnr", cstr "/apps/tool/default.dol"].any (strcasecmpEq path)
  opens := fun path => path = cstr "/apps"
  directory := fun folder =>
    .native (if folder = cstr "/apps/" then
      [⟨⟨⟨cstr "boot.dol", by decide, by decide⟩, by decide, by decide⟩, fileEntryTypeFile, 0⟩,
       ⟨⟨⟨cstr "tool", by decide, by decide⟩, by decide, by decide⟩, fileEntryTypeDir, 0⟩]
    else [])
  info := fun _ => plainInfo
  recent := readable (cstr "Recent_0=sdc:/apps/Tool/default.dol")
  defaultFolder := []
  caseless := any_caseless _
  distinct := by
    intro folder
    dsimp only [Directory.entries]
    split
    · decide
    · exact .nil

def toolAnswer (appDol : Option Path) : WorkerAnswer :=
  { quietAnswer with
    coldBootFolder := cstr "/apps"
    listing := [⟨cstr "/apps/boot.dol", .program⟩, ⟨cstr "/apps/tool", .directory⟩]
    lastPlayed := some (cstr "/apps/Tool/default.dol")
    appBanner := true
    check := ⟨plainInfo, appDol, 0, none⟩ }

/-- The worker, from the cold boot to the search. -/
def toolScan : List WorkerAnswer :=
  List.replicate 7 (toolAnswer none) ++ List.replicate 6 (toolAnswer (some (cstr "/apps/tool/default.dol")))

instance (v : Volume) (g : Games) (a : WorkerAnswer) : Decidable (v.Tells g a) :=
  inferInstanceAs (Decidable (_ ∧ _ ∧ _))

/-- The app is the second entry. -/
theorem last_played_found_tool :
    (Steps.run (workerStep false) (gmStartThread none (.powerOn plainOptions)) toolScan).Selects
      (cstr "/apps/Tool/default.dol") :=
  have hfolder : gmRecentEntryFolder toolVolume.appBanner (cstr "/apps/Tool/default.dol") = some (cstr "/apps/") := by
    decide +kernel
  (last_played_found toolVolume plainOptions rfl (by decide +kernel) (by decide +kernel) hfolder (by decide +kernel)
    (by decide +kernel) toolScan (by decide +kernel)).2.2.2.2.2 (by decide +kernel)

end Cubiboot
