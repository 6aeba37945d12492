import Cubiboot.Lib.Partners
import Cubiboot.Pool
import Cubiboot.KeptList

/-
  The discs of a game: what the multi-disc search of `gm_check_files` leaves in `second`, and
  what START copies of it.

  For each image that is not a first disc the search goes over the whole list, and writes
  `second` on both sides of every match over what was there. With two images of a game each
  ends up with the other. With three or more every one is left with the last that matched
  it, and the partner of that one is some other.

  What is proved:
    1. `seconds_gmFindMultiDisc` — the search is `Partners.partners`, images grouped by game
       id and coloured by disc number.
    2. `gmCheckFiles_sameList` — it runs over the entries the paths make.
    3. `paired_up_iff` — hence for every list of paths: the partners are mutual, other discs
       of the game, there wherever there is another disc, and refer back at a boot, exactly
       if no game with two different discs has a third image in the list.
    4. `three_images_not_paired` — one first disc and two copies of the second.

  Correspondence (C ↔ Lean):
    `gm_check_files` (find multi-disc games)          ↔ `gmFindMultiDisc`
    `is_same_game && is_different_disc`               ↔ `FileEntry.OtherDisc`
    `handle_gameselect_inputs` (START)                ↔ `pressStart`
-/

set_option autoImplicit false

namespace Cubiboot

open Partners

/-! ## What the list should be -/

/-- Two images of a game, of different discs. -/
def FileEntry.OtherDisc (e e2 : FileEntry) : Prop :=
  e.type = .game ∧ e2.type = .game ∧ e.extra.gameId = e2.extra.gameId ∧ e.extra.discNum ≠ e2.extra.discNum

/-- Whoever is a partner has that entry for a partner; partners are other discs of the game;
every image with another disc in the list has a partner; and the pair that START copies
refers back to the entry that is booted. -/
structure PairedUp (es : List FileEntry) : Prop where
  symmetric : ∀ (k f : Nat) e, es[k]? = some e → e.second = some f → ∃ e2, es[f]? = some e2 ∧ e2.second = some k
  other : ∀ (k f : Nat) e e2, es[k]? = some e → e.second = some f → es[f]? = some e2 → e.OtherDisc e2
  complete : ∀ e ∈ es, ∀ e2 ∈ es, e.OtherDisc e2 → e.second ≠ none
  booted : ∀ (f : FrameInput) (b : Browser) boot e2, b.games.ld.entries = es → b.boot = none →
    (pressStart f b).boot = some boot → boot.second = some e2 → e2.second = some b.games.grid.selectedSlot.toNat

/-- No third image of a game of which two different discs are in the list. -/
def NoThirdImage (es : List FileEntry) : Prop :=
  ∀ (i j l : Nat) e e2 e3, es[i]? = some e → es[j]? = some e2 → es[l]? = some e3 → e.OtherDisc e2 →
    e3.type = .game → e3.extra.gameId = e.extra.gameId → l = i ∨ l = j

/-- The entries that the paths of a scan make. -/
def scanned (found : List (PathEntry × CheckAnswer)) : List FileEntry := found.filterMap fun p => newEntry p.1 p.2

/-! ## The list as members of groups -/

def gameOf (es : List FileEntry) (k : Nat) : Option (List UInt8) :=
  (es[k]?).bind fun e => if e.type = .game then some e.extra.gameId else none

def discOf (es : List FileEntry) (k : Nat) : UInt8 := ((es[k]?).map fun e => e.extra.discNum).getD 0

def seconds (es : List FileEntry) (k : Nat) : Option Nat := (es[k]?).bind FileEntry.second

section
variable {es es' : List FileEntry} {i j k f : Nat} {e e2 : FileEntry}

theorem gameOf_eq_some {id : List UInt8} :
    gameOf es k = some id ↔ ∃ e, es[k]? = some e ∧ e.type = .game ∧ e.extra.gameId = id := by
  rw [gameOf, Option.bind_eq_some_iff]
  simp only [Option.ite_none_right_eq_some, Option.some.injEq]

theorem discOf_of (h : es[k]? = some e) : discOf es k = e.extra.discNum := by
  rw [discOf, h, Option.map_some, Option.getD_some]

theorem seconds_of (h : es[k]? = some e) : seconds es k = e.second := by
  rw [seconds, h, Option.bind_some]

theorem gameOf_lt (h : gameOf es k ≠ none) : k < es.length := by
  obtain ⟨id, hid⟩ := Option.ne_none_iff_exists'.mp h
  obtain ⟨e, he, -⟩ := gameOf_eq_some.mp hid
  exact (List.getElem?_eq_some_iff.mp he).1

theorem mates_iff (he : es[i]? = some e) (he2 : es[j]? = some e2) :
    Mates (gameOf es) (discOf es) i j ↔ e.OtherDisc e2 := by
  simp only [Mates, gameOf, he, he2, Option.bind_some, discOf_of he, discOf_of he2, FileEntry.OtherDisc]
  by_cases hg : e.type = .game
  · by_cases hg2 : e2.type = .game
    · simp only [hg, hg2, if_true, Option.some.injEq, ne_eq, reduceCtorEq, not_false_eq_true, true_and]
    · simp only [hg, hg2, if_true, if_false, reduceCtorEq, false_and, and_false]
  · simp only [hg, if_false, ne_eq, not_true_eq_false, false_and]

theorem mates_entries (h : Mates (gameOf es) (discOf es) i j) : ∃ e e2, es[i]? = some e ∧ es[j]? = some e2 := by
  exact ⟨_, _, List.getElem?_eq_getElem (gameOf_lt h.1), List.getElem?_eq_getElem (gameOf_lt h.symm.1)⟩

/-! ## The search -/

theorem pairs_iff (he : es[i]? = some e) (he2 : es[j]? = some e2) :
    (i ≠ j ∧ e.pairs e2 = true) ↔ Seeks (gameOf es) (discOf es) 0 i j := by
  rw [Seeks, mates_iff he he2, discOf_of he]
  constructor
  · intro ⟨_, hpairs⟩
    obtain ⟨hg, hd, hg2, hid, hne⟩ := of_decide_eq_true hpairs
    exact ⟨hd, hg, hg2, hid, hne⟩
  · intro ⟨hd, hg, hg2, hid, hne⟩
    refine ⟨fun heq => ?_, decide_eq_true ⟨hg, hd, hg2, hid, hne⟩⟩
    obtain rfl : e = e2 := Option.some.inj (he.symm.trans (heq ▸ he2))
    exact hne rfl

theorem seconds_set {x : FileEntry} (hi : i < es.length) :
    seconds (es.set i x) = Function.update (seconds es) i x.second := by
  funext k
  by_cases hk : k = i
  · rw [hk, Function.update_self, seconds, List.getElem?_set_self hi, Option.bind_some]
  · rw [Function.update_of_ne hk, seconds, seconds, List.getElem?_set_ne (Ne.symm hk)]

/-- One pair of indices, as a link. -/
theorem seconds_pairAt (hi : i < es.length) (hj : j < es.length) :
    seconds (pairAt es i j) = linkWith (Seeks (gameOf es) (discOf es) 0) i (seconds es) j := by
  have he := List.getElem?_eq_getElem hi
  have he2 := List.getElem?_eq_getElem hj
  simp only [pairAt, he, he2, linkWith, pairs_iff he he2]
  split
  · rw [seconds_set (by rwa [List.length_set]), seconds_set hi, link]
  · rfl

theorem gameOf_map {m : FileEntry → FileEntry} (ht : ∀ e, (m e).type = e.type)
    (hid : ∀ e, (m e).extra.gameId = e.extra.gameId) : gameOf (es.map m) = gameOf es := by
  funext k
  rw [gameOf, gameOf, List.getElem?_map]
  cases es[k]? with
  | none => rfl
  | some e => simp only [Option.map_some, Option.bind_some, ht, hid]

theorem discOf_map {m : FileEntry → FileEntry} (hd : ∀ e, (m e).extra.discNum = e.extra.discNum) :
    discOf (es.map m) = discOf es := by
  funext k
  rw [discOf, discOf, List.getElem?_map]
  cases es[k]? with
  | none => rfl
  | some e => simp only [Option.map_some, Option.getD_some, hd]

theorem seconds_map {m : FileEntry → FileEntry} (hs : ∀ e, (m e).second = e.second) :
    seconds (es.map m) = seconds es := by
  funext k
  rw [seconds, seconds, List.getElem?_map]
  cases es[k]? with
  | none => rfl
  | some e => simp only [Option.map_some, Option.bind_some, hs]

/-- What the search has written so far, as links; it writes nothing else. -/
structure Linked (es : List FileEntry) (es' : List FileEntry) (s : Nat → Option Nat) : Prop where
  unpaired : es'.map FileEntry.unpaired = es.map FileEntry.unpaired
  seconds : seconds es' = s

theorem Linked.length {s : Nat → Option Nat} (h : Linked es es' s) : es'.length = es.length := by
  simpa using congrArg List.length h.unpaired

theorem Linked.games {s : Nat → Option Nat} (h : Linked es es' s) : gameOf es' = gameOf es ∧ discOf es' = discOf es := by
  constructor
  · rw [← gameOf_map (m := FileEntry.unpaired) (fun _ => rfl) fun _ => rfl, h.unpaired]
    exact gameOf_map (fun _ => rfl) fun _ => rfl
  · rw [← discOf_map (m := FileEntry.unpaired) fun _ => rfl, h.unpaired]
    exact discOf_map fun _ => rfl

theorem Linked.pairAt {s : Nat → Option Nat} (h : Linked es es' s) (hi : i < es.length) (hj : j < es.length) :
    Linked es (pairAt es' i j) (linkWith (Seeks (gameOf es) (discOf es) 0) i s j) := by
  refine ⟨(pairAt_unpaired es' i j).trans h.unpaired, ?_⟩
  rw [seconds_pairAt (h.length ▸ hi) (h.length ▸ hj), h.seconds, h.games.1, h.games.2]

theorem Linked.foldl {f : List FileEntry → Nat → List FileEntry} {g : (Nat → Option Nat) → Nat → Nat → Option Nat}
    {s : Nat → Option Nat} (is : List Nat) (h : Linked es es' s)
    (hstep : ∀ i ∈ is, ∀ es' s, Linked es es' s → Linked es (f es' i) (g s i)) :
    Linked es (is.foldl f es') (is.foldl g s) := by
  induction is generalizing es' s with
  | nil => exact h
  | cons i is ih =>
    exact ih (hstep i (List.mem_cons_self ..) es' s h) fun i hi => hstep i (List.mem_cons_of_mem _ hi)

/-- The whole search. -/
theorem seconds_gmFindMultiDisc (hnone : ∀ e ∈ es, e.second = none) :
    Linked es (gmFindMultiDisc es) (partners (gameOf es) (discOf es) 0 es.length) := by
  have hfresh : seconds es = fun _ => none := by
    funext k
    rw [seconds, Option.bind_eq_none_iff]
    exact fun e he => hnone e (List.mem_of_getElem? he)
  have hstart : Linked es es fun _ => none := ⟨rfl, hfresh⟩
  refine hstart.foldl _ fun i hi es' s h => h.foldl _ fun j hj es' s h => ?_
  exact h.pairAt (List.mem_range.mp hi) (List.mem_range.mp hj)

end

/-! ## The entries of a scan -/

theorem newEntry_second {e : PathEntry} {a : CheckAnswer} {b : FileEntry} (h : newEntry e a = some b) :
    b.second = none := by
  simp only [newEntry] at h
  split at h
  · split at h
    · cases h
      rfl
    · cases h
  · cases h
    rfl
  · cases h
    rfl
  · cases h
    rfl
  · cases h
  · cases h

/-- A scan adds what its paths make, banners and titles aside. -/
theorem checkFiles_sameList (armed : Bool) (found : List (PathEntry × CheckAnswer)) (ld : Loader) :
    SameList (found.foldl (fun ld p => gmCheckFile ld armed p.1 p.2) ld).entries (ld.entries ++ scanned found) := by
  induction found generalizing ld with
  | nil => simp only [List.foldl_nil, scanned, List.filterMap_nil, List.append_nil, SameList]
  | cons p found ih =>
    -- this path's answer, as a card that gives it for every path
    let card : FixedCard := ⟨[], fun _ => [], fun _ => p.2.info, fun _ => p.2.appDol⟩
    have hadds : SameList (gmCheckFile ld armed p.1 p.2).entries (ld.entries ++ (card.entry p.1).toList) :=
      gmCheckFile_adds card ld armed p.1 rfl rfl
    have hentry : (newEntry p.1 p.2).map FileEntry.bare = (card.entry p.1).map FileEntry.bare :=
      newEntry_bare card p.1 rfl rfl
    refine (ih _).trans ?_
    refine (hadds.append _).trans ?_
    have hsplit : scanned (p :: found) = (newEntry p.1 p.2).toList ++ scanned found := by
      rw [scanned, List.filterMap_cons]
      cases newEntry p.1 p.2 <;> rfl
    have hbare : (card.entry p.1).toList.map FileEntry.bare = (newEntry p.1 p.2).toList.map FileEntry.bare := by
      rw [← Option.toList_map, ← Option.toList_map, hentry]
    rw [hsplit, List.append_assoc, List.map_append, List.map_append, List.map_append, List.map_append,
      hbare]

/-- What `gm_check_files` makes of the paths, banners and titles aside. -/
theorem gmCheckFiles_sameList (armed : Bool) (found : List (PathEntry × CheckAnswer)) (pool : BannerPool)
    (evict : Bool) : SameList (gmCheckFiles armed found ⟨[], pool, evict⟩).entries (gmFindMultiDisc (scanned found)) :=
  gmFindMultiDisc_sameList (checkFiles_sameList armed found ⟨[], pool, false⟩)

/-! ## Paired up or not -/

theorem bare_keeps (e : FileEntry) : e.bare.type = e.type ∧ e.bare.extra.gameId = e.extra.gameId ∧
    e.bare.extra.discNum = e.extra.discNum ∧ e.bare.second = e.second := by
  rw [FileEntry.bare]
  split <;> exact ⟨rfl, rfl, rfl, rfl⟩

section
variable {es es' : List FileEntry}

/-- The list says the same of its partners and games. -/
theorem SameList.games (h : SameList es es') :
    gameOf es = gameOf es' ∧ discOf es = discOf es' ∧ seconds es = seconds es' := by
  have hmap : es.map FileEntry.bare = es'.map FileEntry.bare := h
  refine ⟨?_, ?_, ?_⟩
  · rw [← gameOf_map (fun e => (bare_keeps e).1) fun e => (bare_keeps e).2.1, hmap]
    exact gameOf_map (fun e => (bare_keeps e).1) fun e => (bare_keeps e).2.1
  · rw [← discOf_map fun e => (bare_keeps e).2.2.1, hmap]
    exact discOf_map fun e => (bare_keeps e).2.2.1
  · rw [← seconds_map fun e => (bare_keeps e).2.2.2, hmap]
    exact seconds_map fun e => (bare_keeps e).2.2.2

/-- START copies the entry under the cursor and its partner. -/
theorem pressStart_pair {f : FrameInput} {b : Browser} {boot : Boot} (hfresh : b.boot = none)
    (hboot : (pressStart f b).boot = some boot) :
    b.games.ld.entries[b.games.grid.selectedSlot.toNat]? = some boot.entry ∧
      boot.second = boot.entry.second.bind fun j => b.games.ld.entries[j]? := by
  rw [pressStart] at hboot
  split at hboot
  · split at hboot
    · rw [hfresh] at hboot
      cases hboot
    · rename_i e he
      rw [Games.entryAt] at he
      split at he
      · cases he
      · split at hboot
        · cases hboot
          exact ⟨he, rfl⟩
        · rw [hfresh] at hboot
          cases hboot
  · rw [hfresh] at hboot
    cases hboot

/-- All of it is that the partners are mutual, if each is another disc and none is missing. -/
theorem pairedUp_iff
    (hother : ∀ k f, seconds es k = some f → Mates (gameOf es) (discOf es) k f)
    (hcomplete : ∀ k f, Mates (gameOf es) (discOf es) k f → ∃ g, seconds es k = some g) :
    PairedUp es ↔ Mutual (seconds es) := by
  constructor
  · intro h k f hk
    obtain ⟨e, he, hsecond⟩ := Option.bind_eq_some_iff.mp hk
    obtain ⟨e2, he2, hback⟩ := h.symmetric k f e he hsecond
    rw [seconds_of he2, hback]
  · intro h
    have hsymmetric : ∀ (k f : Nat) e, es[k]? = some e → e.second = some f →
        ∃ e2, es[f]? = some e2 ∧ e2.second = some k := by
      intro k f e he hsecond
      exact Option.bind_eq_some_iff.mp (h k f ((seconds_of he).trans hsecond))
    refine ⟨hsymmetric, ?_, ?_, ?_⟩
    · intro k f e e2 he hsecond he2
      exact (mates_iff he he2).mp (hother k f ((seconds_of he).trans hsecond))
    · intro e he e2 he2 hdiscs
      obtain ⟨k, hk⟩ := List.mem_iff_getElem?.mp he
      obtain ⟨f, hf⟩ := List.mem_iff_getElem?.mp he2
      obtain ⟨g, hg⟩ := hcomplete k f ((mates_iff hk hf).mpr hdiscs)
      rw [← seconds_of hk, hg]
      exact Option.some_ne_none g
    · intro f b boot e2 hes hfresh hboot hsecond
      obtain ⟨hentry, hpair⟩ := pressStart_pair hfresh hboot
      rw [hpair, hes] at hsecond
      rw [hes] at hentry
      obtain ⟨j, hj, he2⟩ := Option.bind_eq_some_iff.mp hsecond
      obtain ⟨e2', he2', hback⟩ := hsymmetric _ j boot.entry hentry hj
      rw [he2] at he2'
      exact Option.some.inj he2' ▸ hback

end

theorem noThirdImage_iff (es : List FileEntry) :
    NoThirdImage es ↔ ∀ i j, Mates (gameOf es) (discOf es) i j → ∀ l, gameOf es l = gameOf es i → l = i ∨ l = j := by
  constructor
  · intro h i j hij l hl
    obtain ⟨e, e2, he, he2⟩ := mates_entries hij
    obtain ⟨id, hid⟩ := Option.ne_none_iff_exists'.mp hij.1
    obtain ⟨e', he', -, hgame⟩ := gameOf_eq_some.mp hid
    obtain rfl : e = e' := Option.some.inj (he.symm.trans he')
    obtain ⟨e3, he3, htype, hgame3⟩ := gameOf_eq_some.mp (hl.trans hid)
    exact h i j l e e2 e3 he he2 he3 ((mates_iff he he2).mp hij) htype (hgame3.trans hgame.symm)
  · intro h i j l e e2 e3 he he2 he3 hdiscs htype hgame
    refine h i j ((mates_iff he he2).mpr hdiscs) l ?_
    have hi : gameOf es i = some e.extra.gameId := gameOf_eq_some.mpr ⟨e, he, hdiscs.1, rfl⟩
    rw [hi]
    exact gameOf_eq_some.mpr ⟨e3, he3, htype, hgame⟩

/-- For every list of paths and whatever banners are loaded on the way: the list comes out
paired up exactly if no game of which it has two different discs has a third image in it. -/
theorem paired_up_iff (armed : Bool) (found : List (PathEntry × CheckAnswer)) (pool : BannerPool) (evict : Bool) :
    PairedUp (gmCheckFiles armed found ⟨[], pool, evict⟩).entries ↔ NoThirdImage (scanned found) := by
  have hnone : ∀ e ∈ scanned found, e.second = none := by
    intro e he
    obtain ⟨p, -, hp⟩ := List.mem_filterMap.mp he
    exact newEntry_second hp
  have hlinked := seconds_gmFindMultiDisc hnone
  obtain ⟨hgame, hdisc, hseconds⟩ := (gmCheckFiles_sameList armed found pool evict).games
  rw [hlinked.games.1] at hgame
  rw [hlinked.games.2] at hdisc
  rw [hlinked.seconds] at hseconds
  have hin : ∀ k, gameOf (scanned found) k ≠ none → k < (scanned found).length := fun k => gameOf_lt
  rw [pairedUp_iff, hseconds, noThirdImage_iff]
  · exact mutual_iff hin
  · intro k f hk
    rw [hseconds] at hk
    rw [hgame, hdisc]
    exact partners_mates hk
  · intro k f hkf
    rw [hgame, hdisc] at hkf
    rw [hseconds]
    exact partners_isSome hkf (hin k hkf.1) (hin f hkf.symm.1)

/-! ## A first disc and two copies of the second -/

def imageOfDisc (discNum : UInt8) : FoundGame :=
  ⟨⟨true, cstr "GAMEID", discNum, 0, 0, 0x480, 0x100, 0x440, 64, 64⟩, fun _ => by
    have hoffset : (0x480 : UInt32) ≠ 0 := by decide
    exact hoffset⟩

def discAndCopy : List (PathEntry × CheckAnswer) :=
  [(⟨cstr "/disc1.iso", .game⟩, ⟨imageOfDisc 0, none, 0, none⟩),
    (⟨cstr "/disc2.iso", .game⟩, ⟨imageOfDisc 1, none, 0, none⟩),
    (⟨cstr "/disc2b.iso", .game⟩, ⟨imageOfDisc 1, none, 0, none⟩)]

/-- The second disc has the first one, which has the copy. -/
theorem three_images_not_paired :
    ¬ ∀ (armed : Bool) (found : List (PathEntry × CheckAnswer)) (pool : BannerPool) (evict : Bool),
      PairedUp (gmCheckFiles armed found ⟨[], pool, evict⟩).entries := by
  intro hall
  let es := (gmCheckFiles true discAndCopy ⟨[], .fresh, false⟩).entries
  have hpaired : PairedUp es := hall true discAndCopy .fresh false
  have hsecond : (es[1]?).map FileEntry.second = some (some 0) := by decide +kernel
  have hfirst : (es[0]?).map FileEntry.second = some (some 2) := by decide +kernel
  obtain ⟨e, he, he0⟩ := Option.map_eq_some_iff.mp hsecond
  obtain ⟨e2, he2, hback⟩ := hpaired.symmetric 1 0 e he he0
  rw [he2, Option.map_some, hback] at hfirst
  exact absurd hfirst (by decide)

end Cubiboot
