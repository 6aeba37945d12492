import Cubiboot.Entry
import Cubiboot.Lib.Trim

/-
  The title that an entry gets from its file's name (`gm_set_title_from_path`, `games.c`).

  What the title should be is said in terms of the path alone: what stands behind its last
  slash, without the last dot and what is behind that, without `.nkit` if there is more, and
  of this as much as the field holds. The code looks for `.nkit` when it has cut the name to
  the field already.

  What is proved:
    1. `isBaseName_iff`, `isStem_iff`, `withoutNkit_iff` — each step has one result, and the
       code's expressions compute it.
    2. `title_eq` — the title the code leaves.
    3. `gmSetTitleFromPath_again` — the call repeated.
    4. `title_from_path_iff` — the title is what it should be exactly if the name fits, or the
       cut neither makes a `.nkit` nor leaves a part of one.

  Correspondence (C ↔ Lean):
    `GM_NKIT_SUFFIX`, the comparison with it ↔ `nkitSuffix`, `endsInNkit`
    `gm_set_title_from_path`                 ↔ `gmSetTitleFromPath` (in `Entry`)
-/

set_option autoImplicit false

namespace Cubiboot

open Trim

/-! ## What the title should be -/

/-- What stands behind the last slash. -/
inductive IsBaseName (path : Path) : Path → Prop where
  | bare (h : slash ∉ path) : IsBaseName path path
  | behind {dir base : Path} (h : path = dir ++ slash :: base) (hbase : slash ∉ base) : IsBaseName path base

/-- What stands before the last dot. -/
inductive IsStem (base : Path) : Path → Prop where
  | bare (h : dot ∉ base) : IsStem base base
  | before {name extension : Path} (h : base = name ++ dot :: extension) (hext : dot ∉ extension) : IsStem base name

/-- `.nkit`, in any case, taken off what is longer. -/
inductive WithoutNkit (name : Path) : Path → Prop where
  | cut {front tail : Path} (h : name = front ++ tail) (hfront : front ≠ [])
      (htail : tail.map myTolower = nkitSuffix) : WithoutNkit name front
  | kept (h : ∀ front tail, name = front ++ tail → tail.map myTolower = nkitSuffix → front = []) :
      WithoutNkit name name

def TitleOf (path title : Path) : Prop :=
  ∃ base name front, IsBaseName path base ∧ IsStem base name ∧ WithoutNkit name front ∧
    title = front.take (bnrFullTextLen - 1)

/-- An entry as the list has them: its path a C string that fits its field, its title's field
    whole. -/
structure NamedEntry where
  entry : FileEntry
  field : entry.desc.fullGameName.length = bnrFullTextLen
  pathLen : entry.path.length ≤ 127
  noNul : 0 ∉ entry.path

/-- The title: the field up to its first NUL. -/
def FileEntry.title (e : FileEntry) : Path := e.desc.fullGameName.takeWhile (· ≠ 0)

/-- Nothing but the title's field has changed, and that is as long as before. -/
structure OnlyTitle (e e' : FileEntry) : Prop where
  same : e' = { e with desc := { e.desc with fullGameName := e'.desc.fullGameName } }
  inside : e'.desc.fullGameName.length = e.desc.fullGameName.length

/-- The comparison the code makes. -/
def endsInNkit (name : Path) : Bool :=
  nkitSuffix.length < name.length ∧ strcasecmpEq (name.drop (name.length - nkitSuffix.length)) nkitSuffix

/-- The name fits the field; or the cut to the field makes no `.nkit`, and takes away all of
    one that is there. -/
def CutHarmless (name : Path) : Prop :=
  name.length ≤ bnrFullTextLen - 1 ∨
    (¬ endsInNkit (name.take (bnrFullTextLen - 1)) = true ∧
      (endsInNkit name = true → bnrFullTextLen - 1 + nkitSuffix.length ≤ name.length))

instance (name : Path) : Decidable (CutHarmless name) := inferInstanceAs (Decidable (_ ∨ _))

/-! ## The steps -/

theorem baseName_bare {path : Path} (h : slash ∉ path) : baseName path = path := by
  have hrev : slash ∉ path.reverse := fun hmem => h (List.mem_reverse.mp hmem)
  rw [baseName, takeWhile_none hrev, List.reverse_reverse]

theorem baseName_behind (dir : Path) {base : Path} (h : slash ∉ base) : baseName (dir ++ slash :: base) = base := by
  rw [baseName, takeWhile_last dir h, List.reverse_reverse]

theorem isBaseName_iff {path base : Path} : IsBaseName path base ↔ base = baseName path := by
  constructor
  · rintro (hbare | ⟨rfl, hbase⟩)
    · exact (baseName_bare hbare).symm
    · exact (baseName_behind _ hbase).symm
  · rintro rfl
    by_cases hslash : slash ∈ path
    · obtain ⟨dir, base, rfl, hbase⟩ := exists_last hslash
      rw [baseName_behind dir hbase]
      exact IsBaseName.behind rfl hbase
    · rw [baseName_bare hslash]
      exact IsBaseName.bare hslash

theorem stem_before (name : Path) {extension : Path} (hext : dot ∉ extension) :
    stem (name ++ dot :: extension) = name := by
  rw [stem, if_pos (List.mem_append_right name List.mem_cons_self), dropWhile_last _ hext, List.drop_succ_cons,
    List.drop_zero, List.reverse_reverse]

theorem isStem_iff {base name : Path} : IsStem base name ↔ name = stem base := by
  constructor
  · rintro (hbare | ⟨rfl, hext⟩)
    · rw [stem, if_neg hbare]
    · exact (stem_before name hext).symm
  · rintro rfl
    by_cases hdot : dot ∈ base
    · obtain ⟨name, extension, rfl, hext⟩ := exists_last hdot
      rw [stem_before name hext]
      exact IsStem.before rfl hext
    · rw [stem, if_neg hdot]
      exact IsStem.bare hdot

theorem endsInNkit_longer {name : Path} (h : endsInNkit name = true) : nkitSuffix.length < name.length :=
  (decide_eq_true_eq.mp h).1

theorem endsInNkit_append {front tail : Path} (hfront : front ≠ []) (htail : tail.map myTolower = nkitSuffix) :
    endsInNkit (front ++ tail) = true := by
  have hlen : tail.length = nkitSuffix.length := by rw [← htail, List.length_map]
  have hpos : 0 < front.length := List.length_pos_iff.mpr hfront
  have hlower : nkitSuffix.map myTolower = nkitSuffix := by decide +kernel
  apply decide_eq_true
  refine ⟨by rw [List.length_append]; omega, ?_⟩
  rw [List.length_append, ← hlen, Nat.add_sub_cancel, List.drop_left]
  exact strcasecmpEq_iff.mpr (htail.trans hlower.symm)

theorem endsInNkit_split {name : Path} (h : endsInNkit name = true) :
    ∃ tail, name = name.take (name.length - nkitSuffix.length) ++ tail ∧ tail.map myTolower = nkitSuffix := by
  have hlower : nkitSuffix.map myTolower = nkitSuffix := by decide +kernel
  refine ⟨name.drop (name.length - nkitSuffix.length), (List.take_append_drop _ _).symm, ?_⟩
  exact (strcasecmpEq_iff.mp (decide_eq_true_eq.mp h).2).trans hlower

theorem withoutNkit_iff {name front : Path} :
    WithoutNkit name front ↔ front = trim endsInNkit nkitSuffix.length name := by
  constructor
  · rintro (⟨rfl, hfront, htail⟩ | hkept)
    · rename_i tail
      have hlen : tail.length = nkitSuffix.length := by rw [← htail, List.length_map]
      rw [trim_of_pos (endsInNkit_append hfront htail), List.length_append, ← hlen, Nat.add_sub_cancel,
        List.take_left]
    · rw [trim_of_neg]
      intro hends
      obtain ⟨tail, hsplit, htail⟩ := endsInNkit_split hends
      have hlonger := endsInNkit_longer hends
      have hlength := congrArg List.length (hkept _ tail hsplit htail)
      rw [List.length_take, List.length_nil] at hlength
      omega
  · rintro rfl
    by_cases hends : endsInNkit name = true
    · obtain ⟨tail, hsplit, htail⟩ := endsInNkit_split hends
      have hlonger := endsInNkit_longer hends
      rw [trim_of_pos hends]
      refine WithoutNkit.cut hsplit (fun hnil => ?_) htail
      have hlength := congrArg List.length hnil
      rw [List.length_take, List.length_nil] at hlength
      omega
    · rw [trim_of_neg hends]
      refine WithoutNkit.kept fun front tail hsplit htail => ?_
      by_contra hfront
      exact hends (hsplit ▸ endsInNkit_append hfront htail)

theorem titleOf_iff {path title : Path} : TitleOf path title ↔
    title = (trim endsInNkit nkitSuffix.length (stem (baseName path))).take (bnrFullTextLen - 1) := by
  constructor
  · rintro ⟨base, name, front, hbase, hname, hfront, rfl⟩
    rw [withoutNkit_iff.mp hfront, isStem_iff.mp hname, isBaseName_iff.mp hbase]
  · intro h
    exact ⟨_, _, _, isBaseName_iff.mpr rfl, isStem_iff.mpr rfl, withoutNkit_iff.mpr rfl, h⟩

/-! ## What the code leaves -/

/-- As much of the name as the field holds. -/
def heldName (e : FileEntry) : Path := (stem (baseName e.path)).take (bnrFullTextLen - 1)

theorem heldName_le (e : FileEntry) : (heldName e).length + 1 ≤ bnrFullTextLen := by
  rw [heldName, List.length_take, bnrFullTextLen]
  omega

/-- The bytes the code puts down, both NULs included. -/
def titleBytes (name : Path) : Path :=
  if endsInNkit name then (name ++ [0]).set (name.length - nkitSuffix.length) 0 else name ++ [0]

theorem titleBytes_length (name : Path) : (titleBytes name).length = name.length + 1 := by
  rw [titleBytes]
  split
  · rw [List.length_set, List.length_append, List.length_singleton]
  · rw [List.length_append, List.length_singleton]

/-- What is put down begins with the title and a NUL. -/
theorem titleBytes_eq (name : Path) :
    ∃ rest, titleBytes name = trim endsInNkit nkitSuffix.length name ++ 0 :: rest := by
  rw [titleBytes]
  by_cases hends : endsInNkit name = true
  · have hlonger := endsInNkit_longer hends
    have hle : name.length - nkitSuffix.length ≤ name.length := Nat.sub_le ..
    have hin : name.length - nkitSuffix.length < (name ++ [0]).length := by
      rw [List.length_append]
      exact Nat.lt_succ_of_le hle
    rw [if_pos hends, trim_of_pos hends, List.set_eq_take_append_cons_drop, if_pos hin,
      List.take_append_of_le_length hle]
    exact ⟨_, rfl⟩
  · rw [if_neg hends, trim_of_neg hends]
    exact ⟨[], rfl⟩

theorem overwrite_length {field xs : Path} (h : xs.length ≤ field.length) :
    (overwrite field xs).length = field.length := by
  rw [overwrite, List.length_append, List.length_drop, Nat.add_sub_cancel' h]

theorem overwrite_again (field xs : Path) : overwrite (overwrite field xs) xs = overwrite field xs := by
  rw [overwrite, overwrite, List.drop_left]

theorem gmSetTitleFromPath_eq (e : FileEntry) : gmSetTitleFromPath e =
    { e with desc :=
      { e.desc with fullGameName := overwrite e.desc.fullGameName (titleBytes (heldName e)) } } := by
  have hfield : (gmSetTitleFromPath e).desc.fullGameName =
      overwrite e.desc.fullGameName (titleBytes (heldName e)) := by
    by_cases hends : endsInNkit (heldName e) = true
    · have hin : (heldName e).length - nkitSuffix.length < (heldName e ++ [0]).length := by
        rw [List.length_append]
        exact Nat.lt_succ_of_le (Nat.sub_le ..)
      rw [titleBytes, if_pos hends, overwrite, List.length_set, ← List.set_append_left _ _ hin]
      exact if_pos (decide_eq_true_eq.mp hends)
    · rw [titleBytes, if_neg hends]
      exact if_neg fun h => hends (decide_eq_true h)
  rw [← hfield]
  rfl

theorem mem_of_isStem {base name : Path} (h : IsStem base name) {c : UInt8} (hc : c ∈ name) : c ∈ base := by
  obtain hbare | ⟨rfl, -⟩ := h
  · exact hc
  · exact List.mem_append_left _ hc

theorem mem_baseName {path : Path} {c : UInt8} (h : c ∈ baseName path) : c ∈ path :=
  List.mem_reverse.mp ((List.takeWhile_sublist _).subset (List.mem_reverse.mp h))

theorem heldName_noNul {e : FileEntry} (h : 0 ∉ e.path) : 0 ∉ heldName e :=
  fun hmem => h (mem_baseName (mem_of_isStem (isStem_iff.mpr rfl) (List.mem_of_mem_take hmem)))

theorem trim_noNul {name : Path} (h : 0 ∉ name) : 0 ∉ trim endsInNkit nkitSuffix.length name := by
  rw [trim]
  split
  · exact fun hmem => h (List.mem_of_mem_take hmem)
  · exact h

theorem title_eq {e : FileEntry} (h : 0 ∉ e.path) :
    (gmSetTitleFromPath e).title = trim endsInNkit nkitSuffix.length (heldName e) := by
  obtain ⟨rest, hrest⟩ := titleBytes_eq (heldName e)
  rw [gmSetTitleFromPath_eq, FileEntry.title]
  simp only [overwrite]
  rw [hrest, List.append_assoc, List.cons_append]
  exact takeWhile_first (trim_noNul (heldName_noNul h)) _

theorem gmSetTitleFromPath_onlyTitle {e : FileEntry} (h : e.desc.fullGameName.length = bnrFullTextLen) :
    OnlyTitle e (gmSetTitleFromPath e) where
  same := rfl
  inside := by
    rw [gmSetTitleFromPath_eq]
    apply overwrite_length
    rw [titleBytes_length, h]
    exact heldName_le e

theorem gmSetTitleFromPath_again (e : FileEntry) :
    gmSetTitleFromPath (gmSetTitleFromPath e) = gmSetTitleFromPath e := by
  rw [gmSetTitleFromPath_eq e, gmSetTitleFromPath_eq]
  simp only [heldName, overwrite_again]

/-- The call keeps an entry what it is. -/
def NamedEntry.setTitle (e : NamedEntry) : NamedEntry where
  entry := gmSetTitleFromPath e.entry
  field := (gmSetTitleFromPath_onlyTitle e.field).inside.trans e.field
  pathLen := e.pathLen
  noNul := e.noNul

/-! ## The title -/

theorem title_from_path_iff (e : NamedEntry) :
    (TitleOf e.entry.path e.setTitle.entry.title ∧ OnlyTitle e.entry e.setTitle.entry ∧
      e.setTitle.setTitle = e.setTitle) ↔ CutHarmless (stem (baseName e.entry.path)) := by
  have honly : OnlyTitle e.entry e.setTitle.entry := gmSetTitleFromPath_onlyTitle e.field
  have hagain : e.setTitle.setTitle = e.setTitle := by
    simp only [NamedEntry.setTitle, gmSetTitleFromPath_again]
  rw [and_iff_left ⟨honly, hagain⟩, titleOf_iff, CutHarmless]
  have htitle : e.setTitle.entry.title = trim endsInNkit nkitSuffix.length (heldName e.entry) := title_eq e.noNul
  rw [htitle, heldName]
  exact trim_take_iff (by decide +kernel) (fun _ h => endsInNkit_longer h) _ _

/-- 58 letters, and `.nkit` in the middle of the name. -/
def longNamed : NamedEntry where
  entry := .zeroed 0 (cstr "/" ++ List.replicate 58 97 ++ cstr ".nkitb.iso") .game
  field := rfl
  pathLen := by decide +kernel
  noNul := by decide +kernel

theorem title_cut_short : ¬ TitleOf longNamed.entry.path longNamed.setTitle.entry.title := by
  rw [titleOf_iff]
  decide +kernel

end Cubiboot
