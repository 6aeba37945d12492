import Mathlib.Logic.Function.Basic
import Mathlib.Data.List.Basic
import Mathlib.Data.Nat.Find
import Mathlib.Tactic.Common

/-
  Linking members of groups two by two, with a loop that overwrites.

  Members are numbers. `linkAll R n` goes over all `i` and for each over all `j` below `n`,
  and where `R i j` writes each as the other's partner, over whatever partner it had. What a
  member is left with is what was written last, on each side for itself.

  The rules: a partner is one by `R`, from one side or the other (`linkAll_valid`); who can
  be linked is linked (`linkAll_isSome`); and the last one to seek a member, later than the
  member's own turn, is the partner it is left with (`linkAll_last`).

  With members in groups, each with a colour, and every one but those of one plain colour
  seeking the members of its group of another colour: partners are mutual exactly if no two
  members of different colours have a third one in their group (`mutual_iff`).
-/

set_option autoImplicit false

namespace Partners

/-! ## The loop -/

/-- Both ends of a link are written. -/
def link (s : Nat → Option Nat) (i j : Nat) : Nat → Option Nat :=
  Function.update (Function.update s i (some j)) j (some i)

section
variable (R : Nat → Nat → Prop) [DecidableRel R]

def linkWith (i : Nat) (s : Nat → Option Nat) (j : Nat) : Nat → Option Nat := if R i j then link s i j else s

/-- The turn of `i`. -/
def turn (n : Nat) (s : Nat → Option Nat) (i : Nat) : Nat → Option Nat := (List.range n).foldl (linkWith R i) s

def linkAll (n : Nat) (s : Nat → Option Nat) : Nat → Option Nat := (List.range n).foldl (turn R n) s

variable {R} {n : Nat} {s : Nat → Option Nat} {i j k : Nat}

theorem link_other (hi : k ≠ i) (hj : k ≠ j) : link s i j k = s k := by
  rw [link, Function.update_of_ne hj, Function.update_of_ne hi]

theorem link_right : link s i j j = some i := Function.update_self ..

theorem link_left (h : i ≠ j) : link s i j i = some j := by
  rw [link, Function.update_of_ne h, Function.update_self]

/-! ## Partners that belong together -/

/-- Every partner is one by `R`. -/
def Valid (R : Nat → Nat → Prop) (s : Nat → Option Nat) : Prop := ∀ k f, s k = some f → R k f ∨ R f k

theorem linkWith_valid (i : Nat) (h : Valid R s) (j : Nat) : Valid R (linkWith R i s j) := by
  intro k f hk
  by_cases hR : R i j
  · rw [linkWith, if_pos hR] at hk
    by_cases hkj : k = j
    · rw [hkj, link_right] at hk
      exact .inr (hkj ▸ Option.some.inj hk ▸ hR)
    · by_cases hki : k = i
      · rw [hki, link_left fun heq => hkj (hki.trans heq)] at hk
        exact .inl (hki ▸ Option.some.inj hk ▸ hR)
      · rw [link_other hki hkj] at hk
        exact h k f hk
  · rw [linkWith, if_neg hR] at hk
    exact h k f hk

theorem linkAll_valid (h : Valid R s) : Valid R (linkAll R n s) :=
  List.foldlRecOn _ (turn R n) h fun _ hs i _ =>
    List.foldlRecOn _ (linkWith R i) hs fun _ hs j _ => linkWith_valid i hs j

/-! ## Who is linked -/

theorem linkWith_isSome (i : Nat) (h : (s k).isSome = true) (j : Nat) : (linkWith R i s j k).isSome = true := by
  rw [linkWith]
  split
  · by_cases hkj : k = j
    · rw [hkj, link_right]
      rfl
    · by_cases hki : k = i
      · rw [hki, link_left fun heq => hkj (hki.trans heq)]
        rfl
      · rw [link_other hki hkj]
        exact h
  · exact h

theorem turn_isSome (i : Nat) (h : (s k).isSome = true) : (turn R n s i k).isSome = true :=
  List.foldlRecOn (motive := fun t => (t k).isSome = true) _ (linkWith R i) h
    fun _ hs j _ => linkWith_isSome i hs j

/-- After a link is made both ends have a partner, whatever is written later. -/
theorem turn_linked (hR : R i j) (hij : i ≠ j) (hj : j < n) :
    (turn R n s i i).isSome = true ∧ (turn R n s i j).isSome = true := by
  obtain ⟨before, after, hsplit⟩ := List.append_of_mem (List.mem_range.mpr hj)
  have hlinked : ∀ k, k = i ∨ k = j → (turn R n s i k).isSome = true := by
    intro k hk
    rw [turn, hsplit, List.foldl_append, List.foldl_cons]
    refine List.foldlRecOn (motive := fun t => (t k).isSome = true) _ (linkWith R i) ?_
      fun _ hs j _ => linkWith_isSome i hs j
    rw [linkWith, if_pos hR]
    obtain rfl | rfl := hk
    · rw [link_left hij]
      rfl
    · rw [link_right]
      rfl
  exact ⟨hlinked i (.inl rfl), hlinked j (.inr rfl)⟩

theorem linkAll_isSome (hR : R i j) (hij : i ≠ j) (hi : i < n) (hj : j < n) :
    (linkAll R n s i).isSome = true ∧ (linkAll R n s j).isSome = true := by
  obtain ⟨before, after, hsplit⟩ := List.append_of_mem (List.mem_range.mpr hi)
  have hkept : ∀ (t : Nat → Option Nat) k, (t k).isSome = true → (after.foldl (turn R n) t k).isSome = true :=
    fun t k h => List.foldlRecOn (motive := fun t => (t k).isSome = true) _ (turn R n) h
      fun _ hs i _ => turn_isSome i hs
  rw [linkAll, hsplit, List.foldl_append, List.foldl_cons]
  obtain ⟨hleft, hright⟩ := turn_linked (s := before.foldl (turn R n) s) hR hij hj
  exact ⟨hkept _ i hleft, hkept _ j hright⟩

/-! ## What is written last -/

/-- The turn of a member that seeks `k` leaves `k` with it. -/
theorem turn_sought (hR : R i k) (hik : i ≠ k) (hk : k < n) : turn R n s i k = some i := by
  obtain ⟨before, after, hsplit⟩ := List.append_of_mem (List.mem_range.mpr hk)
  rw [turn, hsplit, List.foldl_append, List.foldl_cons]
  refine List.foldlRecOn (motive := fun t => t k = some i) _ (linkWith R i) ?_ fun t ht j _ => ?_
  · rw [linkWith, if_pos hR, link_right]
  · by_cases hj : R i j
    · rw [linkWith, if_pos hj]
      by_cases hkj : k = j
      · rw [hkj, link_right]
      · rw [link_other hik.symm hkj, ht]
    · rw [linkWith, if_neg hj, ht]

/-- The turn of a member that does not seek `k`, and is not `k` seeking others. -/
theorem turn_keeps (hR : ¬ R i k) (hown : i = k → ∀ j, ¬ R k j) : turn R n s i k = s k := by
  refine List.foldlRecOn (motive := fun t => t k = s k) _ (linkWith R i) rfl fun t ht j _ => ?_
  by_cases hj : R i j
  · have hkj : k ≠ j := fun heq => hR (heq ▸ hj)
    have hki : k ≠ i := fun heq => hown heq.symm j (heq ▸ hj)
    rw [linkWith, if_pos hj, link_other hki hkj, ht]
  · rw [linkWith, if_neg hj, ht]

theorem linkAll_last (hR : R i k) (hik : i ≠ k) (hi : i < n) (hk : k < n) (hlast : ∀ i', i < i' → ¬ R i' k)
    (hown : k < i ∨ ∀ j, ¬ R k j) : linkAll R n s k = some i := by
  obtain ⟨before, after, hsplit⟩ := List.append_of_mem (List.mem_range.mpr hi)
  have hafter : ∀ i' ∈ after, i < i' := by
    have hsorted := List.pairwise_lt_range (n := n)
    rw [hsplit, List.pairwise_append, List.pairwise_cons] at hsorted
    exact hsorted.2.1.1
  rw [linkAll, hsplit, List.foldl_append, List.foldl_cons]
  refine List.foldlRecOn (motive := fun t => t k = some i) _ (turn R n) (turn_sought hR hik hk)
    fun t ht i' hi' => ?_
  rw [turn_keeps (hlast i' (hafter i' hi')) fun heq => ?_, ht]
  -- a later turn of `k` itself: it seeks no one
  obtain hlt | hnone := hown
  · exact absurd (heq ▸ hafter i' hi') (Nat.lt_asymm hlt)
  · exact hnone

end

/-! ## Groups and colours -/

section
variable {κ δ : Type*} (group : Nat → Option κ) (colour : Nat → δ) (plain : δ)

/-- Of one group and of different colours. -/
def Mates (i j : Nat) : Prop := group i ≠ none ∧ group i = group j ∧ colour i ≠ colour j

def Seeks (i j : Nat) : Prop := colour i ≠ plain ∧ Mates group colour i j

variable {group colour} in
theorem Mates.symm {i j : Nat} (h : Mates group colour i j) : Mates group colour j i :=
  ⟨h.2.1 ▸ h.1, h.2.1.symm, h.2.2.symm⟩

variable {group colour} in
theorem Mates.ne {i j : Nat} (h : Mates group colour i j) : i ≠ j := fun heq => h.2.2 (heq ▸ rfl)

variable {group colour plain} in
/-- Of two mates one is not plain. -/
theorem Mates.seeks {i j : Nat} (h : Mates group colour i j) :
    Seeks group colour plain i j ∨ Seeks group colour plain j i := by
  by_cases hi : colour i = plain
  · exact .inr ⟨fun hj => h.2.2 (hi.trans hj.symm), h.symm⟩
  · exact .inl ⟨hi, h⟩

variable [DecidableEq κ] [DecidableEq δ]

instance : DecidableRel (Mates group colour) := fun _ _ => inferInstanceAs (Decidable (_ ∧ _ ∧ _))

instance : DecidableRel (Seeks group colour plain) := fun _ _ => inferInstanceAs (Decidable (_ ∧ _))

/-- All of them, from no partners at all. -/
def partners (n : Nat) : Nat → Option Nat := linkAll (Seeks group colour plain) n fun _ => none

/-- Whoever is a partner has that one for a partner. -/
def Mutual (s : Nat → Option Nat) : Prop := ∀ k f, s k = some f → s f = some k

variable {group colour plain} {n i j k f : Nat}

theorem partners_mates (h : partners group colour plain n k = some f) : Mates group colour k f := by
  have hvalid : Valid (Seeks group colour plain) (partners group colour plain n) :=
    linkAll_valid fun k f hk => by cases hk
  obtain hseeks | hseeks := hvalid k f h
  · exact hseeks.2
  · exact hseeks.2.symm

theorem partners_isSome (h : Mates group colour k f) (hk : k < n) (hf : f < n) :
    ∃ g, partners group colour plain n k = some g := by
  obtain hseeks | hseeks : Seeks group colour plain k f ∨ Seeks group colour plain f k := h.seeks
  · exact Option.isSome_iff_exists.mp (linkAll_isSome hseeks h.ne hk hf).1
  · exact Option.isSome_iff_exists.mp (linkAll_isSome hseeks h.symm.ne hf hk).2

/-- Where only two of different colours are together, each has the other. -/
theorem mutual_of_no_third (hin : ∀ k, group k ≠ none → k < n)
    (hno : ∀ i j, Mates group colour i j → ∀ l, group l = group i → l = i ∨ l = j) :
    Mutual (partners group colour plain n) := by
  intro k f hk
  have hmates := partners_mates hk
  obtain ⟨g, hg⟩ : ∃ g, partners group colour plain n f = some g :=
    partners_isSome hmates.symm (hin f hmates.symm.1) (hin k hmates.1)
  have hback := partners_mates hg
  obtain rfl | rfl := hno k f hmates g (hback.2.1.symm.trans hmates.2.1.symm)
  · exact hg
  · exact absurd rfl hback.ne

/-- The last member of a group that is not plain is the partner of every member of another
colour than its own. -/
theorem partners_last {m : Nat} (hin : ∀ k, group k ≠ none → k < n) (hm : colour m ≠ plain)
    (hlast : ∀ i, m < i → group i = group m → colour i = plain) (hk : Mates group colour m k) :
    partners group colour plain n k = some m := by
  refine linkAll_last ⟨hm, hk⟩ hk.ne (hin m hk.1) (hin k hk.symm.1) (fun i hi hseeks => ?_) ?_
  · exact hseeks.1 (hlast i hi (hseeks.2.2.1.trans hk.2.1.symm))
  · by_cases hplain : colour k = plain
    · exact .inr fun j hseeks => hseeks.1 hplain
    · refine .inl (Nat.lt_of_le_of_ne (Nat.le_of_not_lt fun hlt => ?_) hk.ne.symm)
      exact hplain (hlast k hlt hk.2.1.symm)

theorem exists_last (hin : ∀ k, group k ≠ none → k < n) (hi : group i ≠ none) (hplain : colour i ≠ plain) :
    ∃ m, group m = group i ∧ colour m ≠ plain ∧ ∀ l, m < l → group l = group i → colour l = plain := by
  let P (m : Nat) : Prop := group m = group i ∧ colour m ≠ plain
  have hP : P (Nat.findGreatest P n) := Nat.findGreatest_spec (Nat.le_of_lt (hin i hi)) ⟨rfl, hplain⟩
  refine ⟨Nat.findGreatest P n, hP.1, hP.2, fun l hl hgroup => ?_⟩
  by_contra hne
  have hln : l ≤ n := Nat.le_of_lt (hin l (hgroup ▸ hi))
  exact Nat.findGreatest_is_greatest hl hln ⟨hgroup, hne⟩

/-- With a third member beside two of different colours, two members are left with one
partner, or one is whose partner has another. -/
theorem no_third_of_mutual (hin : ∀ k, group k ≠ none → k < n) (hmutual : Mutual (partners group colour plain n))
    {l : Nat} (hij : Mates group colour i j) (hl : group l = group i) : l = i ∨ l = j := by
  by_contra hthird
  obtain ⟨hli, hlj⟩ := not_or.mp hthird
  obtain ⟨m, hgroup, hm, hlast⟩ : ∃ m, group m = group i ∧ colour m ≠ plain ∧
      ∀ l, m < l → group l = group i → colour l = plain := by
    by_cases hi : colour i = plain
    · have hj : colour j ≠ plain := fun hj => hij.2.2 (hi.trans hj.symm)
      rw [hij.2.1]
      exact exists_last hin hij.symm.1 hj
    · exact exists_last hin hij.1 hi
  -- every member of another colour than `m` has `m`, so there is only one of them
  have hnone : group m ≠ none := hgroup ▸ hij.1
  have hhas : ∀ k, group k = group i → colour k ≠ colour m → partners group colour plain n k = some m :=
    fun k hk hne => partners_last hin hm (hgroup.symm ▸ hlast) ⟨hnone, hgroup.trans hk.symm, hne.symm⟩
  have honly : ∀ k k', group k = group i → group k' = group i → colour k ≠ colour m → colour k' ≠ colour m →
      k = k' := by
    intro k k' hk hk' hne hne'
    have hback := hmutual k m (hhas k hk hne)
    rw [hmutual k' m (hhas k' hk' hne')] at hback
    exact (Option.some.inj hback).symm
  -- the one of them among `i` and `j`, and a member beside it and `m`
  obtain ⟨k, hk, hkm⟩ : ∃ k, group k = group i ∧ colour k ≠ colour m := by
    by_cases hi : colour i = colour m
    · exact ⟨j, hij.2.1.symm, fun hj => hij.2.2 (hi.trans hj.symm)⟩
    · exact ⟨i, rfl, hi⟩
  obtain ⟨x, hx, hxm, hxk⟩ : ∃ x, group x = group i ∧ x ≠ m ∧ x ≠ k := by
    by_contra hno
    have hone : ∀ x, group x = group i → x = m ∨ x = k := by
      intro x hx
      by_contra hx'
      exact hno ⟨x, hx, not_or.mp hx'⟩
    have hi := hone i rfl
    have hj := hone j hij.2.1.symm
    have hl := hone l hl
    have hne := hij.ne
    omega
  have hcolour : colour x = colour m := by
    by_contra hne
    exact hxk (honly x k hx hk hne hkm)
  have hmates : Mates group colour x k := ⟨hx ▸ hij.1, hx.trans hk.symm, fun heq => hkm (heq ▸ hcolour)⟩
  obtain ⟨g, hg⟩ : ∃ g, partners group colour plain n x = some g :=
    partners_isSome hmates (hin x hmates.1) (hin k hmates.symm.1)
  have hgm := partners_mates hg
  obtain rfl : g = k := honly g k (hgm.2.1.symm.trans hx) hk (fun heq => hgm.2.2 (hcolour.trans heq.symm)) hkm
  have hboth := hmutual x g hg
  rw [hhas g hk hkm] at hboth
  exact hxm (Option.some.inj hboth).symm

theorem mutual_iff (hin : ∀ k, group k ≠ none → k < n) :
    Mutual (partners group colour plain n) ↔
      ∀ i j, Mates group colour i j → ∀ l, group l = group i → l = i ∨ l = j :=
  ⟨fun hmutual _ _ hij _ hl => no_third_of_mutual hin hmutual hij hl, mutual_of_no_third hin⟩

end

end Partners
