import Mathlib.Data.Finset.Basic
import Mathlib.Data.Finset.Lattice.Lemmas
import Mathlib.Data.Finset.SDiff
import Mathlib.Tactic.Common

/-
  Things that are handed out and given back, and who has them.

  A `Book` is the set of things that are out, those of them the present holder has taken,
  and whether something has been given back that was out with another holder. `Owes H b`
  says that besides the holder's own exactly `H` is out, and nobody's has been given back.

  The rules:
    1. `Owes.start`, `Owes.take`, `Owes.give_own`, `give_idle` — a holder that takes what
       is free and gives back its own keeps its account; what is not out may be given back.
    2. `Owes.settled_iff` — what was out is out again when the holder has nothing left.
    3. `giveAll_idle`, `giveAll_strays` — giving everything back does nothing where nothing
       is out, and takes from others where the holder has none of what is out.
-/

set_option autoImplicit false

namespace Leases

variable {η : Type*} [DecidableEq η]

structure Book (η : Type*) where
  out : Finset η
  own : Finset η
  stray : Bool

def Book.start (out : Finset η) : Book η := ⟨out, ∅, false⟩

def Book.take (b : Book η) (h : η) : Book η := { b with out := insert h b.out, own := insert h b.own }

def Book.give (b : Book η) (h : η) : Book η where
  out := b.out.erase h
  own := b.own.erase h
  stray := b.stray || decide (h ∈ b.out ∧ h ∉ b.own)

structure Owes (H : Finset η) (b : Book η) : Prop where
  out : b.out = H ∪ b.own
  apart : Disjoint H b.own
  stray : b.stray = false

variable {H : Finset η} {b : Book η} {h : η}

theorem owes_start (H : Finset η) : Owes H (Book.start H) :=
  ⟨(Finset.union_empty H).symm, Finset.disjoint_empty_right H, rfl⟩

theorem Owes.take (hb : Owes H b) (hfree : h ∉ b.out) : Owes H (b.take h) where
  out := by
    rw [Book.take, hb.out, Finset.union_insert]
  apart := by
    have hH : h ∉ H := fun hh => hfree (hb.out ▸ Finset.mem_union_left _ hh)
    exact Finset.disjoint_insert_right.mpr ⟨hH, hb.apart⟩
  stray := hb.stray

theorem Owes.give_own (hb : Owes H b) (hown : h ∈ b.own) : Owes H (b.give h) where
  out := by
    have hH : h ∉ H := fun hh => Finset.disjoint_left.mp hb.apart hh hown
    rw [Book.give, hb.out, Finset.erase_union_distrib, Finset.erase_eq_of_notMem hH]
  apart := hb.apart.mono_right (Finset.erase_subset h b.own)
  stray := by
    rw [Book.give, hb.stray, decide_eq_false fun hh => hh.2 hown]
    rfl

/-- What is not out may be given back. -/
theorem give_idle (hb : b.own ⊆ b.out) (hout : h ∉ b.out) : b.give h = b := by
  rw [Book.give, Finset.erase_eq_of_notMem hout, Finset.erase_eq_of_notMem fun hh => hout (hb hh),
    decide_eq_false fun hh => hout hh.1, Bool.or_false]

theorem Owes.own_subset (hb : Owes H b) : b.own ⊆ b.out := hb.out ▸ Finset.subset_union_right

theorem Owes.settled_iff (hb : Owes H b) : b.out = H ↔ b.own = ∅ := by
  rw [hb.out, Finset.union_eq_left]
  constructor
  · intro hsub
    exact (Finset.disjoint_self_iff_empty b.own).mp (hb.apart.mono_left hsub)
  · exact fun h0 => h0 ▸ Finset.empty_subset H

/-! ## Giving everything back -/

def Book.giveAll (b : Book η) (hs : List η) : Book η := hs.foldl Book.give b

theorem giveAll_idle (hb : b.own ⊆ b.out) : ∀ {hs : List η}, (∀ h ∈ hs, h ∉ b.out) → b.giveAll hs = b
  | [], _ => rfl
  | h :: hs, hidle => by
    rw [Book.giveAll, List.foldl_cons, give_idle hb (hidle h List.mem_cons_self)]
    exact giveAll_idle hb fun g hg => hidle g (List.mem_cons_of_mem h hg)

theorem giveAll_stray : ∀ (hs : List η) {b : Book η}, b.stray = true → (b.giveAll hs).stray = true
  | [], _, hb => hb
  | h :: hs, b, hb => giveAll_stray hs (b := b.give h) (by rw [Book.give, hb, Bool.true_or])

theorem giveAll_strays : ∀ {hs : List η} {b : Book η}, b.own = ∅ → (∃ h ∈ hs, h ∈ b.out) →
    (b.giveAll hs).stray = true
  | h :: hs, b, hown, hex => by
    by_cases hh : h ∈ b.out
    · apply giveAll_stray hs (b := b.give h)
      have hown' : h ∉ b.own := by
        rw [hown]
        exact Finset.notMem_empty h
      rw [Book.give, decide_eq_true ⟨hh, hown'⟩, Bool.or_true]
    · obtain ⟨g, hg, hgout⟩ := hex
      have hne : g ≠ h := fun heq => hh (heq ▸ hgout)
      apply giveAll_strays (b := b.give h)
      · rw [Book.give, hown, Finset.erase_empty]
      · exact ⟨g, (List.mem_cons.mp hg).resolve_left hne, Finset.mem_erase.mpr ⟨hne, hgout⟩⟩

end Leases
