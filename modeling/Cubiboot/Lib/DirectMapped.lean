import Mathlib.Tactic.TypeStar

/-
  Direct-mapped tables in front of a memory.

  A memory holds a value at every key. A table keeps whole blocks of it: the
  block of a key has one slot, fixed by the block, and the slot's tag says
  which block it holds at the moment. `Agrees` is the coherence of the two:
  whatever the table holds is what the memory holds.

  The rules say what keeps it: emptying a slot, filling a slot from the
  memory, a change of the memory outside the blocks held, and a change made to
  the table and the memory alike (`agrees_patch`).
-/

namespace DirectMapped

/-- How keys are laid out: the block of a key, its place in the block, the slot
of a block, and a tag that is no key's block. -/
structure Layout (κ β S ω : Type*) where
  block : κ → β
  offset : κ → ω
  slot : β → S
  empty : β
  block_ne_empty : ∀ k, block k ≠ empty
  key_ext : ∀ k k', block k = block k' → offset k = offset k' → k = k'

/-- The table: per slot a tag and the values of one block. -/
structure Table (β S ω V : Type*) where
  tag : S → β
  data : S → ω → V

variable {κ β S ω V : Type*} (L : Layout κ β S ω)

/-- The table holds the block of `k`. -/
def Holds (t : Table β S ω V) (k : κ) : Prop := t.tag (L.slot (L.block k)) = L.block k

/-- What the table has at the key's place, held or not. -/
def value (t : Table β S ω V) (k : κ) : V := t.data (L.slot (L.block k)) (L.offset k)

/-- Whatever the table holds is what the memory holds. -/
def Agrees (t : Table β S ω V) (mem : κ → V) : Prop := ∀ k, Holds L t k → value L t k = mem k

variable {L} {t t' : Table β S ω V} {mem mem' : κ → V}

/-- A table of empty slots agrees with every memory. -/
theorem agrees_of_empty (h : ∀ s, t.tag s = L.empty) : Agrees L t mem := by
  intro k hk
  exact absurd ((h _).symm.trans hk).symm (L.block_ne_empty k)

/-- The memory may change wherever the table holds nothing. -/
theorem agrees_of_mem_eq (h : Agrees L t mem) (hm : ∀ k, Holds L t k → mem' k = mem k) :
    Agrees L t mem' := fun k hk => (h k hk).trans (hm k hk).symm

/-- A table that holds less, and what it holds unchanged, still agrees. -/
theorem agrees_of_less (h : Agrees L t mem)
    (hl : ∀ k, Holds L t' k → Holds L t k ∧ value L t' k = value L t k) : Agrees L t' mem := by
  intro k hk
  obtain ⟨hold, heq⟩ := hl k hk
  exact heq.trans (h k hold)

/-- One slot emptied, its data left as anything. -/
theorem agrees_emptied {s : S} (h : Agrees L t mem) (hs : t'.tag s = L.empty)
    (ht : ∀ s', s' ≠ s → t'.tag s' = t.tag s' ∧ t'.data s' = t.data s') : Agrees L t' mem := by
  apply agrees_of_less h
  intro k hk
  have hne : L.slot (L.block k) ≠ s := by
    intro he
    exact L.block_ne_empty k (hk.symm.trans (he ▸ hs))
  obtain ⟨htag, hdata⟩ := ht _ hne
  exact ⟨htag.symm.trans hk, by simp only [value, hdata]⟩

/-- One slot filled with its block's values in the memory. -/
theorem agrees_filled {b : β} (h : Agrees L t mem) (hb : t'.tag (L.slot b) = b)
    (hfill : ∀ k, L.block k = b → t'.data (L.slot b) (L.offset k) = mem k)
    (ht : ∀ s', s' ≠ L.slot b → t'.tag s' = t.tag s' ∧ t'.data s' = t.data s') :
    Agrees L t' mem := by
  intro k hk
  by_cases hs : L.slot (L.block k) = L.slot b
  · have hkb : L.block k = b := by rw [Holds, hs, hb] at hk; exact hk.symm
    have := hfill k hkb
    rwa [value, hs]
  · obtain ⟨htag, hdata⟩ := ht _ hs
    have hold : Holds L t k := htag.symm.trans hk
    exact (by simp only [value, hdata] : value L t' k = value L t k).trans (h k hold)

/-- The keys in `W` change in the table and in the memory alike, all of them in
the one block the slot holds; the rest of both stays. -/
theorem agrees_patch {W : κ → Prop} (h : Agrees L t mem) (htag : t'.tag = t.tag)
    (hin : ∀ k, W k → Holds L t k → value L t' k = mem' k)
    (hout : ∀ k, ¬ W k → Holds L t k → value L t' k = value L t k ∧ mem' k = mem k) :
    Agrees L t' mem' := by
  intro k hk
  have hold : Holds L t k := by rwa [Holds, htag] at hk
  by_cases hw : W k
  · exact hin k hw hold
  · obtain ⟨hv, hm⟩ := hout k hw hold
    rw [hv, hm]
    exact h k hold

end DirectMapped
