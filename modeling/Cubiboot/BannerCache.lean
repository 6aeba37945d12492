import Mathlib.Tactic.Common
import Cubiboot.Lib.Memo
import Cubiboot.Entry

/-
  The banner cache in ARAM (`tweaks.c`): a ring of 1024 entries, each with an
  ARAM area of its own, searched by key.

  What is proved:
    1. `areas_disjoint` — the areas of two entries never overlap.
    2. `claim_ok`, `store_ok`, `commit_ok` — what a put does in three moves (take
       the next entry, fill its area, raise its valid flag) keeps the cache a
       faithful record of what was last stored under each key.
    3. `bnrCachePut_ok`, `bnrCacheGet_latest` — so do puts and gets whose
       transfers are done before they return.

  Correspondence (C ↔ Lean):
    `BNR` as the bytes a transfer moves        ↔ `BnrImage`
    `bnr_cache_entry_t`, `bnr_cache`, `bnr_cache_next_index`, `bnr_cache_broken`
                                               ↔ `BnrCacheEntry`, `BnrCache`
    `bnr_cache_key`, `bnr_cache_entry_matches` ↔ `bnrCacheKey`, `BnrCacheEntry.Matches`
    `bnr_cache_get`, `bnr_cache_put`           ↔ `bnrCacheGet`, `bnrCachePut`
-/

set_option autoImplicit false

namespace Cubiboot

/-! ## A banner as bytes -/

/-- `sizeof(BNR)`. -/
def bnrSize : Nat := 0x1FA0

abbrev BnrImage := Fin bnrSize → UInt8

def BnrImage.slice (b : BnrImage) (start len : Nat) : List UInt8 :=
  (List.range len).map fun i => if h : start + i < bnrSize then b ⟨start + i, h⟩ else 0

def bnrPixeldataLen : Nat := 96 * 32 * 2

/-- The fields of `BNR` an entry takes over, at their offsets. -/
def BnrImage.bnr (b : BnrImage) : Bnr where
  magic := b.slice 0 4
  pixelData := b.slice 0x20 bnrPixeldataLen
  desc := ⟨b.slice 0x1820 32, b.slice 0x1840 32, b.slice 0x1860 64, b.slice 0x18A0 64, b.slice 0x18E0 128⟩

/-! ## The ring -/

def bnrCacheSize : Nat := 1024

structure BnrCacheEntry where
  key : UInt32
  aramOffset : Nat
  valid : Bool
  deriving DecidableEq, Repr

/-- `bnr_cache_entry_matches`. -/
def BnrCacheEntry.Matches (e : BnrCacheEntry) (key : UInt32) : Bool := e.valid && e.key == key

structure BnrCache where
  entries : Fin bnrCacheSize → BnrCacheEntry
  nextIndex : Fin bnrCacheSize
  broken : Bool

def BnrCache.fresh : BnrCache := ⟨fun _ => ⟨0, 0, false⟩, ⟨0, by decide⟩, false⟩

def fnvOffset : UInt32 := 2166136261
def fnvPrime : UInt32 := 16777619

/-- FNV-1a over the path. -/
def bnrCacheKey (path : Path) : UInt32 := path.foldl (fun h c => (h ^^^ c.toUInt32) * fnvPrime) fnvOffset

/-- The entry the search stops at. -/
def BnrCache.find (c : BnrCache) (key : UInt32) : Option (Fin bnrCacheSize) :=
  (List.finRange bnrCacheSize).find? fun i => (c.entries i).Matches key

/-- The area of entry `i`. -/
@[irreducible] def aramArea (i : Fin bnrCacheSize) : Nat := 16 * 1024 * 1024 - bnrSize * (i + 1)

/-- The next entry, taken for `key` and not yet valid. -/
def BnrCache.claim (c : BnrCache) (key : UInt32) : BnrCache :=
  { c with entries := Function.update c.entries c.nextIndex ⟨key, aramArea c.nextIndex, false⟩ }

/-- Its store is done. -/
def BnrCache.commit (c : BnrCache) : BnrCache :=
  { c with
    entries := Function.update c.entries c.nextIndex { c.entries c.nextIndex with valid := true }
    nextIndex := ⟨(c.nextIndex + 1) % bnrCacheSize, Nat.mod_lt _ (by decide)⟩ }

/-! ## ARAM -/

abbrev Aram := Nat → UInt8

/-- A banner in main memory copied to ARAM. -/
def Aram.store (a : Aram) (p : Nat) (b : BnrImage) : Aram :=
  fun q => if h : p ≤ q ∧ q < p + bnrSize then b ⟨q - p, by omega⟩ else a q

/-- The banner an ARAM area holds. -/
def Aram.fetch (a : Aram) (p : Nat) : BnrImage := fun i => a (p + i)

theorem fetch_store (a : Aram) (p : Nat) (b : BnrImage) : (a.store p b).fetch p = b := by
  funext i
  have hi : p ≤ p + i.val ∧ p + i.val < p + bnrSize := by omega
  simp only [Aram.fetch, Aram.store, hi, and_self, dite_true]
  congr 1
  ext
  simp

theorem fetch_store_other (a : Aram) {p q : Nat} (b : BnrImage) (h : p + bnrSize ≤ q ∨ q + bnrSize ≤ p) :
    (a.store p b).fetch q = a.fetch q := by
  funext i
  have hi : ¬ (p ≤ q + i.val ∧ q + i.val < p + bnrSize) := by omega
  simp only [Aram.fetch, Aram.store, hi, dite_false]

theorem aramArea_eq (i : Fin bnrCacheSize) : aramArea i = 16777216 - 8096 * (i.val + 1) := by
  unfold aramArea
  rfl

theorem areas_disjoint {i j : Fin bnrCacheSize} (h : i ≠ j) :
    aramArea i + bnrSize ≤ aramArea j ∨ aramArea j + bnrSize ≤ aramArea i := by
  have hne : i.val ≠ j.val := fun he => h (Fin.ext he)
  have hi : i.val < 1024 := i.isLt
  have hj : j.val < 1024 := j.isLt
  have hsize : bnrSize = 8096 := rfl
  have hai := aramArea_eq i
  have haj := aramArea_eq j
  omega

/-! ## Puts and gets whose transfers are done before they return -/

def bnrCacheGet (c : BnrCache) (aram : Aram) (key : UInt32) : Option BnrImage :=
  if c.broken then none else (c.find key).map fun i => aram.fetch (c.entries i).aramOffset

def bnrCachePut (c : BnrCache) (aram : Aram) (key : UInt32) (b : BnrImage) : BnrCache × Aram :=
  if c.broken then (c, aram)
  else
    match c.find key with
    | some _ => (c, aram)
    | none => ((c.claim key).commit, aram.store (aramArea c.nextIndex) b)

/-! ## What the cache remembers -/

/-- The key an entry may be read for. -/
def BnrCache.holds (c : BnrCache) (i : Fin bnrCacheSize) : Option UInt32 :=
  if (c.entries i).valid then some (c.entries i).key else none

theorem matches_iff (c : BnrCache) (i : Fin bnrCacheSize) (key : UInt32) :
    (c.entries i).Matches key = true ↔ c.holds i = some key := by
  unfold BnrCacheEntry.Matches BnrCache.holds
  split <;> simp_all

theorem find_some {c : BnrCache} {key : UInt32} {i : Fin bnrCacheSize} (h : c.find key = some i) :
    c.holds i = some key := by
  unfold BnrCache.find at h
  have hm := List.find?_some h
  exact (matches_iff c i key).mp hm

theorem find_none {c : BnrCache} {key : UInt32} (h : c.find key = none) (i : Fin bnrCacheSize) :
    c.holds i ≠ some key := by
  intro hi
  have hno := List.find?_eq_none.mp h i (List.mem_finRange i)
  exact hno ((matches_iff c i key).mpr hi)

theorem holds_claim (c : BnrCache) (key : UInt32) :
    (c.claim key).holds = Function.update c.holds c.nextIndex none := by
  funext i
  by_cases hi : i = c.nextIndex
  · subst hi
    simp [BnrCache.holds, BnrCache.claim]
  · simp [BnrCache.holds, BnrCache.claim, Function.update_of_ne hi]

theorem holds_commit (c : BnrCache) :
    c.commit.holds = Function.update c.holds c.nextIndex (some (c.entries c.nextIndex).key) := by
  funext i
  by_cases hi : i = c.nextIndex
  · subst hi
    simp [BnrCache.holds, BnrCache.commit]
  · simp [BnrCache.holds, BnrCache.commit, Function.update_of_ne hi]

/-- What each area holds. -/
def aramContent (aram : Aram) (i : Fin bnrCacheSize) : BnrImage := aram.fetch (aramArea i)

/-- The cache as a record of `latest`, the banner last stored under each key. An
entry no put has reached has no area. -/
structure BnrCacheOk (c : BnrCache) (aram : Aram) (latest : UInt32 → Option BnrImage) : Prop where
  faithful : Memo.Faithful c.holds (aramContent aram) latest
  area : ∀ i, (c.entries i).aramOffset = aramArea i ∨
    ((c.entries i).aramOffset = 0 ∧ (c.entries i).valid = false)

variable {c : BnrCache} {aram : Aram} {latest : UInt32 → Option BnrImage}

theorem fresh_ok (aram : Aram) (latest : UInt32 → Option BnrImage) : BnrCacheOk .fresh aram latest :=
  ⟨⟨fun hi => by simp [BnrCache.holds, BnrCache.fresh] at hi,
    fun hi => by simp [BnrCache.holds, BnrCache.fresh] at hi⟩, fun _ => .inr ⟨rfl, rfl⟩⟩

theorem BnrCacheOk.area_of_holds (h : BnrCacheOk c aram latest) {i : Fin bnrCacheSize} {key : UInt32}
    (hi : c.holds i = some key) : (c.entries i).aramOffset = aramArea i := by
  obtain ha | ⟨-, hv⟩ := h.area i
  · exact ha
  · simp [BnrCache.holds, hv] at hi

theorem claim_ok (h : BnrCacheOk c aram latest) (key : UInt32) : BnrCacheOk (c.claim key) aram latest := by
  refine ⟨?_, fun i => ?_⟩
  · rw [holds_claim]
    exact h.faithful.drop c.nextIndex
  · by_cases hi : i = c.nextIndex
    · subst hi
      simp [BnrCache.claim]
    · simpa [BnrCache.claim, Function.update_of_ne hi] using h.area i

/-- An area may be written while its entry is not valid. -/
theorem store_ok (h : BnrCacheOk c aram latest) {i : Fin bnrCacheSize} (hi : c.holds i = none)
    (b : BnrImage) : BnrCacheOk c (aram.store (aramArea i) b) latest := by
  refine ⟨h.faithful.overwrite hi fun j hj => ?_, h.area⟩
  exact fetch_store_other aram b (areas_disjoint (Ne.symm hj))

theorem commit_ok (h : BnrCacheOk c aram latest) (hnot : ∀ i, c.holds i ≠ some (c.entries c.nextIndex).key)
    (harea : (c.entries c.nextIndex).aramOffset = aramArea c.nextIndex) :
    BnrCacheOk c.commit aram
      (Function.update latest (c.entries c.nextIndex).key (some (aramContent aram c.nextIndex))) := by
  refine ⟨?_, fun i => ?_⟩
  · rw [holds_commit]
    exact h.faithful.fill hnot c.nextIndex
  · by_cases hi : i = c.nextIndex
    · subst hi
      simp [BnrCache.commit, harea]
    · simpa [BnrCache.commit, Function.update_of_ne hi] using h.area i

@[simp] theorem claim_nextIndex (c : BnrCache) (key : UInt32) : (c.claim key).nextIndex = c.nextIndex := rfl

@[simp] theorem claim_broken (c : BnrCache) (key : UInt32) : (c.claim key).broken = c.broken := rfl

@[simp] theorem commit_broken (c : BnrCache) : c.commit.broken = c.broken := rfl

@[simp] theorem claim_entry (c : BnrCache) (key : UInt32) :
    (c.claim key).entries c.nextIndex = ⟨key, aramArea c.nextIndex, false⟩ := by
  simp [BnrCache.claim]

/-- The entry just claimed may not be read for anything. -/
theorem claim_holds_next (c : BnrCache) (key : UInt32) : (c.claim key).holds c.nextIndex = none := by
  rw [holds_claim, Function.update_self]

/-- What no entry held, none holds after a claim. -/
theorem claim_holds_ne {key : UInt32} (h : ∀ i, c.holds i ≠ some key) (key' : UInt32)
    (i : Fin bnrCacheSize) : (c.claim key').holds i ≠ some key := by
  rw [holds_claim]
  by_cases hi : i = c.nextIndex
  · rw [hi, Function.update_self]
    exact Option.some_ne_none key ∘ Eq.symm
  · rw [Function.update_of_ne hi]
    exact h i

/-- A get answers with the banner last stored under the key. -/
theorem bnrCacheGet_latest (h : BnrCacheOk c aram latest) {key : UInt32} {b : BnrImage}
    (hb : bnrCacheGet c aram key = some b) : latest key = some b := by
  unfold bnrCacheGet at hb
  split at hb
  · cases hb
  · obtain ⟨i, hi, rfl⟩ := Option.map_eq_some_iff.mp hb
    have hheld := find_some hi
    rw [h.area_of_holds hheld]
    exact h.faithful.latest hheld

/-- What a put leaves stored. -/
def putLatest (c : BnrCache) (key : UInt32) (b : BnrImage) (latest : UInt32 → Option BnrImage) :
    UInt32 → Option BnrImage :=
  if c.broken ∨ (c.find key).isSome then latest else Function.update latest key (some b)

theorem bnrCachePut_ok (h : BnrCacheOk c aram latest) (key : UInt32) (b : BnrImage) :
    BnrCacheOk (bnrCachePut c aram key b).1 (bnrCachePut c aram key b).2 (putLatest c key b latest) := by
  unfold bnrCachePut putLatest
  cases hbr : c.broken with
  | true => simpa using h
  | false =>
    cases hf : c.find key with
    | some i => simpa using h
    | none =>
      have hstored := store_ok (claim_ok h key) (claim_holds_next c key) b
      have hdone := commit_ok hstored
      simp only [claim_nextIndex, claim_entry, aramContent, fetch_store] at hdone
      simpa using hdone (claim_holds_ne (find_none hf) key) trivial

end Cubiboot
