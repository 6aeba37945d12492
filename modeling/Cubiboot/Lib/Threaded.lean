import Mathlib.Data.List.Basic
import Mathlib.Data.List.Nodup
import Mathlib.Tactic.TypeStar

/-
  Doubly linked lists, the links being two functions on nodes.

  `Threaded L p hs q` says that the nodes `hs` are linked in that order, `p`
  before the first and `q` after the last. It speaks only of the links of `hs`
  (`threaded_congr`). The rules for changing a list are two: give its last node
  another successor (`threaded_relast`), or its first another predecessor
  (`threaded_refirst`); with `threaded_append` these make every cut and splice
  (`threaded_remove`, `threaded_insert`).
-/

set_option autoImplicit false

namespace DList

structure Links (α : Type*) where
  prev : α → α
  next : α → α

variable {α : Type*}

def Threaded (L : Links α) : α → List α → α → Prop
  | _, [], _ => True
  | p, h :: hs, q => L.prev h = p ∧ L.next h = hs.headD q ∧ Threaded L h hs q

variable {L L' : Links α} {p q p' q' : α} {as bs : List α}

@[simp] theorem threaded_nil : Threaded L p [] q := trivial

@[simp] theorem threaded_cons (h : α) (hs : List α) :
    Threaded L p (h :: hs) q ↔ L.prev h = p ∧ L.next h = hs.headD q ∧ Threaded L h hs q := Iff.rfl

theorem headD_append (as bs : List α) (q : α) : (as ++ bs).headD q = as.headD (bs.headD q) := by
  cases as <;> rfl

theorem threaded_append :
    Threaded L p (as ++ bs) q ↔ Threaded L p as (bs.headD q) ∧ Threaded L (as.getLastD p) bs q := by
  induction as generalizing p with
  | nil => exact (and_iff_right trivial).symm
  | cons h hs ih =>
    rw [List.cons_append, threaded_cons, threaded_cons, ih, headD_append, List.getLastD_cons, and_assoc, and_assoc]

/-- The last node is linked to what comes after. -/
theorem threaded_last {l : α} (h : Threaded L p as q) (hl : as.getLast? = some l) : L.next l = q := by
  induction as generalizing p with
  | nil => cases hl
  | cons a as ih =>
    obtain ⟨-, h2, h3⟩ := h
    cases as with
    | nil =>
      obtain rfl : a = l := Option.some.inj hl
      exact h2
    | cons b bs =>
      rw [List.getLast?_cons_cons] at hl
      exact ih h3 hl

/-- Only the links of the nodes matter. -/
theorem threaded_congr (h : Threaded L p as q) (hprev : ∀ a ∈ as, L'.prev a = L.prev a)
    (hnext : ∀ a ∈ as, L'.next a = L.next a) : Threaded L' p as q := by
  induction as generalizing p with
  | nil => trivial
  | cons a as ih =>
    obtain ⟨h1, h2, h3⟩ := h
    refine ⟨(hprev a List.mem_cons_self).trans h1, (hnext a List.mem_cons_self).trans h2, ih h3 ?_ ?_⟩
    · intro b hb
      exact hprev b (List.mem_cons_of_mem a hb)
    · intro b hb
      exact hnext b (List.mem_cons_of_mem a hb)

/-- The last node gets another successor. -/
theorem threaded_relast (h : Threaded L p as q) (hnd : as.Nodup) (hprev : ∀ a ∈ as, L'.prev a = L.prev a)
    (hnext : ∀ a ∈ as, as.getLast? ≠ some a → L'.next a = L.next a)
    (hlast : ∀ a, as.getLast? = some a → L'.next a = q') : Threaded L' p as q' := by
  induction as generalizing p with
  | nil => trivial
  | cons a as ih =>
    obtain ⟨h1, h2, h3⟩ := h
    obtain ⟨hnot, hnd'⟩ := List.nodup_cons.mp hnd
    refine ⟨(hprev a List.mem_cons_self).trans h1, ?_, ?_⟩
    · cases as with
      | nil => exact hlast a rfl
      | cons b bs =>
        refine (hnext a List.mem_cons_self fun he => ?_).trans h2
        rw [List.getLast?_cons_cons] at he
        exact hnot (List.mem_of_getLast? he)
    · cases as with
      | nil => trivial
      | cons b bs =>
        simp only [List.getLast?_cons_cons] at hnext hlast
        apply ih h3 hnd' (fun c hc => hprev c (List.mem_cons_of_mem a hc))
        · intro c hc
          exact hnext c (List.mem_cons_of_mem a hc)
        · exact hlast

/-- The first node gets another predecessor. -/
theorem threaded_refirst (h : Threaded L p bs q) (hnd : bs.Nodup)
    (hprev : ∀ b ∈ bs, bs.head? ≠ some b → L'.prev b = L.prev b) (hnext : ∀ b ∈ bs, L'.next b = L.next b)
    (hfirst : ∀ b, bs.head? = some b → L'.prev b = p') : Threaded L' p' bs q := by
  cases bs with
  | nil => trivial
  | cons b bs =>
    obtain ⟨-, h2, h3⟩ := h
    obtain ⟨hnot, -⟩ := List.nodup_cons.mp hnd
    refine ⟨hfirst b rfl, (hnext b List.mem_cons_self).trans h2, threaded_congr h3 ?_ ?_⟩
    · intro c hc
      apply hprev c (List.mem_cons_of_mem b hc)
      intro he
      obtain rfl : b = c := Option.some.inj he
      exact hnot hc
    · intro c hc
      exact hnext c (List.mem_cons_of_mem b hc)

/-- The ends `as` and `bs` of a list are joined. -/
theorem threaded_join (ha : Threaded L p as q') (hb : Threaded L p' bs q) (hnda : as.Nodup) (hndb : bs.Nodup)
    (hprev : ∀ a ∈ as ++ bs, bs.head? ≠ some a → L'.prev a = L.prev a)
    (hnext : ∀ a ∈ as ++ bs, as.getLast? ≠ some a → L'.next a = L.next a)
    (hdisj : as.Disjoint bs)
    (hlast : ∀ a, as.getLast? = some a → L'.next a = bs.headD q)
    (hfirst : ∀ b, bs.head? = some b → L'.prev b = as.getLastD p) : Threaded L' p (as ++ bs) q := by
  rw [threaded_append]
  constructor
  · apply threaded_relast ha hnda
    · intro a hm
      apply hprev a (List.mem_append_left bs hm)
      intro he
      exact hdisj hm (List.mem_of_head? he)
    · intro a hm
      exact hnext a (List.mem_append_left bs hm)
    · exact hlast
  · apply threaded_refirst hb hndb
    · intro b hm
      exact hprev b (List.mem_append_right as hm)
    · intro b hm
      apply hnext b (List.mem_append_right as hm)
      intro he
      exact hdisj (List.mem_of_getLast? he) hm
    · exact hfirst

/-- A node is taken out: its neighbours are linked to each other. -/
theorem threaded_remove {x : α} (h : Threaded L p (as ++ x :: bs) q) (hnd : (as ++ x :: bs).Nodup)
    (hprev : ∀ a ∈ as ++ bs, bs.head? ≠ some a → L'.prev a = L.prev a)
    (hnext : ∀ a ∈ as ++ bs, as.getLast? ≠ some a → L'.next a = L.next a)
    (hlast : ∀ a, as.getLast? = some a → L'.next a = L.next x)
    (hfirst : ∀ b, bs.head? = some b → L'.prev b = L.prev x) : Threaded L' p (as ++ bs) q := by
  obtain ⟨ha, hp, hn, hb⟩ := threaded_append.mp h
  obtain ⟨hnda, hndx, hdisj⟩ := List.nodup_append.mp hnd
  apply threaded_join ha hb hnda (List.nodup_cons.mp hndx).2 hprev hnext
  · intro a hma hmb
    exact hdisj a hma a (List.mem_cons_of_mem x hmb) rfl
  · intro a hm
    rw [hlast a hm, hn]
  · intro b hm
    rw [hfirst b hm, hp]

/-- A node is put in between. -/
theorem threaded_insert {x : α} (h : Threaded L p (as ++ bs) q) (hnd : (as ++ x :: bs).Nodup)
    (hprev : ∀ a ∈ as ++ bs, bs.head? ≠ some a → L'.prev a = L.prev a)
    (hnext : ∀ a ∈ as ++ bs, as.getLast? ≠ some a → L'.next a = L.next a)
    (hlast : ∀ a, as.getLast? = some a → L'.next a = x)
    (hfirst : ∀ b, bs.head? = some b → L'.prev b = x)
    (hx : L'.prev x = as.getLastD p ∧ L'.next x = bs.headD q) : Threaded L' p (as ++ x :: bs) q := by
  obtain ⟨ha, hb⟩ := threaded_append.mp h
  obtain ⟨hnda, hndx, hdisj⟩ := List.nodup_append.mp hnd
  obtain ⟨-, hndb⟩ := List.nodup_cons.mp hndx
  rw [threaded_append]
  refine ⟨?_, hx.1, hx.2, ?_⟩
  · apply threaded_relast ha hnda
    · intro a hm
      apply hprev a (List.mem_append_left bs hm)
      intro he
      exact hdisj a hm a (List.mem_cons_of_mem x (List.mem_of_head? he)) rfl
    · intro a hm
      exact hnext a (List.mem_append_left bs hm)
    · exact hlast
  · apply threaded_refirst hb hndb
    · intro b hm
      exact hprev b (List.mem_append_right as hm)
    · intro b hm
      apply hnext b (List.mem_append_right as hm)
      intro he
      exact hdisj b (List.mem_of_getLast? he) b (List.mem_cons_of_mem x hm) rfl
    · exact hfirst

/-- The successor chain from the first node, `none` when it is longer than the
fuel; `q` ends it. -/
def walk [DecidableEq α] (L : Links α) (q : α) : Nat → α → Option (List α)
  | 0, _ => none
  | fuel + 1, h => if h = q then some [] else (walk L q fuel (L.next h)).map (h :: ·)

theorem walk_threaded [DecidableEq α] {hs : List α} (h : Threaded L p hs q) (hq : q ∉ hs) {fuel : Nat}
    (hfuel : hs.length < fuel) : walk L q fuel (hs.headD q) = some hs := by
  induction hs generalizing p fuel with
  | nil =>
    cases fuel with
    | zero => cases hfuel
    | succ fuel => exact if_pos rfl
  | cons a hs ih =>
    cases fuel with
    | zero => cases hfuel
    | succ fuel =>
      obtain ⟨-, hn, hrest⟩ := h
      have ha : a ≠ q := fun he => hq (he ▸ List.mem_cons_self)
      have hrec := ih hrest (fun hm => hq (List.mem_cons_of_mem a hm)) (Nat.lt_of_succ_lt_succ hfuel)
      show (if a = q then some [] else (walk L q fuel (L.next a)).map (a :: ·)) = some (a :: hs)
      rw [if_neg ha, hn, hrec]
      rfl

end DList
