import Mathlib.Data.List.Pairwise

/-
  A store and writes laid over it.

  A write says at each address what it puts there, if anything: `w a = some b`.
  Writes are laid in order, so at each address the last one that sets it stands.
  What reaches an address is read off in two steps:

    1. `layAll_of_none` — where no write sets it, the store's own value.
    2. `layAll_of_last` — where a write does and none after it, that write's value;
       `layAll_of_mem` where the writes are apart, in whatever order.

  `layAll_skip` leaves a write out that does not set the address.
-/

set_option autoImplicit false

namespace Overlay

variable {α β : Type*}

def lay (m : α → β) (w : α → Option β) : α → β := fun a => (w a).getD (m a)

def layAll (m : α → β) (ws : List (α → Option β)) : α → β := ws.foldl lay m

/-- No address is set by both. -/
def Apart (u v : α → Option β) : Prop := ∀ a, u a = none ∨ v a = none

theorem lay_of_none {m : α → β} {w : α → Option β} {a : α} (h : w a = none) : lay m w a = m a := by
  rw [lay, h, Option.getD_none]

theorem lay_of_some {m : α → β} {w : α → Option β} {a : α} {b : β} (h : w a = some b) : lay m w a = b := by
  rw [lay, h, Option.getD_some]

theorem layAll_append (m : α → β) (us vs : List (α → Option β)) :
    layAll m (us ++ vs) = layAll (layAll m us) vs :=
  List.foldl_append

/-- Items that make a write or none, taken one by one. -/
theorem layAll_filterMap_cons {ι : Type*} (f : ι → Option (α → Option β)) (m : α → β) (i : ι) (is : List ι) :
    layAll m ((i :: is).filterMap f) = layAll (layAll m (f i).toList) (is.filterMap f) := by
  rw [← layAll_append, List.filterMap_cons]
  cases f i <;> rfl

theorem layAll_of_none {a : α} : ∀ (ws : List (α → Option β)) (m : α → β),
    (∀ w ∈ ws, w a = none) → layAll m ws a = m a
  | [], _, _ => rfl
  | w :: ws, m, h => by
    have hws : ∀ v ∈ ws, v a = none := fun v hv => h v (List.mem_cons_of_mem w hv)
    calc layAll m (w :: ws) a = layAll (lay m w) ws a := rfl
      _ = lay m w a := layAll_of_none ws _ hws
      _ = m a := lay_of_none (h w List.mem_cons_self)

theorem layAll_of_last {m : α → β} {us vs : List (α → Option β)} {w : α → Option β} {a : α} {b : β}
    (ha : w a = some b) (hvs : ∀ v ∈ vs, v a = none) : layAll m (us ++ w :: vs) a = b := by
  rw [layAll_append]
  calc layAll (layAll m us) (w :: vs) a = layAll (lay (layAll m us) w) vs a := rfl
    _ = lay (layAll m us) w a := layAll_of_none vs _ hvs
    _ = b := lay_of_some ha

theorem layAll_of_mem {m : α → β} {ws : List (α → Option β)} {w : α → Option β} {a : α} {b : β}
    (h : ws.Pairwise Apart) (hw : w ∈ ws) (ha : w a = some b) : layAll m ws a = b := by
  obtain ⟨us, vs, rfl⟩ := List.append_of_mem hw
  apply layAll_of_last ha
  intro v hv
  have hwv := (List.pairwise_cons.mp (List.pairwise_append.mp h).2.1).1 v hv
  apply (hwv a).resolve_left
  rw [ha]
  exact Option.some_ne_none b

/-- A write that does not set the address can be left out. -/
theorem layAll_skip {us vs : List (α → Option β)} {w : α → Option β} {a : α} (h : w a = none) :
    ∀ m : α → β, layAll m (us ++ w :: vs) a = layAll m (us ++ vs) a := by
  have hcongr : ∀ (ws : List (α → Option β)) (m m' : α → β), m a = m' a → layAll m ws a = layAll m' ws a := by
    intro ws
    induction ws with
    | nil => exact fun m m' hm => hm
    | cons v ws ih =>
      intro m m' hm
      apply ih
      rw [lay, lay, hm]
  intro m
  rw [layAll_append, layAll_append]
  exact hcongr vs _ _ (lay_of_none h)

end Overlay
