import Mathlib.Tactic.TypeStar

/-
  Runs of a deterministic step function over a list of labels, and the one
  induction every invariant of this development goes through.

  `run step s ls` is the state after the labels `ls`. `Guarded step g s ls`
  says that each label of the run meets `g` in the state it is taken from: a
  run with a side condition on its steps, never on where it ends. The rules:

    1. `inv_run` — an invariant kept by every guarded step holds at the end of
       every guarded run, hence (`Guarded.upto`) in every state on the way.
    2. `exists_first_failure` — a run that is not guarded has a first label
       that fails the guard, after a guarded prefix.
    3. `always_iff_guarded` — a property that only failing steps spoil holds in
       every state of a run exactly when the run is guarded.
    4. `exists_turn` — what holds after a run and not before it was brought about by
       one of its steps.
    5. `drive_done` — a machine whose rank falls with every step is done when it
       has been driven that many steps.
-/

namespace Steps

variable {σ ι : Type*}

/-- The state after the labels, taken in order. -/
def run (step : σ → ι → σ) (s : σ) (ls : List ι) : σ := ls.foldl step s

/-- Every label of the run meets `g` in the state it is taken from. -/
def Guarded (step : σ → ι → σ) (g : σ → ι → Prop) : σ → List ι → Prop
  | _, [] => True
  | s, i :: ls => g s i ∧ Guarded step g (step s i) ls

instance decGuarded (step : σ → ι → σ) (g : σ → ι → Prop) [∀ s i, Decidable (g s i)] :
    ∀ (s : σ) (ls : List ι), Decidable (Guarded step g s ls)
  | _, [] => isTrue trivial
  | s, i :: ls => by
    have := decGuarded step g (step s i) ls
    exact inferInstanceAs (Decidable (g s i ∧ Guarded step g (step s i) ls))

section
variable {step : σ → ι → σ} {g : σ → ι → Prop} {s : σ}

@[simp] theorem run_nil : run step s [] = s := rfl

@[simp] theorem run_cons (i : ι) (ls : List ι) : run step s (i :: ls) = run step (step s i) ls := rfl

theorem run_append (ls ms : List ι) : run step s (ls ++ ms) = run step (run step s ls) ms :=
  List.foldl_append

@[simp] theorem guarded_nil : Guarded step g s [] := trivial

@[simp] theorem guarded_cons (i : ι) (ls : List ι) :
    Guarded step g s (i :: ls) ↔ g s i ∧ Guarded step g (step s i) ls := Iff.rfl

theorem guarded_append (ls ms : List ι) :
    Guarded step g s (ls ++ ms) ↔ Guarded step g s ls ∧ Guarded step g (run step s ls) ms := by
  induction ls generalizing s with
  | nil => simp
  | cons i ls ih => simp [ih, and_assoc]

/-- The states on the way are states at the end of a shorter guarded run. -/
theorem Guarded.upto {pre ls : List ι} (h : Guarded step g s ls) (hp : pre <+: ls) :
    Guarded step g s pre := by
  obtain ⟨post, rfl⟩ := hp
  exact ((guarded_append pre post).mp h).1

/-- The label after a prefix meets the guard in the state the prefix leads to. -/
theorem Guarded.at {pre post : List ι} {i : ι} (h : Guarded step g s (pre ++ i :: post)) :
    g (run step s pre) i :=
  ((guarded_cons i post).mp ((guarded_append pre (i :: post)).mp h).2).1

theorem Guarded.mono {g' : σ → ι → Prop} (hg : ∀ s i, g s i → g' s i) {ls : List ι}
    (h : Guarded step g s ls) : Guarded step g' s ls := by
  induction ls generalizing s with
  | nil => trivial
  | cons i ls ih => exact ⟨hg _ _ h.1, ih h.2⟩

theorem guarded_true (ls : List ι) : Guarded step (fun _ _ => True) s ls := by
  induction ls generalizing s with
  | nil => trivial
  | cons i ls ih => exact ⟨trivial, ih⟩

/-- What every guarded step keeps, every guarded run keeps. -/
theorem inv_run (Inv : σ → Prop) (hstep : ∀ s i, Inv s → g s i → Inv (step s i)) :
    ∀ {s : σ} {ls : List ι}, Inv s → Guarded step g s ls → Inv (run step s ls) := by
  intro s ls
  induction ls generalizing s with
  | nil => intro hs _; exact hs
  | cons i ls ih => intro hs h; exact ih (hstep s i hs h.1) h.2

/-- Under an invariant of all steps, guards that agree give the same runs. -/
theorem guarded_iff (Inv : σ → Prop) {g' : σ → ι → Prop} (hstep : ∀ s i, Inv s → Inv (step s i))
    (hg : ∀ s i, Inv s → (g s i ↔ g' s i)) {ls : List ι} (hs : Inv s) :
    Guarded step g s ls ↔ Guarded step g' s ls := by
  induction ls generalizing s with
  | nil => rfl
  | cons i ls ih => rw [guarded_cons, guarded_cons, hg s i hs, ih (hstep s i hs)]

/-- A verdict that a step leaves as it is or spoils, and spoils exactly when the
step fails `g`: at the end of a run it stands if it stood and no step failed. -/
theorem verdict_run (Inv F : σ → Prop) (hstep : ∀ s i, Inv s → Inv (step s i))
    (hF : ∀ s i, Inv s → (F (step s i) ↔ F s ∧ g s i)) {ls : List ι} (hs : Inv s) :
    F (run step s ls) ↔ F s ∧ Guarded step g s ls := by
  induction ls generalizing s with
  | nil => exact ⟨fun h => ⟨h, trivial⟩, fun h => h.1⟩
  | cons i ls ih => rw [run_cons, ih (hstep s i hs), hF s i hs, guarded_cons, and_assoc]

/-- A property that holds after a step exactly when the step meets `g` holds all
along exactly the guarded runs. -/
theorem always_iff_guarded (Inv P : σ → Prop) (hstep : ∀ s i, Inv s → Inv (step s i))
    (hP : ∀ s i, Inv s → P s → (P (step s i) ↔ g s i)) {ls : List ι} (hs : Inv s) (h0 : P s) :
    (∀ pre, pre <+: ls → P (run step s pre)) ↔ Guarded step g s ls := by
  induction ls generalizing s with
  | nil =>
    refine ⟨fun _ => trivial, fun _ pre hpre => ?_⟩
    obtain rfl := List.prefix_nil.mp hpre
    exact h0
  | cons i ls ih =>
    constructor
    · intro h
      have hi : P (step s i) := h [i] (by simp)
      refine ⟨(hP s i hs h0).mp hi, (ih (hstep s i hs) hi).mp fun pre hpre => ?_⟩
      exact h (i :: pre) (List.cons_prefix_cons.mpr ⟨rfl, hpre⟩)
    · rintro ⟨hg, hrest⟩ pre hpre
      have hi : P (step s i) := (hP s i hs h0).mpr hg
      obtain rfl | ⟨pre', rfl, hpre'⟩ := List.prefix_cons_iff.mp hpre
      · exact h0
      · exact (ih (hstep s i hs) hi).mpr hrest pre' hpre'

/-- A run that is not guarded fails first at one label, after a guarded prefix. -/
theorem exists_first_failure {ls : List ι} (h : ¬ Guarded step g s ls) :
    ∃ pre i post, ls = pre ++ i :: post ∧ Guarded step g s pre ∧ ¬ g (run step s pre) i := by
  induction ls generalizing s with
  | nil => exact absurd trivial h
  | cons i ls ih =>
    by_cases hi : g s i
    · obtain ⟨pre, j, post, rfl, hpre, hj⟩ := ih (fun hr => h ⟨hi, hr⟩)
      exact ⟨i :: pre, j, post, rfl, ⟨hi, hpre⟩, hj⟩
    · exact ⟨[], i, ls, rfl, trivial, hi⟩

/-- What does not hold before a run and holds after it, one step of the run brings about. -/
theorem exists_turn {P : σ → Prop} {ls : List ι} (h0 : ¬ P s) (h : P (run step s ls)) :
    ∃ pre i, pre ++ [i] <+: ls ∧ ¬ P (run step s pre) ∧ P (step (run step s pre) i) := by
  induction ls generalizing s with
  | nil => exact absurd h h0
  | cons i ls ih =>
    by_cases hi : P (step s i)
    · exact ⟨[], i, List.cons_prefix_cons.mpr ⟨rfl, List.nil_prefix⟩, h0, hi⟩
    · obtain ⟨pre, j, hpre, hbefore, hafter⟩ := ih hi h
      exact ⟨i :: pre, j, List.cons_prefix_cons.mpr ⟨rfl, hpre⟩, hbefore, hafter⟩

end

/-- The machine driven as many steps as its rank says, told `answers i` at the `i`th. -/
def drive (step : σ → ι → σ) (rank : σ → Nat) (answers : Nat → ι) (s : σ) : σ :=
  run step s ((List.range (rank s)).map answers)

/-- Every step of the drive meets `g`. -/
def Driven (step : σ → ι → σ) (rank : σ → Nat) (answers : Nat → ι) (g : σ → ι → Prop) (s : σ) : Prop :=
  Guarded step g s ((List.range (rank s)).map answers)

theorem rank_run_le {step : σ → ι → σ} {rank : σ → Nat}
    (hrank : ∀ s i, rank (step s i) < rank s ∨ (rank s = 0 ∧ rank (step s i) = 0)) (ls : List ι) (s : σ) :
    rank (run step s ls) ≤ rank s - ls.length := by
  induction ls generalizing s with
  | nil => exact Nat.le_refl _
  | cons i ls ih =>
    have hrest := ih (step s i)
    have hi := hrank s i
    simp only [run_cons, List.length_cons]
    omega

theorem drive_done {step : σ → ι → σ} {rank : σ → Nat}
    (hrank : ∀ s i, rank (step s i) < rank s ∨ (rank s = 0 ∧ rank (step s i) = 0)) (answers : Nat → ι)
    (s : σ) : rank (drive step rank answers s) = 0 := by
  have h := rank_run_le hrank ((List.range (rank s)).map answers) s
  simp only [List.length_map, List.length_range, Nat.sub_self] at h
  exact Nat.le_zero.mp h

/-- What every guarded step keeps, a drive of such steps keeps. -/
theorem inv_drive {step : σ → ι → σ} {rank : σ → Nat} {g : σ → ι → Prop} (Inv : σ → Prop)
    (hstep : ∀ s i, Inv s → g s i → Inv (step s i)) {answers : Nat → ι} {s : σ} (hs : Inv s)
    (h : Driven step rank answers g s) : Inv (drive step rank answers s) :=
  inv_run Inv hstep hs h

end Steps
