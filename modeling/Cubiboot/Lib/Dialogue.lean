import Mathlib.Tactic.TypeStar

/-
  Programs that talk to a world outside them.

  A `Dialogue Q A α` is a program that either is done with a result or asks a
  question `q : Q` and goes on from the answer. It says nothing about what
  answers: a handler does. `run` puts a program to a handler that answers
  everything, `tryRun` to one that may refuse.

  The rules:
    1. `run_bind`, `tryRun_bind` — a sequence is run part by part.
    2. `Yields.bind`, `Yields.ite` — the same for a program that leaves the state;
       `completes_bind` — a sequence is carried to its end if both parts are.
    3. `run_eq_of_tryRun` — if a handler that may refuse is simulated by one
       that does not, then a program the first carries to its end ends the same
       way with the second, whatever the second knows besides. This is how a
       program is shown not to depend on the rest of a state.
    4. `Ensures.bind`, `Ensures.run` — what a program's result satisfies
       whatever it is answered.
-/

set_option autoImplicit false

/-- A program asking questions `q : Q`, each answered in `A q`. -/
inductive Dialogue (Q : Type*) (A : Q → Type*) (α : Type*) where
  | done (a : α)
  | ask (q : Q) (k : A q → Dialogue Q A α)

namespace Dialogue

universe u

variable {Q : Type*} {A : Q → Type*} {α β : Type u} {σ τ : Type*}

def bind : Dialogue Q A α → (α → Dialogue Q A β) → Dialogue Q A β
  | done a, f => f a
  | ask q k, f => ask q fun r => (k r).bind f

instance : Monad (Dialogue Q A) where
  pure := done
  bind := bind

/-- One question. -/
def query (q : Q) : Dialogue Q A (A q) := ask q done

/-- The program put to a handler that answers every question. -/
def run (h : (q : Q) → σ → A q × σ) : Dialogue Q A α → σ → α × σ
  | done a, s => (a, s)
  | ask q k, s => (k (h q s).1).run h (h q s).2

/-- The program put to a handler that may refuse an answer. -/
def tryRun (h : (q : Q) → σ → Option (A q × σ)) : Dialogue Q A α → σ → Option (α × σ)
  | done a, s => some (a, s)
  | ask q k, s =>
    match h q s with
    | some (r, s') => (k r).tryRun h s'
    | none => none

section
variable {h : (q : Q) → σ → A q × σ} {g : (q : Q) → τ → Option (A q × τ)}

@[simp] theorem run_done (a : α) (s : σ) : (done a : Dialogue Q A α).run h s = (a, s) := rfl

@[simp] theorem run_ask (q : Q) (k : A q → Dialogue Q A α) (s : σ) :
    (ask q k).run h s = (k (h q s).1).run h (h q s).2 := rfl

@[simp] theorem run_pure (a : α) (s : σ) : (pure a : Dialogue Q A α).run h s = (a, s) := rfl

@[simp] theorem run_query (q : Q) (s : σ) : (query q : Dialogue Q A (A q)).run h s = h q s := rfl

@[simp] theorem run_bind (p : Dialogue Q A α) (f : α → Dialogue Q A β) (s : σ) :
    (p >>= f).run h s = (f (p.run h s).1).run h (p.run h s).2 := by
  induction p generalizing s with
  | done a => rfl
  | ask q k ih => exact ih (h q s).1 (h q s).2

@[simp] theorem tryRun_pure (a : α) (t : τ) : (pure a : Dialogue Q A α).tryRun g t = some (a, t) := rfl

@[simp] theorem tryRun_query (q : Q) (t : τ) : (query q : Dialogue Q A (A q)).tryRun g t = g q t := by
  rw [query, tryRun]
  cases g q t <;> rfl

theorem tryRun_bind (p : Dialogue Q A α) (f : α → Dialogue Q A β) (t : τ) :
    (p >>= f).tryRun g t = (p.tryRun g t).bind fun r => (f r.1).tryRun g r.2 := by
  induction p generalizing t with
  | done a => rfl
  | ask q k ih =>
    have hbind : (ask q k : Dialogue Q A α) >>= f = ask q fun r => k r >>= f := rfl
    rw [hbind, tryRun, tryRun]
    cases g q t with
    | none => rfl
    | some r => exact ih r.1 r.2

theorem bind_assoc {γ : Type u} (p : Dialogue Q A α) (f : α → Dialogue Q A β) (k : β → Dialogue Q A γ) :
    p >>= f >>= k = p >>= fun a => f a >>= k := by
  induction p with
  | done a => rfl
  | ask q n ih => exact congrArg (ask q) (funext ih)

/-- With the handler in state `t` the program ends with `v`, or is refused, and leaves the state. -/
def Yields (g : (q : Q) → τ → Option (A q × τ)) (t : τ) (p : Dialogue Q A α) (v : Option α) : Prop :=
  p.tryRun g t = v.map fun a => (a, t)

theorem yields_pure (a : α) (t : τ) : Yields g t (pure a) (some a) := rfl

theorem Yields.bind {t : τ} {p : Dialogue Q A α} {f : α → Dialogue Q A β} {v : Option α} {w : α → Option β}
    (hp : Yields g t p v) (hf : ∀ a, Yields g t (f a) (w a)) : Yields g t (p >>= f) (v.bind w) := by
  rw [Yields, tryRun_bind, hp]
  cases v with
  | none => rfl
  | some a => exact hf a

theorem Yields.ite {c : Prop} [Decidable c] {t : τ} {p p' : Dialogue Q A α} {v v' : Option α}
    (h : Yields g t p v) (h' : Yields g t p' v') : Yields g t (if c then p else p') (if c then v else v') := by
  split
  · exact h
  · exact h'

/-- The handler carries the program to its end. -/
def Completes (g : (q : Q) → τ → Option (A q × τ)) (t : τ) (p : Dialogue Q A α) : Prop := (p.tryRun g t).isSome = true

theorem completes_bind {t t' : τ} {p : Dialogue Q A α} {f : α → Dialogue Q A β} {v : Option α}
    (hp : p.tryRun g t = v.map fun a => (a, t')) :
    Completes g t (p >>= f) ↔ ∃ a, v = some a ∧ Completes g t' (f a) := by
  rw [Completes, tryRun_bind, hp]
  cases v with
  | none => exact iff_of_false Bool.false_ne_true fun ⟨a, ha, _⟩ => by cases ha
  | some a => exact ⟨fun h => ⟨a, rfl, h⟩, fun ⟨a', ha, h⟩ => by cases ha; exact h⟩

/-- A handler that simulates one that may refuse: related states give the same
answer and related states again. -/
def Simulates (h : (q : Q) → σ → A q × σ) (g : (q : Q) → τ → Option (A q × τ)) (R : σ → τ → Prop) :
    Prop :=
  ∀ q s t r t', R s t → g q t = some (r, t') → (h q s).1 = r ∧ R (h q s).2 t'

theorem run_eq_of_tryRun {R : σ → τ → Prop} (hsim : Simulates h g R) {p : Dialogue Q A α} {s : σ} {t : τ}
    {a : α} {t' : τ} (hR : R s t) (hp : p.tryRun g t = some (a, t')) :
    (p.run h s).1 = a ∧ R (p.run h s).2 t' := by
  induction p generalizing s t with
  | done b =>
    obtain ⟨rfl, rfl⟩ : b = a ∧ t = t' := by simpa [tryRun] using hp
    exact ⟨rfl, hR⟩
  | ask q k ih =>
    simp only [tryRun] at hp
    split at hp
    · rename_i r t₁ hq
      obtain ⟨hr, hR'⟩ := hsim q s t r t₁ hR hq
      subst hr
      exact ih _ hR' hp
    · cases hp

end

/-! ## Results that hold whatever the answers -/

/-- Whatever the answers, the result satisfies `P`. -/
def Ensures (P : α → Prop) : Dialogue Q A α → Prop
  | done a => P a
  | ask _ k => ∀ r, (k r).Ensures P

theorem ensures_true (p : Dialogue Q A α) : p.Ensures fun _ => True := by
  induction p with
  | done a => trivial
  | ask q k ih => exact ih

theorem Ensures.bind {P : α → Prop} {R : β → Prop} {p : Dialogue Q A α} {f : α → Dialogue Q A β}
    (hp : p.Ensures P) (hf : ∀ a, P a → (f a).Ensures R) : (p >>= f).Ensures R := by
  induction p with
  | done a => exact hf a hp
  | ask q k ih => exact fun r => ih r (hp r)

/-- A first part that may end in any way. -/
theorem ensures_bind {R : β → Prop} (p : Dialogue Q A α) {f : α → Dialogue Q A β}
    (hf : ∀ a, (f a).Ensures R) : (p >>= f).Ensures R :=
  (ensures_true p).bind fun a _ => hf a

theorem Ensures.run {P : α → Prop} {p : Dialogue Q A α} (hp : p.Ensures P) (h : (q : Q) → σ → A q × σ)
    (s : σ) : P (p.run h s).1 := by
  induction p generalizing s with
  | done a => exact hp
  | ask q k ih => exact ih _ (hp _) _

end Dialogue
