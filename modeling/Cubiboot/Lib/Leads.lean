import Cubiboot.Lib.Dialogue

/-
  What a stateful computation leads to: `Leads P m Q` says that `m`, from a state that
  satisfies `P`, ends with a result and a state that satisfy `Q`.

  The rules:
    1. `leads_pure`, `Leads.bind`, `Leads.ite`, `Leads.pre`, `Leads.post`, `leads_get` — part by part.
    2. `leads_handled_pure`, `leads_handled_bind`, `leads_handled_ite` — the same for a
       dialogue that is put to a handler.
    3. `leads_handled` — what every question a dialogue may ask keeps, the whole of it keeps.
-/

set_option autoImplicit false

universe u

variable {σ α β : Type u}

def Leads (P : σ → Prop) (m : StateM σ α) (Q : α → σ → Prop) : Prop := ∀ s, P s → Q (m s).1 (m s).2

section
variable {P P' : σ → Prop} {Q Q' : α → σ → Prop} {m : StateM σ α}

theorem leads_pure {a : α} (h : ∀ s, P s → Q a s) : Leads P (pure a) Q := h

theorem Leads.bind {R : β → σ → Prop} {f : α → StateM σ β} (hm : Leads P m Q) (hf : ∀ a, Leads (Q a) (f a) R) :
    Leads P (m >>= f) R :=
  fun s hs => hf _ _ (hm s hs)

theorem Leads.pre (h : Leads P m Q) (hP : ∀ s, P' s → P s) : Leads P' m Q := fun s hs => h s (hP s hs)

theorem Leads.post (h : Leads P m Q) (hQ : ∀ a s, Q a s → Q' a s) : Leads P m Q' := fun s hs => hQ _ _ (h s hs)

theorem Leads.ite {c : Prop} [Decidable c] {m' : StateM σ α} (h : c → Leads P m Q) (h' : ¬ c → Leads P m' Q) :
    Leads P (if c then m else m') Q := by
  split
  next hc => exact h hc
  next hc => exact h' hc

theorem leads_get : Leads P get fun t s => P s ∧ t = s := fun _ hs => ⟨hs, rfl⟩

end

/-! ## Dialogues -/

section
variable {Q : Type*} {A : Q → Type u}

/-- A dialogue put to a handler that has a state. -/
def handled (h : (q : Q) → StateM σ (A q)) (p : Dialogue Q A α) : StateM σ α := p.run h

/-- Every question the program may ask, whatever the answers, is one of `P`. -/
def Dialogue.Asks (P : Q → Prop) : Dialogue Q A α → Prop
  | .done _ => True
  | .ask q k => P q ∧ ∀ r, (k r).Asks P

variable {h : (q : Q) → StateM σ (A q)} {P : Q → Prop}

section
variable {I : σ → Prop} {R : α → σ → Prop} {p p' : Dialogue Q A α}

theorem leads_handled_pure {a : α} (ha : ∀ s, I s → R a s) : Leads I (handled h (pure a)) R := ha

theorem leads_handled_bind {T : β → σ → Prop} {f : α → Dialogue Q A β} (hp : Leads I (handled h p) R)
    (hf : ∀ a, Leads (R a) (handled h (f a)) T) : Leads I (handled h (p >>= f)) T := by
  intro s hs
  rw [handled, Dialogue.run_bind]
  exact hf _ _ (hp s hs)

theorem leads_handled_ite {c : Prop} [Decidable c] (hp : c → Leads I (handled h p) R)
    (hp' : ¬ c → Leads I (handled h p') R) : Leads I (handled h (if c then p else p')) R := by
  split
  next hc => exact hp hc
  next hc => exact hp' hc

end

theorem Dialogue.Asks.bind {p : Dialogue Q A α} {f : α → Dialogue Q A β} (hp : p.Asks P) (hf : ∀ a, (f a).Asks P) :
    (p >>= f).Asks P := by
  induction p with
  | done a => exact hf a
  | ask q k ih => exact ⟨hp.1, fun r => ih r (hp.2 r)⟩

theorem Dialogue.asks_query {q : Q} (hq : P q) : (Dialogue.query q : Dialogue Q A (A q)).Asks P :=
  ⟨hq, fun _ => trivial⟩

theorem Dialogue.asks_ite {c : Prop} [Decidable c] {p p' : Dialogue Q A α} (hp : c → p.Asks P)
    (hp' : ¬ c → p'.Asks P) : (if c then p else p').Asks P := by
  split
  next hc => exact hp hc
  next hc => exact hp' hc

theorem leads_handled {I : σ → Prop} (hq : ∀ q, P q → Leads I (h q) fun _ => I) {p : Dialogue Q A α} (hp : p.Asks P) :
    Leads I (handled h p) fun _ => I := by
  induction p with
  | done a => exact fun s hs => hs
  | ask q k ih => exact fun s hs => ih _ (hp.2 _) _ (hq q hp.1 s hs)

end
