import Mathlib.Data.List.Basic

/-! Runs of a deterministic machine: the states a step function goes through under a list
of events, properties of every step of a run, and histories kept beside the state. -/
namespace Swindle.Machine

variable {σ ε μ : Type*}

def run (step : σ → ε → σ) (s : σ) (es : List ε) : σ := es.foldl step s

@[simp] theorem run_nil (step : σ → ε → σ) (s : σ) : run step s [] = s := rfl

@[simp] theorem run_cons (step : σ → ε → σ) (s : σ) (e : ε) (es : List ε) :
    run step s (e :: es) = run step (step s e) es := rfl

theorem run_append (step : σ → ε → σ) (s : σ) (es fs : List ε) :
    run step s (es ++ fs) = run step (run step s es) fs := List.foldl_append

/-- What `obs` shows of each state that the events lead to. -/
def trace {ω : Type*} (step : σ → ε → σ) (obs : σ → ω) : σ → List ε → List ω
  | _, [] => []
  | s, e :: es => obs (step s e) :: trace step obs (step s e) es

theorem trace_append {ω : Type*} (step : σ → ε → σ) (obs : σ → ω) (s : σ) (es fs : List ε) :
    trace step obs s (es ++ fs) = trace step obs s es ++ trace step obs (run step s es) fs := by
  induction es generalizing s with
  | nil => rfl
  | cons e es ih =>
    rw [List.cons_append, trace, trace, ih, run_cons]
    rfl

/-- `P` holds of every state and event met along the run. -/
def Along (step : σ → ε → σ) (P : σ → ε → Prop) : σ → List ε → Prop
  | _, [] => True
  | s, e :: es => P s e ∧ Along step P (step s e) es

instance Along.decidable (step : σ → ε → σ) (P : σ → ε → Prop) [∀ s e, Decidable (P s e)] :
    ∀ s es, Decidable (Along step P s es)
  | _, [] => isTrue trivial
  | s, e :: es =>
    have := Along.decidable step P (step s e) es
    inferInstanceAs (Decidable (P s e ∧ Along step P (step s e) es))

variable {step : σ → ε → σ}

theorem run_invariant {Inv : σ → Prop} (hstep : ∀ s e, Inv s → Inv (step s e)) {s : σ}
    (hs : Inv s) (es : List ε) : Inv (run step s es) := by
  induction es generalizing s with
  | nil => exact hs
  | cons e es ih => exact ih (hstep s e hs)

/-- An invariant that the steps keep under a condition survives every run that meets it. -/
theorem run_of_along {Inv : σ → Prop} {C : σ → ε → Prop}
    (hstep : ∀ s e, Inv s → C s e → Inv (step s e)) {s : σ} (hs : Inv s) {es : List ε}
    (hc : Along step C s es) : Inv (run step s es) := by
  induction es generalizing s with
  | nil => exact hs
  | cons e es ih => exact ih (hstep s e hs hc.1) hc.2

/-- The two-run rule: states in relation look alike, and every step keeps the relation. -/
theorem trace_eq_of_rel {ω : Type*} {obs : σ → ω} {R : σ → σ → Prop}
    (hstep : ∀ s t e, R s t → R (step s e) (step t e)) (hobs : ∀ s t, R s t → obs s = obs t)
    {s t : σ} (h : R s t) (es : List ε) : trace step obs s es = trace step obs t es := by
  induction es generalizing s t with
  | nil => rfl
  | cons e es ih =>
    have hnext := hstep s t e h
    rw [trace, trace, hobs _ _ hnext, ih hnext]

/-- The refinement rule: an abstract machine answers the same inputs, as long as they meet a
condition on its own state, and every step keeps the relation. -/
theorem trace_eq_of_refines {τ ω : Type*} {stepT : τ → ε → τ} {obs : σ → ω} {obsT : τ → ω}
    {R : σ → τ → Prop} {C : τ → ε → Prop}
    (hstep : ∀ s t e, R s t → C t e → R (step s e) (stepT t e) ∧
      obs (step s e) = obsT (stepT t e))
    {s : σ} {t : τ} (h : R s t) {es : List ε} (hc : Along stepT C t es) :
    trace step obs s es = trace stepT obsT t es ∧ R (run step s es) (run stepT t es) := by
  induction es generalizing s t with
  | nil => exact ⟨rfl, h⟩
  | cons e es ih =>
    obtain ⟨hnext, hobs⟩ := hstep s t e h hc.1
    obtain ⟨htrace, hend⟩ := ih hnext hc.2
    rw [trace, trace, hobs, htrace]
    exact ⟨rfl, hend⟩

/-- The step rule: where the invariant holds and the step meets its condition, the step has
the property and keeps the invariant. -/
theorem along_of_invariant {Inv : σ → Prop} {C P : σ → ε → Prop}
    (hstep : ∀ s e, Inv s → C s e → P s e ∧ Inv (step s e)) {s : σ} (hs : Inv s) {es : List ε}
    (hc : Along step C s es) : Along step P s es := by
  induction es generalizing s with
  | nil => trivial
  | cons e es ih =>
    obtain ⟨hp, hi⟩ := hstep s e hs hc.1
    exact ⟨hp, ih hi hc.2⟩

theorem along_of_forall {P : ε → Prop} {es : List ε} (h : ∀ e ∈ es, P e) (s : σ) :
    Along step (fun _ e => P e) s es := by
  induction es generalizing s with
  | nil => trivial
  | cons e es ih =>
    obtain ⟨he, hes⟩ := List.forall_mem_cons.mp h
    exact ⟨he, ih hes (step s e)⟩

theorem along_append {P : σ → ε → Prop} {s : σ} {es fs : List ε} :
    Along step P s (es ++ fs) ↔ Along step P s es ∧ Along step P (run step s es) fs := by
  induction es generalizing s with
  | nil => simp [Along]
  | cons e es ih => simp only [List.cons_append, Along, run_cons, ih, and_assoc]

/-- Somewhere along the run, `P` holds of the state and event met. -/
def Meets (step : σ → ε → σ) (P : σ → ε → Prop) : σ → List ε → Prop
  | _, [] => False
  | s, e :: es => P s e ∨ Meets step P (step s e) es

instance Meets.decidable (step : σ → ε → σ) (P : σ → ε → Prop) [∀ s e, Decidable (P s e)] :
    ∀ s es, Decidable (Meets step P s es)
  | _, [] => isFalse id
  | s, e :: es =>
    have := Meets.decidable step P (step s e) es
    inferInstanceAs (Decidable (P s e ∨ Meets step P (step s e) es))

/-- What every step keeps unless it meets `P` is there at the end of a run that never does. -/
theorem meets_or_run {P : σ → ε → Prop} {Inv : σ → Prop}
    (hstep : ∀ s e, Inv s → P s e ∨ Inv (step s e)) {s : σ} (hs : Inv s) (es : List ε) :
    Meets step P s es ∨ Inv (run step s es) := by
  induction es generalizing s with
  | nil => exact .inr hs
  | cons e es ih =>
    rcases hstep s e hs with h | h
    · exact .inl (.inl h)
    · rcases ih h with hm | hr
      · exact .inl (.inr hm)
      · exact .inr hr

/-- What a step that meets `P` establishes and every step keeps is there at the end. -/
theorem run_of_meets {P : σ → ε → Prop} {Inv Q : σ → Prop}
    (hinv : ∀ s e, Inv s → Inv (step s e)) (hset : ∀ s e, Inv s → P s e → Q (step s e))
    (hkeep : ∀ s e, Inv s → Q s → Q (step s e)) {s : σ} (hs : Inv s) {es : List ε}
    (h : Meets step P s es) : Q (run step s es) := by
  induction es generalizing s with
  | nil => cases h
  | cons e es ih =>
    rcases h with hp | hm
    · have hboth : ∀ s e, Inv s ∧ Q s → Inv (step s e) ∧ Q (step s e) := fun s e h =>
        ⟨hinv s e h.1, hkeep s e h.1 h.2⟩
      exact (run_invariant hboth ⟨hinv s e hs, hset s e hs hp⟩ es).2
    · exact ih (hinv s e hs) hm

/-- A machine run beside a history that each step extends. -/
def watch (step : σ → ε → σ) (note : σ → ε → μ → μ) (p : σ × μ) (e : ε) : σ × μ :=
  (step p.1 e, note p.1 e p.2)

theorem run_watch_fst (note : σ → ε → μ → μ) (p : σ × μ) (es : List ε) :
    (run (watch step note) p es).1 = run step p.1 es := by
  induction es generalizing p with
  | nil => rfl
  | cons e es ih => exact ih (watch step note p e)

theorem along_watch {note : σ → ε → μ → μ} {P : σ → ε → Prop} {p : σ × μ} {es : List ε} :
    Along (watch step note) (fun p e => P p.1 e) p es ↔ Along step P p.1 es := by
  induction es generalizing p with
  | nil => rfl
  | cons e es ih => exact and_congr_right' ih

/-- The second of two machines under the same events is a history beside the first. -/
def twice (step : σ → ε → σ) : σ × σ → ε → σ × σ := watch step fun _ e t => step t e

theorem run_twice (step : σ → ε → σ) (p : σ × σ) (es : List ε) :
    run (twice step) p es = (run step p.1 es, run step p.2 es) := by
  induction es generalizing p with
  | nil => rfl
  | cons e es ih => exact ih (twice step p e)

/-- The two-run rule for an invariant of both states: the condition is one on the first. -/
theorem run_rel {R : σ → σ → Prop} {C : σ → ε → Prop}
    (hstep : ∀ s t e, R s t → C s e → R (step s e) (step t e)) {s t : σ} (h : R s t)
    {es : List ε} (hc : Along step C s es) : R (run step s es) (run step t es) := by
  have hboth : ∀ (p : σ × σ) (e : ε), R p.1 p.2 → C p.1 e →
      R (twice step p e).1 (twice step p e).2 := fun p e => hstep p.1 p.2 e
  have hend := run_of_along hboth (s := (s, t)) h (along_watch.mpr hc)
  rwa [run_twice] at hend

end Swindle.Machine
