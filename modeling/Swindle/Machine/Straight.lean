import Swindle.Machine.Run

/-! Straight-line programs with busy waits, run by a processor beside hardware that changes the
same state at any time. -/
namespace Swindle.Machine

variable {σ η : Type*}

/-- An access, or a loop that polls a condition. -/
inductive Instr (σ : Type*)
  | act (f : σ → σ)
  | wait (p : σ → Bool)

/-- What is left of the program, and the state it shares with the hardware. -/
structure Thread (σ : Type*) where
  todo : List (Instr σ)
  state : σ

namespace Thread

/-- The processor's step. A wait that is not over is polled again. -/
def cpu (t : Thread σ) : Thread σ :=
  match t.todo with
  | [] => t
  | .act f :: is => ⟨is, f t.state⟩
  | .wait p :: is => if p t.state then ⟨is, t.state⟩ else t

/-- `none` is a step of the processor. -/
def step (hw : σ → η → σ) (t : Thread σ) : Option η → Thread σ
  | none => t.cpu
  | some h => ⟨t.todo, hw t.state h⟩

end Thread

/-- The instruction leaves `P` as it is. -/
def Instr.Keeps (P : σ → Prop) : Instr σ → Prop
  | .act f => ∀ s, P s → P (f s)
  | .wait _ => True

/-- It leaves what `obs` shows. -/
def Instr.Fixes {τ : Type*} (obs : σ → τ) : Instr σ → Prop
  | .act f => ∀ s, obs (f s) = obs s
  | .wait _ => True

theorem Instr.Fixes.keeps {τ : Type*} {obs : σ → τ} {P : σ → Prop} {i : Instr σ}
    (h : i.Fixes obs) (hP : ∀ s s', obs s' = obs s → P s → P s') : i.Keeps P := by
  cases i with
  | act f => exact fun s => hP s (f s) (h s)
  | wait p => trivial

/-- A proof outline: an assertion before each instruction, which the hardware keeps, and an
invariant that all of them imply. -/
inductive Outline (hw : σ → η → σ) (I : σ → Prop) :
    (σ → Prop) → List (Instr σ) → (σ → Prop) → Prop
  | done {P Q : σ → Prop} (keep : ∀ s h, P s → P (hw s h)) (inv : ∀ s, P s → I s)
      (post : ∀ s, P s → Q s) : Outline hw I P [] Q
  | act {P R Q : σ → Prop} {f : σ → σ} {is : List (Instr σ)}
      (keep : ∀ s h, P s → P (hw s h)) (inv : ∀ s, P s → I s) (exec : ∀ s, P s → R (f s))
      (rest : Outline hw I R is Q) : Outline hw I P (.act f :: is) Q
  | wait {P R Q : σ → Prop} {p : σ → Bool} {is : List (Instr σ)}
      (keep : ∀ s h, P s → P (hw s h)) (inv : ∀ s, P s → I s) (passed : ∀ s, P s → p s → R s)
      (rest : Outline hw I R is Q) : Outline hw I P (.wait p :: is) Q

namespace Outline

variable {hw : σ → η → σ} {I P Q R : σ → Prop} {is js : List (Instr σ)}

theorem keep (h : Outline hw I P is Q) {s : σ} (hp : P s) (e : η) : P (hw s e) := by
  cases h with
  | done keep _ _ => exact keep s e hp
  | act keep _ _ _ => exact keep s e hp
  | wait keep _ _ _ => exact keep s e hp

theorem inv (h : Outline hw I P is Q) {s : σ} (hp : P s) : I s := by
  cases h with
  | done _ inv _ => exact inv s hp
  | act _ inv _ _ => exact inv s hp
  | wait _ inv _ _ => exact inv s hp

theorem pre (h : Outline hw I R is Q) (keep : ∀ s h, P s → P (hw s h)) (hpre : ∀ s, P s → R s) :
    Outline hw I P is Q := by
  have hinv : ∀ s, P s → I s := fun s hp => h.inv (hpre s hp)
  cases h with
  | done _ _ post => exact .done keep hinv fun s hp => post s (hpre s hp)
  | act _ _ exec rest => exact .act keep hinv (fun s hp => exec s (hpre s hp)) rest
  | wait _ _ passed rest => exact .wait keep hinv (fun s hp => passed s (hpre s hp)) rest

/-- The sequence rule. -/
theorem append (h : Outline hw I P is R) (h' : Outline hw I R js Q) :
    Outline hw I P (is ++ js) Q := by
  induction h with
  | done keep _ post => exact h'.pre keep post
  | act keep inv exec _ ih => exact .act keep inv exec (ih h')
  | wait keep inv passed _ ih => exact .wait keep inv passed (ih h')

/-- The frame rule: what no instruction touches can be carried along. -/
theorem frame (h : Outline hw I P is Q) (keep : ∀ s h, R s → R (hw s h))
    (hkeeps : ∀ i ∈ is, i.Keeps R) : Outline hw I (fun s => P s ∧ R s) is fun s => Q s ∧ R s := by
  induction h with
  | done keep' inv post =>
    exact .done (fun s h hp => ⟨keep' s h hp.1, keep s h hp.2⟩) (fun s hp => inv s hp.1)
      fun s hp => ⟨post s hp.1, hp.2⟩
  | act keep' inv exec _ ih =>
    obtain ⟨hf, hrest⟩ := List.forall_mem_cons.mp hkeeps
    exact .act (fun s h hp => ⟨keep' s h hp.1, keep s h hp.2⟩) (fun s hp => inv s hp.1)
      (fun s hp => ⟨exec s hp.1, hf s hp.2⟩) (ih hrest)
  | wait keep' inv passed _ ih =>
    obtain ⟨-, hrest⟩ := List.forall_mem_cons.mp hkeeps
    exact .wait (fun s h hp => ⟨keep' s h hp.1, keep s h hp.2⟩) (fun s hp => inv s hp.1)
      (fun s hp hw => ⟨passed s hp.1 hw, hp.2⟩) (ih hrest)

theorem of_keeps (keep : ∀ s h, P s → P (hw s h)) (inv : ∀ s, P s → I s)
    (hkeeps : ∀ i ∈ is, i.Keeps P) : Outline hw I P is P := by
  induction is with
  | nil => exact .done keep inv fun _ h => h
  | cons i is ih =>
    obtain ⟨hi, hrest⟩ := List.forall_mem_cons.mp hkeeps
    cases i with
    | act f => exact .act keep inv hi (ih hrest)
    | wait p => exact .wait keep inv (fun _ h _ => h) (ih hrest)

/-- Wherever a thread is, the outline of the rest of its program holds. -/
theorem run (h : Outline hw I P is Q) {s : σ} (hp : P s) (es : List (Option η)) :
    let t := Machine.run (Thread.step hw) ⟨is, s⟩ es
    ∃ P', Outline hw I P' t.todo Q ∧ P' t.state := by
  induction es generalizing P is s with
  | nil => exact ⟨P, h, hp⟩
  | cons e es ih =>
    cases e with
    | some e => exact ih h (h.keep hp e)
    | none =>
      cases h with
      | done keep inv post => exact ih (.done keep inv post) hp
      | act keep inv exec rest => exact ih rest (exec s hp)
      | @wait _ R _ p is keep inv passed rest =>
        rw [run_cons]
        by_cases hwait : p s
        · have hstep : Thread.step hw ⟨.wait p :: is, s⟩ none = ⟨is, s⟩ := if_pos hwait
          rw [hstep]
          exact ih rest (passed s hp hwait)
        · have hstep : Thread.step hw ⟨.wait p :: is, s⟩ none = ⟨.wait p :: is, s⟩ := if_neg hwait
          rw [hstep]
          exact ih (.wait keep inv passed rest) hp

/-- The invariant holds at any time, and the postcondition once the program is through. -/
theorem sound (h : Outline hw I P is Q) {s : σ} (hp : P s) (es : List (Option η)) :
    let t := Machine.run (Thread.step hw) ⟨is, s⟩ es
    I t.state ∧ (t.todo = [] → Q t.state) := by
  intro t
  obtain ⟨P', hrest, hp'⟩ := h.run hp es
  refine ⟨hrest.inv hp', fun hdone => ?_⟩
  have hdone' : (Machine.run (Thread.step hw) ⟨is, s⟩ es).todo = [] := hdone
  rw [hdone'] at hrest
  cases hrest with
  | done _ _ post => exact post _ hp'

end Outline

/-- The hardware can let the program through, wait by wait, to a state with `Q`. -/
def Passes (hw : σ → η → σ) (Q : σ → Prop) : σ → List (Instr σ) → Prop
  | s, [] => Q s
  | s, .act f :: is => Passes hw Q (f s) is
  | s, .wait p :: is => ∃ es, p (run hw s es) ∧ Passes hw Q (run hw s es) is

namespace Passes

variable {hw : σ → η → σ} {Q R : σ → Prop} {is js : List (Instr σ)} {s : σ}

theorem append (h : Passes hw R s is) (h' : ∀ s, R s → Passes hw Q s js) :
    Passes hw Q s (is ++ js) := by
  induction is generalizing s with
  | nil => exact h' s h
  | cons i is ih =>
    cases i with
    | act f => exact ih h
    | wait p =>
      obtain ⟨es, hp, hrest⟩ := h
      exact ⟨es, hp, ih hrest⟩

theorem ends (h : Passes hw Q s is) :
    ∃ es, (run (Thread.step hw) ⟨is, s⟩ es).todo = [] := by
  induction is generalizing s with
  | nil => exact ⟨[], rfl⟩
  | cons i is ih =>
    cases i with
    | act f =>
      obtain ⟨es, hes⟩ := ih h
      exact ⟨none :: es, hes⟩
    | wait p =>
      obtain ⟨fs, hp, hrest⟩ := h
      obtain ⟨es, hes⟩ := ih hrest
      have hhw : run (Thread.step hw) ⟨.wait p :: is, s⟩ (fs.map some) =
          ⟨.wait p :: is, run hw s fs⟩ := by
        clear hp hrest hes
        induction fs generalizing s with
        | nil => rfl
        | cons f fs ih => exact ih
      have hstep : Thread.step hw ⟨.wait p :: is, run hw s fs⟩ none = ⟨is, run hw s fs⟩ :=
        if_pos hp
      refine ⟨fs.map some ++ none :: es, ?_⟩
      rw [run_append, hhw, run_cons, hstep]
      exact hes

end Passes

end Swindle.Machine
