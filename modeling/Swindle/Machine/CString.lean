import Mathlib.Data.List.Basic

/-! Strings that end with a terminator, in buffers of fixed size over any character type. Reading
or writing past the end of a buffer has no result. -/
namespace Swindle.Machine.CString

variable {α : Type*} [DecidableEq α]

omit [DecidableEq α] in
def store (b : List α) (i : ℕ) (x : α) : Option (List α) :=
  if i < b.length then some (b.set i x) else none

/-- `while (src[nb]) nb++`. -/
def len (nul : α) : List α → Option ℕ
  | [] => none
  | x :: l => if x = nul then some 0 else (len nul l).map (· + 1)

/-- `while (*src) *tgt++ = *src++; *tgt = 0`, from cell `i` of the target. -/
def copy (nul : α) (tgt : List α) (i : ℕ) : List α → Option (List α)
  | [] => none
  | x :: src =>
    if x = nul then store tgt i nul
    else do
      let tgt ← store tgt i x
      copy nul tgt (i + 1) src

/-- The buffer holds the text `t`, its terminator included. -/
structure Holds (nul : α) (b t : List α) : Prop where
  text : nul ∉ t
  cells : ∃ rest, b = t ++ nul :: rest

variable {nul : α}

omit [DecidableEq α] in
theorem store_append (l : List α) (y x : α) (r : List α) :
    store (l ++ y :: r) l.length x = some ((l ++ [x]) ++ r) := by
  unfold store
  rw [if_pos (by simp), List.set_append_right _ _ (Nat.le_refl _)]
  simp

theorem Holds.len {b t : List α} (h : Holds nul b t) : len nul b = some t.length := by
  obtain ⟨rest, rfl⟩ := h.cells
  have ht := h.text
  clear h
  induction t with
  | nil => simp [CString.len]
  | cons x t ih =>
    rw [List.mem_cons, not_or] at ht
    simp [CString.len, Ne.symm ht.1, ih ht.2]

theorem copy_append {t : List α} (ht : nul ∉ t) (rest l r : List α) (h : t.length < r.length) :
    copy nul (l ++ r) l.length (t ++ nul :: rest) =
      some (l ++ t ++ nul :: r.drop (t.length + 1)) := by
  induction t generalizing l r with
  | nil =>
    cases r with
    | nil => simp at h
    | cons y r => simp [copy, store_append]
  | cons x t ih =>
    cases r with
    | nil => simp at h
    | cons y r =>
      rw [List.mem_cons, not_or] at ht
      have hnext := ih ht.2 (l ++ [x]) r (by simpa using h)
      rw [List.length_append, List.length_singleton] at hnext
      rw [List.cons_append, copy, if_neg (Ne.symm ht.1), store_append]
      simpa using hnext

theorem Holds.append {b s src t : List α} (h : Holds nul b s) (hs : Holds nul src t)
    (hfit : s.length + t.length < b.length) :
    ∃ b', copy nul b s.length src = some b' ∧ b'.length = b.length ∧ Holds nul b' (s ++ t) := by
  obtain ⟨rest, rfl⟩ := h.cells
  obtain ⟨srcRest, rfl⟩ := hs.cells
  rw [List.length_append] at hfit
  have hcopy := copy_append hs.text srcRest s (nul :: rest) (by omega)
  refine ⟨_, hcopy, ?_, ?_⟩
  · simp only [List.length_append, List.length_cons, List.length_drop] at hfit ⊢
    omega
  · have hnot : nul ∉ s ++ t := by
      rw [List.mem_append, not_or]
      exact ⟨h.text, hs.text⟩
    exact ⟨hnot, _, rfl⟩

theorem Holds.copy {src t : List α} (hs : Holds nul src t) {b : List α}
    (hfit : t.length < b.length) :
    ∃ b', copy nul b 0 src = some b' ∧ b'.length = b.length ∧ Holds nul b' t := by
  obtain ⟨srcRest, rfl⟩ := hs.cells
  have hcopy := copy_append hs.text srcRest [] b hfit
  refine ⟨_, hcopy, ?_, hs.text, _, rfl⟩
  simp only [List.nil_append, List.length_append, List.length_cons, List.length_drop]
  omega

end Swindle.Machine.CString
