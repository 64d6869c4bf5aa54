import Mathlib.Algebra.Ring.Nat
import Mathlib.Data.List.Basic
import Mathlib.Tactic.Common

/-! Allocation by a pointer that only moves up. A request moves it by one size, and what is used
from there on may have another. -/
namespace Swindle.Machine.Bump

structure Region where
  start : ℕ
  len : ℕ
  deriving DecidableEq, Repr

def Region.Covers (r : Region) (x : ℕ) : Prop := r.start ≤ x ∧ x < r.start + r.len

def Region.Disjoint (r s : Region) : Prop := ∀ x, r.Covers x → ¬s.Covers x

/-- What is asked for, and what is used. -/
structure Request where
  size : ℕ
  used : ℕ
  deriving DecidableEq, Repr

/-- The regions used when the pointer starts at `top`. -/
def place (top : ℕ) : List Request → List Region
  | [] => []
  | r :: rs => ⟨top, r.used⟩ :: place (top + r.size) rs

theorem place_append (top : ℕ) (rs ss : List Request) :
    place top (rs ++ ss) = place top rs ++ place (top + (rs.map Request.size).sum) ss := by
  induction rs generalizing top with
  | nil => simp [place]
  | cons r rs ih => simp [place, ih, Nat.add_assoc]

theorem le_start_of_mem {top : ℕ} {rs : List Request} {x : Region} (h : x ∈ place top rs) :
    top ≤ x.start := by
  induction rs generalizing top with
  | nil => cases h
  | cons r rs ih =>
    rw [place, List.mem_cons] at h
    rcases h with rfl | h
    · exact Nat.le_refl _
    · exact Nat.le_trans (Nat.le_add_right _ _) (ih h)

/-- A region that stays within its size is disjoint from all that come after it, and one that
does not runs into the next. -/
theorem disjoint_rest_iff {top : ℕ} (r : Request) {rs : List Request}
    (h : ∀ s ∈ rs, 0 < s.used) :
    (∀ x ∈ place (top + r.size) rs, Region.Disjoint ⟨top, r.used⟩ x) ↔
      rs = [] ∨ r.used ≤ r.size := by
  constructor
  · intro hall
    cases rs with
    | nil => exact .inl rfl
    | cons s rs =>
      by_contra hnot
      rw [not_or, Nat.not_le] at hnot
      have hpos := h s (by simp)
      have hdis := hall ⟨top + r.size, s.used⟩ (by simp [place])
      exact hdis (top + r.size) ⟨Nat.le_add_right _ _, Nat.add_lt_add_left hnot.2 _⟩
        ⟨Nat.le_refl _, Nat.lt_add_of_pos_right hpos⟩
  · intro hor x hx y hy hcov
    rcases hor with rfl | hle
    · cases hx
    · have hstart := le_start_of_mem hx
      have hlow := hcov.1
      have hhigh : y < top + r.used := hy.2
      omega

theorem pairwise_disjoint_iff {top : ℕ} {rs : List Request} (h : ∀ r ∈ rs, 0 < r.used) :
    (place top rs).Pairwise Region.Disjoint ↔ ∀ r ∈ rs.dropLast, r.used ≤ r.size := by
  induction rs generalizing top with
  | nil => simp [place]
  | cons r rs ih =>
    have hrest : ∀ s ∈ rs, 0 < s.used := fun s hs => h s (List.mem_cons_of_mem r hs)
    rw [place, List.pairwise_cons, ih hrest, disjoint_rest_iff r hrest]
    cases rs with
    | nil => simp
    | cons s rs => simp [List.dropLast_cons_of_ne_nil]

end Swindle.Machine.Bump
