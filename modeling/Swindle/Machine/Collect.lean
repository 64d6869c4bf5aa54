import Swindle.Machine.Buffer

/-! A message collected from packets. The receiver takes from each packet what it still expects,
at most `k` cells, and counts on every packet to bring that much. -/
namespace Swindle.Machine

variable {α : Type*}

/-- What is taken from the packets by a receiver that expects `w` cells. -/
def collect (k : ℕ) : ℕ → List (List α) → List α
  | _, [] => []
  | w, d :: ds => d.take (min k w) ++ collect k (w - k) ds

/-- Every packet brings what is expected of it. -/
def Whole (k : ℕ) : ℕ → List (List α) → Prop
  | _, [] => True
  | w, d :: ds => min k w ≤ d.length ∧ Whole k (w - k) ds

instance Whole.decidable (k : ℕ) : ∀ (w : ℕ) (ds : List (List α)), Decidable (Whole k w ds)
  | _, [] => isTrue trivial
  | w, d :: ds =>
    have := Whole.decidable k (w - k) ds
    inferInstanceAs (Decidable (min k w ≤ d.length ∧ Whole k (w - k) ds))

variable {k w : ℕ} {ds : List (List α)} {d : List α}

private theorem sub_rest (w k n : ℕ) : w - k - k * n = w - k * (n + 1) := by
  rw [Nat.mul_succ]
  omega

theorem collect_concat :
    collect k w (ds ++ [d]) = collect k w ds ++ d.take (min k (w - k * ds.length)) := by
  induction ds generalizing w with
  | nil => simp [collect]
  | cons e ds ih =>
    rw [List.cons_append, collect, collect, ih, sub_rest, List.append_assoc, List.length_cons]

theorem whole_concat :
    Whole k w (ds ++ [d]) ↔ Whole k w ds ∧ min k (w - k * ds.length) ≤ d.length := by
  induction ds generalizing w with
  | nil => simp [Whole]
  | cons e ds ih =>
    rw [List.cons_append, Whole, Whole, ih, sub_rest, and_assoc, List.length_cons]

theorem length_collect_le : (collect k w ds).length ≤ w := by
  induction ds generalizing w with
  | nil => exact Nat.zero_le w
  | cons e ds ih =>
    have hrest := ih (w := w - k)
    rw [collect, List.length_append, List.length_take]
    omega

theorem blit_collect_of_le {b : ℕ → α} {i : ℕ} (h : w ≤ i) : blit 0 (collect k w ds) b i = b i := by
  have hle : (collect k w ds).length ≤ w := length_collect_le
  exact blit_of_le _ (by omega)

theorem length_collect (h : Whole k w ds) : (collect k w ds).length = min w (k * ds.length) := by
  induction ds generalizing w with
  | nil => simp [collect]
  | cons e ds ih =>
    obtain ⟨hfirst, hwhole⟩ := h
    rw [collect, List.length_append, List.length_take, ih hwhole, List.length_cons, Nat.mul_succ]
    omega

theorem slice_blit_collect (h : Whole k w ds) (hn : w ≤ k * ds.length) (b : ℕ → α) :
    slice (blit 0 (collect k w ds) b) 0 w = collect k w ds := by
  have hlen : (collect k w ds).length = w := by
    rw [length_collect h]
    exact Nat.min_eq_left hn
  have hslice := slice_blit 0 (collect k w ds) b
  rwa [hlen] at hslice

/-! A message cut into blocks of `k` is collected again. -/

theorem whole_blocks (d : List α) (n : ℕ) :
    Whole k d.length ((List.range n).map (block k d)) := by
  induction n with
  | zero => trivial
  | succ n ih =>
    rw [List.range_succ, List.map_append, List.map_singleton, whole_concat]
    refine ⟨ih, Nat.le_of_eq ?_⟩
    rw [length_block, List.length_map, List.length_range]

theorem collect_blocks (d : List α) (n : ℕ) :
    collect k d.length ((List.range n).map (block k d)) = d.take (k * n) := by
  induction n with
  | zero => simp [collect]
  | succ n ih =>
    have hall : (block k d n).take (min k (d.length - k * n)) = block k d n := by
      rw [← length_block, List.take_length]
    rw [List.range_succ, List.map_append, List.map_singleton, collect_concat, ih,
      List.length_map, List.length_range, hall, take_append_block]

end Swindle.Machine
