import Mathlib.Logic.Function.Iterate
import Mathlib.Data.List.Nodup

/-! Checksums over any word type: a step that loses neither its state nor its word tells apart
two messages that differ in one word. -/
namespace Swindle.Machine.Checksum

variable {σ α : Type*} {feed : σ → α → σ}

/-- Neither the state nor the word is lost: each follows from the result and the other. -/
structure Lossless (feed : σ → α → σ) : Prop where
  state : ∀ v, Function.Injective fun r => feed r v
  word : ∀ r, Function.Injective (feed r)

theorem Lossless.foldl_injective (h : Lossless feed) (l : List α) :
    Function.Injective fun r => l.foldl feed r := by
  induction l with
  | nil => exact fun _ _ hr => hr
  | cons v l ih => exact fun _ _ hr => h.state v (ih hr)

/-- Up to the changed word both runs agree, behind it they stay apart. -/
theorem Lossless.foldl_ne (h : Lossless feed) {ι : Type*} {l : List ι} (hl : l.Nodup)
    {u v : ι → α} {k : ι} (hk : k ∈ l) (hne : u k ≠ v k) (hsame : ∀ i ∈ l, i ≠ k → u i = v i)
    (r : σ) : (l.map u).foldl feed r ≠ (l.map v).foldl feed r := by
  obtain ⟨before, after, rfl⟩ := List.append_of_mem hk
  have hnot := (List.nodup_middle.mp hl).notMem
  rw [List.mem_append, not_or] at hnot
  have hbefore : before.map u = before.map v := List.map_congr_left fun i hi =>
    hsame i (by simp [hi]) (fun heq => hnot.1 (heq ▸ hi))
  have hafter : after.map u = after.map v := List.map_congr_left fun i hi =>
    hsame i (by simp [hi]) (fun heq => hnot.2 (heq ▸ hi))
  simp only [List.map_append, List.map_cons, List.foldl_append, List.foldl_cons, hbefore, hafter]
  intro heq
  exact hne (h.word _ (h.foldl_injective _ heq))

/-! Shift registers with feedback. -/

section Register

variable {w : ℕ}

/-- One shift: the bit that falls out at the top decides whether `poly` is added. -/
def shift (poly v : BitVec w) : BitVec w := if v.msb then (v <<< 1) ^^^ poly else v <<< 1

theorem shift_getLsbD_zero {poly : BitVec w} (hodd : poly.getLsbD 0) (v : BitVec w) :
    (shift poly v).getLsbD 0 = v.msb := by
  unfold shift
  cases hv : v.msb <;> simp [hodd]

theorem shiftLeft_one_inj {v u : BitVec w} (hmsb : v.msb = u.msb) (h : v <<< 1 = u <<< 1) :
    v = u := by
  apply BitVec.eq_of_getLsbD_eq
  intro i hi
  by_cases htop : i = w - 1
  · rw [BitVec.msb_eq_getLsbD_last, BitVec.msb_eq_getLsbD_last] at hmsb
    rw [htop, hmsb]
  · have hbit := congrArg (fun x : BitVec w => x.getLsbD (i + 1)) h
    simpa only [BitVec.getLsbD_shiftLeft, show i + 1 < w by omega, decide_true, Bool.true_and,
      Nat.not_lt.mpr (Nat.le_add_left 1 i), decide_false, Bool.not_false, Nat.add_sub_cancel]
      using hbit

/-- The lowest bit of an odd polynomial keeps what the shift drops. -/
theorem shift_injective {poly : BitVec w} (hodd : poly.getLsbD 0) :
    Function.Injective (shift poly) := by
  intro v u h
  have hmsb : v.msb = u.msb := by
    rw [← shift_getLsbD_zero hodd v, h, shift_getLsbD_zero hodd]
  refine shiftLeft_one_inj hmsb ?_
  unfold shift at h
  rw [hmsb] at h
  cases hu : u.msb with
  | false => simpa [hu] using h
  | true => simpa [hu] using h

theorem lossless_xor {f : BitVec w → BitVec w} (hf : Function.Injective f) :
    Lossless fun r v => f (r ^^^ v) where
  state _ _ _ h := (BitVec.xor_left_inj _).mp (hf h)
  word _ _ _ h := (BitVec.xor_right_inj _).mp (hf h)

end Register

end Swindle.Machine.Checksum
