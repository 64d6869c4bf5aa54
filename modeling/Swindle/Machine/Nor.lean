import Mathlib.Data.List.Basic

/-! NOR memory over any address type: erasing sets cells to all ones, programming can only
clear bits, and the two together overwrite a region. -/
namespace Swindle.Machine.Nor

variable {α : Type*} {w : ℕ}

/-- Every cell of `S` becomes all ones. -/
def erase (S : α → Prop) [DecidablePred S] (m : α → BitVec w) : α → BitVec w :=
  fun a => if S a then BitVec.allOnes w else m a

/-- Every cell of `S` keeps the bits it shares with `v`. -/
def program (S : α → Prop) [DecidablePred S] (v m : α → BitVec w) : α → BitVec w :=
  fun a => if S a then m a &&& v a else m a

/-- Every cell of `S` takes its value from `v`. -/
def overwrite (S : α → Prop) [DecidablePred S] (v m : α → BitVec w) : α → BitVec w :=
  fun a => if S a then v a else m a

def Blank (S : α → Prop) (m : α → BitVec w) : Prop := ∀ a, S a → m a = BitVec.allOnes w

variable {S T : α → Prop} [DecidablePred S] [DecidablePred T] {v u m : α → BitVec w}

omit [DecidablePred S] in
theorem blank_erase (h : ∀ a, S a → T a) : Blank S (erase T m) :=
  fun a ha => if_pos (h a ha)

theorem erase_of_blank (h : Blank S m) : erase S m = m := by
  funext a
  by_cases ha : S a
  · exact (if_pos ha).trans (h a ha).symm
  · exact if_neg ha

theorem erase_congr (hs : ∀ a, S a ↔ T a) : erase S m = erase T m := by
  funext a
  by_cases ht : T a
  · simp [erase, (hs a).mpr ht, ht]
  · simp [erase, mt (hs a).mp ht, ht]

theorem overwrite_of_mem {a : α} (h : S a) : overwrite S v m a = v a := if_pos h

theorem overwrite_of_not {a : α} (h : ¬S a) : overwrite S v m a = m a := if_neg h

theorem erase_erase : erase S (erase T m) = erase (fun a => S a ∨ T a) m := by
  funext a
  by_cases hs : S a <;> by_cases ht : T a <;> simp [erase, hs, ht]

theorem program_empty (h : ∀ a, ¬S a) : program S v m = m := funext fun a => if_neg (h a)

theorem program_congr (hs : ∀ a, S a ↔ T a) (hv : ∀ a, T a → v a = u a) :
    program S v m = program T u m := by
  funext a
  by_cases ht : T a
  · simp [program, (hs a).mpr ht, ht, hv a ht]
  · simp [program, mt (hs a).mp ht, ht]

theorem program_program : program S v (program T v m) = program (fun a => S a ∨ T a) v m := by
  funext a
  by_cases hs : S a <;> by_cases ht : T a <;> simp [program, hs, ht, BitVec.and_assoc]

theorem program_of_blank (h : Blank S m) : program S v m = overwrite S v m := by
  funext a
  by_cases ha : S a
  · simp [program, overwrite, ha, h a ha]
  · simp [program, overwrite, ha]

/-- Erasing `T` and then storing `v` in `S ⊆ T` overwrites `T` with `v` padded by ones. -/
theorem program_erase (h : ∀ a, S a → T a) :
    program S v (erase T m) =
      overwrite T (fun a => if S a then v a else BitVec.allOnes w) m := by
  rw [program_of_blank (blank_erase h)]
  funext a
  by_cases ht : T a
  · by_cases hs : S a <;> simp [overwrite, erase, hs, ht]
  · simp [overwrite, erase, mt (h a) ht, ht]

theorem overwrite_overwrite :
    overwrite S v (overwrite T v m) = overwrite (fun a => S a ∨ T a) v m := by
  funext a
  by_cases hs : S a <;> by_cases ht : T a <;> simp [overwrite, hs, ht]

theorem overwrite_congr (hs : ∀ a, S a ↔ T a) (hv : ∀ a, T a → v a = u a) :
    overwrite S v m = overwrite T u m := by
  funext a
  by_cases ht : T a
  · simp [overwrite, (hs a).mpr ht, ht, hv a ht]
  · simp [overwrite, mt (hs a).mp ht, ht]

/-- Region writes that all take their data from `v` end the same in every order and under
every repetition: exactly the regions written hold `v`. -/
theorem foldl_overwrite {ι : Type*} (R : ι → α → Prop) [∀ i, DecidablePred (R i)]
    (v m : α → BitVec w) (is : List ι) :
    is.foldl (fun m i => overwrite (R i) v m) m =
      overwrite (fun a => ∃ i ∈ is, R i a) v m := by
  induction is generalizing m with
  | nil => exact funext fun a => (if_neg (by simp)).symm
  | cons i is ih =>
    rw [List.foldl_cons, ih, overwrite_overwrite]
    exact overwrite_congr (fun a => by simp [or_comm]) (fun _ _ => rfl)

end Swindle.Machine.Nor
