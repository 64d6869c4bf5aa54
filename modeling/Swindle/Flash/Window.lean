import Swindle.Flash.Program

/-! Erasing from an address that need not be aligned. The blank test looks at one page size from
the address on, the erase takes the page that contains it. -/
namespace Swindle
open Machine

section Window

variable (c : Device)

theorem eraseUnlessBlank_window {f : Flash} (h : f.Idle false) (page : Addr) :
    (eraseUnlessBlank c page f).mem =
      if flashPageIsErased c f.mem page then f.mem else Nor.erase (SamePage c page) f.mem := by
  unfold eraseUnlessBlank
  split
  · rfl
  · rw [Flash.erasePage_eq h]

/-- The page of `x` is erased: the loop visits an address in it with a window that is not
blank. -/
def Cleared (mem : Addr → Byte) (page limit x : Addr) : Prop :=
  ∃ p, Visits c page limit p ∧ SamePage c p x ∧ ¬Nor.Blank (InSpan p c.getFlashPageSize) mem

/-- A window behind the page of `page` does not meet it. -/
theorem not_samePage_of_window {page p x : Addr}
    (hp : page.toNat + c.getFlashPageSize ≤ p.toNat) (hfit : p.toNat ≤ 2 ^ 31)
    (hx : InSpan p c.getFlashPageSize x) : ¬SamePage c page x := by
  have hps := c.pageSize_cases
  have hspan := (inSpan_iff (show p.toNat + c.getFlashPageSize ≤ 2 ^ 32 by omega)).mp hx
  intro hs
  unfold SamePage at hs
  rcases hps with hps | hps <;> rw [hps] at hp hspan hs <;> omega

/-- So the rounds to come find their windows as they were before. -/
theorem blank_window_iff {f : Flash} (h : f.Idle false) {page p : Addr}
    (hp : page.toNat + c.getFlashPageSize ≤ p.toNat) (hfit : p.toNat ≤ 2 ^ 31) :
    Nor.Blank (InSpan p c.getFlashPageSize) (eraseUnlessBlank c page f).mem ↔
      Nor.Blank (InSpan p c.getFlashPageSize) f.mem := by
  rw [eraseUnlessBlank_window c h]
  split
  · rfl
  · refine forall₂_congr fun x hx => ?_
    rw [Nor.erase, if_neg (not_samePage_of_window c hp hfit hx)]

theorem visits_succ {page limit p : Addr} (h : page < limit) (hl : limit.toNat ≤ 2 ^ 31) :
    Visits c page limit p ↔
      p = page ∨ Visits c (page + BitVec.ofNat 32 c.getFlashPageSize) limit p := by
  have hnext := nextPage_toNat c h hl
  constructor
  · rintro ⟨j, hj, hlt⟩
    cases j with
    | zero => exact .inl (BitVec.eq_of_toNat_eq (by simpa using hj))
    | succ j =>
      refine .inr ⟨j, ?_, hlt⟩
      rw [hj, hnext, Nat.mul_succ]
      omega
  · rintro (rfl | ⟨j, hj, hlt⟩)
    · exact ⟨0, by simp, h⟩
    · refine ⟨j + 1, ?_, hlt⟩
      rw [hj, hnext, Nat.mul_succ]
      omega

theorem cleared_succ {f : Flash} (h : f.Idle false) {page limit : Addr} (hp : page < limit)
    (hl : limit.toNat ≤ 2 ^ 31) (x : Addr) :
    Cleared c f.mem page limit x ↔
      SamePage c page x ∧ ¬Nor.Blank (InSpan page c.getFlashPageSize) f.mem ∨
        Cleared c (eraseUnlessBlank c page f).mem
          (page + BitVec.ofNat 32 c.getFlashPageSize) limit x := by
  have hlater : ∀ p, Visits c (page + BitVec.ofNat 32 c.getFlashPageSize) limit p →
      (Nor.Blank (InSpan p c.getFlashPageSize) (eraseUnlessBlank c page f).mem ↔
        Nor.Blank (InSpan p c.getFlashPageSize) f.mem) := by
    rintro p ⟨j, hj, hlt⟩
    have hnext := nextPage_toNat c hp hl
    have hlt' := BitVec.lt_def.mp hlt
    exact blank_window_iff c h (by omega) (by omega)
  unfold Cleared
  constructor
  · rintro ⟨p, hv, hs, hb⟩
    rcases (visits_succ c hp hl).mp hv with rfl | hv'
    · exact .inl ⟨hs, hb⟩
    · exact .inr ⟨p, hv', hs, mt (hlater p hv').mp hb⟩
  · rintro (⟨hs, hb⟩ | ⟨p, hv, hs, hb⟩)
    · exact ⟨page, ⟨0, by simp, hp⟩, hs, hb⟩
    · exact ⟨p, (visits_succ c hp hl).mpr (.inr hv), hs, mt (hlater p hv).mpr hb⟩

theorem not_visits {page limit : Addr} (h : ¬page < limit) (p : Addr) :
    ¬Visits c page limit p := by
  rintro ⟨j, hj, hlt⟩
  rw [BitVec.lt_def] at h hlt
  omega

/-- From any address, the loop blanks the pages it clears and nothing else changes. -/
theorem erasePages_window {limit : Addr} (hl : limit.toNat ≤ 2 ^ 31) {fuel : ℕ} {page : Addr}
    {f : Flash} (h : f.Idle false)
    (hfuel : limit.toNat ≤ page.toNat + c.getFlashPageSize * fuel) (x : Addr) :
    (Cleared c f.mem page limit x →
        (erasePages c limit fuel page f).mem x = BitVec.allOnes 8) ∧
      (¬Cleared c f.mem page limit x → (erasePages c limit fuel page f).mem x = f.mem x) := by
  induction fuel generalizing page f with
  | zero =>
    have hp : ¬page < limit := by
      rw [BitVec.lt_def]
      omega
    refine ⟨?_, fun _ => rfl⟩
    rintro ⟨p, hv, -⟩
    exact absurd hv (not_visits c hp p)
  | succ fuel ih =>
    rw [erasePages_succ]
    by_cases hp : page < limit
    · have hnext := nextPage_toNat c hp hl
      have hidle : (eraseUnlessBlank c page f).Idle false := (eraseUnlessBlank_cr c h page).1.trans h
      obtain ⟨hyes, hno⟩ := @ih (page + BitVec.ofNat 32 c.getFlashPageSize) _ hidle
        (by rw [hnext]; rw [Nat.mul_succ] at hfuel; omega)
      rw [if_pos hp, cleared_succ c h hp hl]
      have hround := eraseUnlessBlank_window c h page
      by_cases hlater : Cleared c (eraseUnlessBlank c page f).mem
          (page + BitVec.ofNat 32 c.getFlashPageSize) limit x
      · exact ⟨fun _ => hyes hlater, fun hnot => absurd (.inr hlater) hnot⟩
      · rw [hno hlater]
        constructor
        · rintro (⟨hs, hb⟩ | hc)
          · rw [hround, if_neg (mt (pageIsErased_iff c f.mem page).mp hb)]
            exact if_pos hs
          · exact absurd hc hlater
        · intro hnot
          rw [hround]
          split
          · rfl
          · rename_i hb
            rw [pageIsErased_iff] at hb
            exact if_neg fun hs => hnot (.inl ⟨hs, hb⟩)
    · rw [if_neg hp]
      refine ⟨?_, fun _ => rfl⟩
      rintro ⟨p, hv, -⟩
      exact absurd hv (not_visits c hp p)

end Window

end Swindle
