import Mathlib.Tactic.IntervalCases
import Swindle.Flash.Controller
import Swindle.Machine.Buffer

/-! What the routines of `flash.h` do to the flash array, in terms of erasing and programming
whole regions. -/
namespace Swindle
open Machine

/-! Words as bytes. -/

theorem leByte_load16 (p : ℕ → Byte) (i : ℕ) {j : ℕ} (h : j < 2) :
    leByte (load16 p i) j = p (i + j) := by
  apply BitVec.eq_of_getLsbD_eq
  intro k hk
  simp only [leByte, load16, BitVec.getLsbD_extractLsb', BitVec.getLsbD_append]
  interval_cases j
  · simp [hk]
  · simp [hk]

theorem leByte_load32 (p : ℕ → Byte) (i : ℕ) {j : ℕ} (h : j < 4) :
    leByte (load32 p i) j = p (i + j) := by
  apply BitVec.eq_of_getLsbD_eq
  intro k hk
  simp only [leByte, load32, BitVec.getLsbD_extractLsb', BitVec.getLsbD_append]
  interval_cases j
  · simp [hk, show k < 16 by omega, show k < 24 by omega]
  · simp [hk, show 8 + k < 16 by omega, show 8 + k < 24 by omega]
  · simp [hk, show 16 + k < 24 by omega]
  · simp [hk]

theorem load32_inj {p q : ℕ → Byte} {i : ℕ} :
    load32 p i = load32 q i ↔ ∀ j < 4, p (i + j) = q (i + j) := by
  constructor
  · intro h j hj
    rw [← leByte_load32 p i hj, h, leByte_load32 q i hj]
  · intro h
    have h0 : p i = q i := h 0 (by decide)
    rw [load32, load32, h 3 (by decide), h 2 (by decide), h 1 (by decide), h0]

theorem load32_eq_allOnes (p : ℕ → Byte) (i : ℕ) :
    load32 p i = 0xffffffff#32 ↔ ∀ j < 4, p (i + j) = BitVec.allOnes 8 := by
  constructor
  · intro h j hj
    rw [← leByte_load32 p i hj, h]
    interval_cases j <;> decide
  · intro h
    rw [load32, h 3 (by decide), h 2 (by decide), h 1 (by decide),
      show p i = BitVec.allOnes 8 from h 0 (by decide)]
    decide

/-! Address ranges. -/

theorem inSpan_add {a x : Addr} {m k : ℕ} (h : m + k ≤ 2 ^ 32) :
    InSpan (a + BitVec.ofNat 32 m) k x ↔ m ≤ (x - a).toNat ∧ (x - a).toNat < m + k := by
  have hx := x.isLt
  have ha := a.isLt
  simp only [InSpan, BitVec.toNat_sub, BitVec.toNat_add, BitVec.toNat_ofNat]
  omega

theorem inSpan_iff {a x : Addr} {n : ℕ} (h : a.toNat + n ≤ 2 ^ 32) :
    InSpan a n x ↔ a.toNat ≤ x.toNat ∧ x.toNat < a.toNat + n := by
  have hx := x.isLt
  have ha := a.isLt
  simp only [InSpan, BitVec.toNat_sub]
  omega

theorem samePage_iff (c : Device) {a x : Addr} (h : a.toNat % c.getFlashPageSize = 0) :
    SamePage c a x ↔ InSpan a c.getFlashPageSize x := by
  have hx := x.isLt
  have ha := a.isLt
  rcases c.pageSize_cases with hp | hp <;>
    rw [SamePage, inSpan_iff (by rw [hp] at h ⊢; omega), hp] <;> rw [hp] at h <;> omega

/-! The controller, one operation at a time. -/

namespace Flash

/-- No operation is selected; LOCK is as given. -/
def Idle (lock : Bool) (f : Flash) : Prop := f.cr = ⟨lock, false, false, false⟩

variable {c : Device} {f : Flash}

theorem idle_unlock {lock : Bool} (h : f.Idle lock) : (flashUnlock f).Idle false := by
  rw [Idle, flashUnlock, h]

theorem lock_eq (h : f.Idle false) :
    flashLock c f = { f with cr := ⟨true, false, false, false⟩ } := by
  obtain ⟨mem, cr, ar, erased, ops⟩ := f
  subst h
  rfl

theorem erasePage_eq (h : f.Idle false) (a : Addr) :
    flashErasePage c a f =
      { f with ar := a, mem := Nor.erase (SamePage c a) f.mem, ops := .erase a :: f.ops } := by
  obtain ⟨mem, cr, ar, erased, ops⟩ := f
  subst h
  rfl

end Flash

theorem pageIsErased_iff (c : Device) (mem : Addr → Byte) (a : Addr) :
    flashPageIsErased c mem a ↔ Nor.Blank (InSpan a c.getFlashPageSize) mem := by
  have hp := c.pageSize_cases
  rw [flashPageIsErased, List.all_eq_true]
  constructor
  · intro h x hx
    have hx' : (x - a).toNat < c.getFlashPageSize := hx
    have hword := h ((x - a).toNat / 4) (List.mem_range.mpr (by omega))
    rw [decide_eq_true_eq, read32, load32_eq_allOnes] at hword
    have hbyte := hword ((x - a).toNat % 4) (by omega)
    have hadr : a + BitVec.ofNat 32 (4 * ((x - a).toNat / 4)) +
        BitVec.ofNat 32 (0 + (x - a).toNat % 4) = x := by
      have hxl := x.isLt
      have hal := a.isLt
      apply BitVec.eq_of_toNat_eq
      simp only [BitVec.toNat_sub, BitVec.toNat_add, BitVec.toNat_ofNat]
      omega
    rw [hadr] at hbyte
    exact hbyte
  · intro h i hi
    have hi' : i < c.getFlashPageSize / 4 := List.mem_range.mp hi
    rw [decide_eq_true_eq, read32, load32_eq_allOnes]
    intro j hj
    apply h
    have hal := a.isLt
    simp only [InSpan, BitVec.toNat_sub, BitVec.toNat_add, BitVec.toNat_ofNat]
    omega

/-! Programming. -/

theorem program_extend (a : Addr) (data : ℕ → Byte) {k m : ℕ} (h : m + k ≤ 2 ^ 32)
    {v : ℕ → Byte} (hv : ∀ j < k, v j = data (m + j)) (mem : Addr → Byte) :
    Nor.program (InSpan (a + BitVec.ofNat 32 m) k)
        (fun x => v (x - (a + BitVec.ofNat 32 m)).toNat)
        (Nor.program (InSpan a m) (fun x => data (x - a).toNat) mem) =
      Nor.program (InSpan a (m + k)) (fun x => data (x - a).toNat) mem := by
  have hdata : Nor.program (InSpan (a + BitVec.ofNat 32 m) k)
      (fun x => v (x - (a + BitVec.ofNat 32 m)).toNat)
      (Nor.program (InSpan a m) (fun x => data (x - a).toNat) mem) =
        Nor.program (InSpan (a + BitVec.ofNat 32 m) k) (fun x => data (x - a).toNat)
          (Nor.program (InSpan a m) (fun x => data (x - a).toNat) mem) := by
    apply Nor.program_congr (fun _ => Iff.rfl)
    intro x hx
    rw [hv _ hx]
    apply congrArg
    obtain ⟨hlo, -⟩ := (inSpan_add h).mp hx
    have hal := a.isLt
    have hxl := x.isLt
    have hx' : (x - (a + BitVec.ofNat 32 m)).toNat < k := hx
    simp only [BitVec.toNat_sub, BitVec.toNat_add, BitVec.toNat_ofNat] at hlo hx' ⊢
    omega
  rw [hdata, Nor.program_program]
  apply Nor.program_congr _ (fun _ _ => rfl)
  intro x
  rw [inSpan_add h]
  simp only [InSpan]
  omega

theorem storeLoop_eq (f : Flash) (a : Addr) (data : ℕ → Byte) {k : ℕ} (w : ℕ → ℕ → Byte)
    (hw : ∀ i, ∀ j < k, w i j = data (k * i + j)) (hpg : f.cr.pg && !f.cr.lock) (n : ℕ)
    (hn : k * n ≤ 2 ^ 32) :
    (List.range n).foldl (fun f i => f.store (a + BitVec.ofNat 32 (k * i)) k (w i)) f =
      { f with
        mem := Nor.program (InSpan a (k * n)) (fun x => data (x - a).toNat) f.mem
        ops := ((List.range n).map fun i => .program (a + BitVec.ofNat 32 (k * i)) k).reverse ++
          f.ops } := by
  induction n with
  | zero =>
    have hempty : Nor.program (InSpan a (k * 0)) (fun x => data (x - a).toNat) f.mem = f.mem :=
      Nor.program_empty fun x hx => Nat.not_lt_zero _ hx
    simp only [List.range_zero, List.foldl_nil, hempty, List.map_nil, List.reverse_nil,
      List.nil_append]
  | succ n ih =>
    have hk : k * (n + 1) = k * n + k := Nat.mul_succ k n
    rw [List.range_succ, List.foldl_append, ih (by omega), List.foldl_cons, List.foldl_nil,
      Flash.store]
    rw [if_pos hpg, List.map_append, List.reverse_append]
    dsimp only
    rw [program_extend a data (by omega) (hw n), hk]
    rfl

/-- What programming leaves behind: the data in the range, and stores inside the range only. -/
structure Programmed (a : Addr) (data : ℕ → Byte) (len : ℕ) (f g : Flash) : Prop where
  cr : g.cr = f.cr
  erased : g.erased = f.erased
  mem : g.mem = Nor.program (InSpan a (2 * (len / 2))) (fun x => data (x - a).toNat) f.mem
  ops : ∃ l, g.ops = l ++ f.ops ∧ ∀ op ∈ l, ∃ m n, op = .program (a + BitVec.ofNat 32 m) n ∧
    2 ≤ n ∧ m + n ≤ len

theorem storeLoop_programmed {c : Device} {f : Flash} (h : f.Idle false) (a : Addr)
    (data : ℕ → Byte) {k n len : ℕ} (hk : 2 ≤ k) (w : ℕ → ℕ → Byte)
    (hw : ∀ i, ∀ j < k, w i j = data (k * i + j)) (hlen : k * n = 2 * (len / 2))
    (hl : len ≤ 65535) :
    let g := f.writeCr c { f.cr with pg := true }
    let g' := (List.range n).foldl (fun f i => f.store (a + BitVec.ofNat 32 (k * i)) k (w i)) g
    Programmed a data len f (g'.writeCr c { g'.cr with pg := false }) := by
  obtain ⟨mem, cr, ar, erased, ops⟩ := f
  subst h
  intro g g'
  have hloop := storeLoop_eq g a data w hw rfl n (by omega)
  have hg' : g' = { g with
      mem := Nor.program (InSpan a (k * n)) (fun x => data (x - a).toNat) g.mem
      ops := ((List.range n).map fun i => .program (a + BitVec.ofNat 32 (k * i)) k).reverse ++
        g.ops } := hloop
  rw [hg']
  refine ⟨rfl, rfl, ?_, _, rfl, ?_⟩
  · rw [← hlen]
    rfl
  · intro op hop
    rw [List.mem_reverse, List.mem_map] at hop
    obtain ⟨i, hi, rfl⟩ := hop
    have hi' : i < n := List.mem_range.mp hi
    have hle : k * i + k ≤ k * n := by
      rw [← Nat.mul_succ]
      exact Nat.mul_le_mul_left k hi'
    exact ⟨k * i, k, rfl, hk, by omega⟩

theorem programBuffer_programmed (c : Device) {f : Flash} (h : f.Idle false) (a : Addr)
    (data : ℕ → Byte) {len : ℕ} (hl : len ≤ 65535) :
    Programmed a data len f (flashProgramBuffer c a data len f) :=
  storeLoop_programmed h a data (by decide) (fun i => leByte (load16 data (2 * i)))
    (fun i _ hj => leByte_load16 data (2 * i) hj) rfl hl

theorem programBufferGd32_programmed (c : Device) {f : Flash} (h : f.Idle false) (a : Addr)
    (data : ℕ → Byte) {len : ℕ} (hl : len ≤ 65535) :
    Programmed a data len f (flashProgramBufferGd32 c a data len f) := by
  unfold flashProgramBufferGd32
  split
  · exact programBuffer_programmed c h a data hl
  · exact storeLoop_programmed h a data (by decide) (fun i => leByte (load32 data (4 * i)))
      (fun i _ hj => leByte_load32 data (4 * i) hj) (by omega) hl

/-! Erasing the pages of a range. -/

section Erase

variable (c : Device)

/-- The addresses at which a loop from `page` up to `limit` tests and erases a page. -/
def Visits (page limit p : Addr) : Prop :=
  ∃ j, p.toNat = page.toNat + c.getFlashPageSize * j ∧ p < limit

/-- The pages such a loop covers. -/
def Touched (page limit x : Addr) : Prop :=
  page.toNat / c.getFlashPageSize ≤ x.toNat / c.getFlashPageSize ∧
    x.toNat / c.getFlashPageSize * c.getFlashPageSize < limit.toNat

instance (page limit : Addr) : DecidablePred (Touched c page limit) :=
  fun _ => inferInstanceAs (Decidable (_ ∧ _))

/-- One round: a page that is not blank is erased, so the page is blank in the end. -/
def eraseUnlessBlank (page : Addr) (f : Flash) : Flash :=
  if flashPageIsErased c f.mem page then f else flashErasePage c page f

theorem erasePages_succ (limit page : Addr) (fuel : ℕ) (f : Flash) :
    erasePages c limit (fuel + 1) page f =
      if page < limit then
        erasePages c limit fuel (page + BitVec.ofNat 32 c.getFlashPageSize)
          (eraseUnlessBlank c page f)
      else f := rfl

theorem eraseUnlessBlank_cr {f : Flash} (h : f.Idle false) (page : Addr) :
    (eraseUnlessBlank c page f).cr = f.cr ∧ (eraseUnlessBlank c page f).erased = f.erased := by
  unfold eraseUnlessBlank
  split
  · exact ⟨rfl, rfl⟩
  · rw [Flash.erasePage_eq h]
    exact ⟨rfl, rfl⟩

theorem eraseUnlessBlank_mem {f : Flash} (h : f.Idle false) {page : Addr}
    (ha : page.toNat % c.getFlashPageSize = 0) :
    (eraseUnlessBlank c page f).mem = Nor.erase (SamePage c page) f.mem := by
  unfold eraseUnlessBlank
  split
  · rename_i hb
    have hblank : Nor.Blank (SamePage c page) f.mem := fun x hx =>
      (pageIsErased_iff c f.mem page).mp hb x ((samePage_iff c ha).mp hx)
    exact (Nor.erase_of_blank hblank).symm
  · rw [Flash.erasePage_eq h]

theorem eraseUnlessBlank_blank {f : Flash} (h : f.Idle false) {page p : Addr}
    (hp : flashPageIsErased c f.mem p) :
    flashPageIsErased c (eraseUnlessBlank c page f).mem p := by
  unfold eraseUnlessBlank
  split
  · exact hp
  · rw [Flash.erasePage_eq h]
    rw [pageIsErased_iff] at hp ⊢
    intro x hx
    by_cases hs : SamePage c page x
    · exact if_pos hs
    · exact (if_neg hs).trans (hp x hx)

theorem nextPage_toNat {page limit : Addr} (h : page < limit) (hl : limit.toNat ≤ 2 ^ 31) :
    (page + BitVec.ofNat 32 c.getFlashPageSize).toNat = page.toNat + c.getFlashPageSize := by
  have hlt := BitVec.lt_def.mp h
  have hp := c.pageSize_cases
  rw [BitVec.toNat_add, BitVec.toNat_ofNat]
  omega

theorem erasePages_cr (limit : Addr) (fuel : ℕ) (page : Addr) {f : Flash} (h : f.Idle false) :
    (erasePages c limit fuel page f).cr = f.cr ∧
      (erasePages c limit fuel page f).erased = f.erased := by
  induction fuel generalizing page f with
  | zero => exact ⟨rfl, rfl⟩
  | succ fuel ih =>
    rw [erasePages_succ]
    split
    · obtain ⟨hcr, he⟩ := eraseUnlessBlank_cr c h page
      obtain ⟨hcr', he'⟩ := ih (page + BitVec.ofNat 32 c.getFlashPageSize) (hcr.trans h)
      exact ⟨hcr'.trans hcr, he'.trans he⟩
    · exact ⟨rfl, rfl⟩

theorem erasePages_ops {limit : Addr} (fuel : ℕ) (page : Addr) {f : Flash} (h : f.Idle false)
    (hl : limit.toNat ≤ 2 ^ 31) :
    ∃ l, (erasePages c limit fuel page f).ops = l ++ f.ops ∧ ∀ op ∈ l, ∃ p, op = .erase p ∧
      Visits c page limit p ∧ flashPageIsErased c f.mem p = false := by
  induction fuel generalizing page f with
  | zero => exact ⟨[], rfl, by simp⟩
  | succ fuel ih =>
    rw [erasePages_succ]
    by_cases hp : page < limit
    · rw [if_pos hp]
      have hnext := nextPage_toNat c hp hl
      obtain ⟨l, hl', hall⟩ := ih (page + BitVec.ofNat 32 c.getFlashPageSize)
        ((eraseUnlessBlank_cr c h page).1.trans h)
      have hrest : ∀ op ∈ l, ∃ p, op = .erase p ∧ Visits c page limit p ∧
          flashPageIsErased c f.mem p = false := by
        intro op hop
        obtain ⟨p, rfl, ⟨j, hj, hlt⟩, hb⟩ := hall op hop
        refine ⟨p, rfl, ⟨j + 1, ?_, hlt⟩, ?_⟩
        · rw [hj, hnext, Nat.mul_succ]
          omega
        · rw [← Bool.not_eq_true] at hb ⊢
          exact mt (eraseUnlessBlank_blank c h) hb
      by_cases hb : flashPageIsErased c f.mem page
      · have hsame : eraseUnlessBlank c page f = f := if_pos hb
        rw [hsame] at hl' ⊢
        exact ⟨l, hl', hrest⟩
      · have herase : (eraseUnlessBlank c page f).ops = .erase page :: f.ops := by
          rw [eraseUnlessBlank, if_neg hb, Flash.erasePage_eq h]
        rw [herase] at hl'
        refine ⟨l ++ [.erase page], by rw [hl']; simp, ?_⟩
        intro op hop
        rcases List.mem_append.mp hop with hop | hop
        · exact hrest op hop
        · rw [List.mem_singleton] at hop
          exact ⟨page, hop, ⟨0, by simp, hp⟩, by simpa using hb⟩
    · rw [if_neg hp]
      exact ⟨[], rfl, by simp⟩

theorem not_touched {page limit : Addr} (ha : page.toNat % c.getFlashPageSize = 0)
    (h : ¬page < limit) (x : Addr) : ¬Touched c page limit x := by
  rw [BitVec.lt_def] at h
  rintro ⟨hlo, hhi⟩
  have hmul := Nat.mul_le_mul_right c.getFlashPageSize hlo
  have hdiv := Nat.div_add_mod' page.toNat c.getFlashPageSize
  omega

theorem touched_succ {page limit : Addr} (ha : page.toNat % c.getFlashPageSize = 0)
    (h : page < limit) (hl : limit.toNat ≤ 2 ^ 31) (x : Addr) :
    Touched c (page + BitVec.ofNat 32 c.getFlashPageSize) limit x ∨ SamePage c page x ↔
      Touched c page limit x := by
  have hnext := nextPage_toNat c h hl
  rw [BitVec.lt_def] at h
  rcases c.pageSize_cases with hp | hp <;>
    simp only [Touched, SamePage, hnext] <;> rw [hp] at ha ⊢ <;> omega

/-- From an aligned address, every page up to `limit` ends up blank and nothing else
changes. -/
theorem erasePages_mem {limit : Addr} (hl : limit.toNat ≤ 2 ^ 31) {fuel : ℕ} {page : Addr}
    {f : Flash} (h : f.Idle false) (ha : page.toNat % c.getFlashPageSize = 0)
    (hfuel : limit.toNat ≤ page.toNat + c.getFlashPageSize * fuel) :
    (erasePages c limit fuel page f).mem = Nor.erase (Touched c page limit) f.mem := by
  induction fuel generalizing page f with
  | zero =>
    have hp : ¬page < limit := by
      rw [BitVec.lt_def]
      omega
    exact (Nor.erase_of_blank fun x hx => absurd hx (not_touched c ha hp x)).symm
  | succ fuel ih =>
    rw [erasePages_succ]
    by_cases hp : page < limit
    · have hnext := nextPage_toNat c hp hl
      have ha' : (page + BitVec.ofNat 32 c.getFlashPageSize).toNat % c.getFlashPageSize = 0 := by
        rw [hnext, Nat.add_mod_right, ha]
      rw [if_pos hp, ih ((eraseUnlessBlank_cr c h page).1.trans h) ha'
        (by rw [hnext]; rw [Nat.mul_succ] at hfuel; omega), eraseUnlessBlank_mem c h ha,
        Nor.erase_erase]
      exact Nor.erase_congr (touched_succ c ha hp hl)
    · rw [if_neg hp]
      exact (Nor.erase_of_blank fun x hx => absurd hx (not_touched c ha hp x)).symm

end Erase

end Swindle
