import Mathlib.Tactic.IntervalCases
import Swindle.Dfu.Layout
import Swindle.Machine.CString

/-! `prepare_memory_layout` as it works on its buffers: the digits go backwards into `num[8]`, and
the pieces are joined in `memory_layout[64]`. A write outside of either has no result. -/
namespace Swindle
open Machine

def xstrlen (src : List Byte) : Option ℕ := CString.len 0#8 src

def xstrcpy (tgt src : List Byte) : Option (List Byte) := CString.copy 0#8 tgt 0 src

def xstrcat (tgt src : List Byte) : Option (List Byte) := do
  let nb ← xstrlen tgt
  CString.copy 0#8 tgt nb src

/-- A string literal, with its terminator. -/
def literal (s : String) : List Byte := asciiBytes s ++ [0#8]

/-- `do { *--p = '0' + v % 10; v /= 10; } while (v)`: the buffer and where `p` ends up. -/
def digitLoop : ℕ → ℤ → List Byte → Option (List Byte × ℕ)
  | 0, _, _ => none
  | p + 1, v, num => do
    let num ← CString.store num p (BitVec.ofInt 8 (48 + v.tmod 10))
    let v := v.tdiv 10
    if v ≠ 0 then digitLoop p v num else some (num, p)

/-- The lines from `p = num + sizeof(num) - 1` to the `xstrcat` of the number, which the source
has twice. -/
def catNumber (layout num : List Byte) (v : ℤ) : Option (List Byte × List Byte) := do
  let num ← CString.store num 7 0#8
  let (num, p) ← digitLoop 7 v num
  let layout ← xstrcat layout (num.drop p)
  some (layout, num)

/-- `prepare_memory_layout`, from what the buffers hold before. -/
def writeMemoryLayout (c : Device) (layout num : List Byte) : Option (List Byte) := do
  let userKb : ℤ := c.flashSize - flashBootldrSizeKb
  let pageSizeKb := c.getFlashPageSize / 1024
  let bootloaderPages := flashBootldrSizeKb / pageSizeKb
  let userPages := userKb.tdiv pageSizeKb
  let layout ← xstrcpy layout (literal "@Internal Flash /0x08000000/")
  let (layout, num) ← catNumber layout num bootloaderPages
  let layout ← xstrcat layout (literal (if pageSizeKb = 2 then "*002Ka," else "*001Ka,"))
  let (layout, _) ← catNumber layout num userPages
  xstrcat layout (literal (if pageSizeKb = 2 then "*002Kg" else "*001Kg"))

/-! The digits. -/

theorem digit_byte {d : ℕ} (h : d < 10) :
    BitVec.ofInt 8 (48 + (d : ℤ)) = BitVec.ofNat 8 (Nat.digitChar d).toNat := by
  interval_cases d <;> decide

theorem digit_ne_zero {d : ℕ} (h : d < 10) : BitVec.ofInt 8 (48 + (d : ℤ)) ≠ 0#8 := by
  interval_cases d <;> decide

theorem zero_notMem_pushDigits (f n : ℕ) {acc : List Byte} (h : 0#8 ∉ acc) :
    0#8 ∉ pushDigits f n acc := by
  induction f generalizing n acc with
  | zero => exact h
  | succ f ih =>
    have hcons : 0#8 ∉ BitVec.ofInt 8 (48 + ((n % 10 : ℕ) : ℤ)) :: acc := by
      rw [List.mem_cons, not_or]
      exact ⟨(digit_ne_zero (Nat.mod_lt n (by decide))).symm, h⟩
    rw [pushDigits_succ]
    split
    · exact hcons
    · exact ih _ hcons

theorem length_pushDigits_le (f n : ℕ) (acc : List Byte) :
    (pushDigits f n acc).length ≤ f + acc.length := by
  induction f generalizing n acc with
  | zero => simp [pushDigits]
  | succ f ih =>
    rw [pushDigits_succ]
    split
    · rw [List.length_cons]
      omega
    · have hle := ih (n / 10) (BitVec.ofInt 8 (48 + ((n % 10 : ℕ) : ℤ)) :: acc)
      rw [List.length_cons] at hle
      omega

theorem pushDigits_congr {f g n : ℕ} (hf : 0 < f) (hg : 0 < g) (hnf : n < 10 ^ f)
    (hng : n < 10 ^ g) (acc : List Byte) : pushDigits f n acc = pushDigits g n acc := by
  induction f generalizing g n acc with
  | zero => exact absurd hf (Nat.lt_irrefl 0)
  | succ f ih =>
    obtain ⟨g, rfl⟩ := Nat.exists_eq_succ_of_ne_zero (Nat.pos_iff_ne_zero.mp hg)
    rw [pushDigits_succ, pushDigits_succ]
    split
    · rfl
    · rename_i hz
      have hf' := div_ten_lt hnf
      have hg' := div_ten_lt hng
      exact ih (fuel_pos hf' hz) (fuel_pos hg' hz) hf' hg' _

theorem pushDigits_toDigitsCore (f n : ℕ) (ds : List Char) :
    pushDigits f n (ds.map fun ch => BitVec.ofNat 8 ch.toNat) =
      (Nat.toDigitsCore 10 f n ds).map fun ch => BitVec.ofNat 8 ch.toNat := by
  induction f generalizing n ds with
  | zero => rfl
  | succ f ih =>
    have hdigit := digit_byte (Nat.mod_lt n (show 0 < 10 by decide))
    rw [pushDigits_succ, Nat.toDigitsCore, hdigit]
    split
    · rfl
    · exact ih (n / 10) (_ :: ds)

theorem pushDigits_eq_repr {f n : ℕ} (hf : 0 < f) (h : n < 10 ^ f) :
    pushDigits f n [] = asciiBytes (toString n) := by
  have hlt : n < 10 ^ (n + 1) :=
    Nat.lt_of_lt_of_le (Nat.lt_pow_self (by decide)) (Nat.pow_le_pow_right (by decide) (by omega))
  rw [pushDigits_congr hf (Nat.succ_pos n) h hlt]
  have hcore := pushDigits_toDigitsCore (n + 1) n []
  rw [List.map_nil] at hcore
  rw [hcore, asciiBytes]
  change _ = (Nat.repr n).toList.map _
  rw [Nat.repr, String.toList_ofList]
  rfl

theorem digitLoop_eq {p n : ℕ} (hp : 0 < p) (hn : n < 10 ^ p) {num : List Byte}
    (hlen : p ≤ num.length) :
    ∃ num' p', digitLoop p n num = some (num', p') ∧ num'.length = num.length ∧
      num'.drop p' = pushDigits p n (num.drop p) := by
  induction p generalizing n num with
  | zero => exact absurd hp (Nat.lt_irrefl 0)
  | succ p ih =>
    let d : Byte := BitVec.ofInt 8 (48 + ((n % 10 : ℕ) : ℤ))
    have hstore : CString.store num p d = some (num.set p d) := if_pos hlen
    have hdrop : (num.set p d).drop p = d :: num.drop (p + 1) := by
      rw [List.drop_eq_getElem_cons (by rw [List.length_set]; exact hlen), List.getElem_set_self,
        List.drop_set_of_lt (Nat.lt_succ_self p)]
    have hround : digitLoop (p + 1) n num =
        if ((n / 10 : ℕ) : ℤ) ≠ 0 then digitLoop p ((n / 10 : ℕ) : ℤ) (num.set p d)
        else some (num.set p d, p) := by
      rw [digitLoop, (digit_step n).1, (digit_step n).2, hstore]
      rfl
    rw [hround, pushDigits_succ]
    by_cases hz : n / 10 = 0
    · rw [if_neg (by rw [hz]; simp), if_pos hz]
      exact ⟨_, _, rfl, List.length_set, hdrop⟩
    · have hlt := div_ten_lt hn
      obtain ⟨num', p', hrun, hlen', hdigits⟩ := @ih (n / 10) (fuel_pos hlt hz) hlt
        (num.set p d) (by rw [List.length_set]; omega)
      rw [if_pos (by exact_mod_cast hz), if_neg hz]
      exact ⟨num', p', hrun, hlen'.trans List.length_set, by rw [hdigits, hdrop]⟩

/-! The joined text. -/

theorem literal_holds {s : String} (h : 0#8 ∉ asciiBytes s) :
    CString.Holds 0#8 (literal s) (asciiBytes s) :=
  ⟨h, [], rfl⟩

section Join

variable {layout num text : List Byte}

theorem xstrcat_holds (h : CString.Holds 0#8 layout text) {src t : List Byte}
    (hs : CString.Holds 0#8 src t) (hfit : text.length + t.length < layout.length) :
    ∃ layout', xstrcat layout src = some layout' ∧ layout'.length = layout.length ∧
      CString.Holds 0#8 layout' (text ++ t) := by
  obtain ⟨layout', hcopy, hlen, hholds⟩ := h.append hs hfit
  refine ⟨layout', ?_, hlen, hholds⟩
  rw [xstrcat, xstrlen, h.len]
  exact hcopy

theorem catNumber_holds (h : CString.Holds 0#8 layout text) (hnum : num.length = 8) {n : ℕ}
    (hn : n < 10 ^ 7) (hfit : text.length + 7 < layout.length) :
    ∃ layout' num', catNumber layout num n = some (layout', num') ∧
      layout'.length = layout.length ∧ num'.length = 8 ∧
      CString.Holds 0#8 layout' (text ++ asciiBytes (toString n)) := by
  have hstore : CString.store num 7 0#8 = some (num.set 7 0#8) := if_pos (by omega)
  have hlast : (num.set 7 0#8).drop 7 = [0#8] := by
    rw [List.drop_eq_getElem_cons (by rw [List.length_set]; omega), List.getElem_set_self,
      List.drop_set_of_lt (by decide), List.drop_of_length_le (by omega)]
  obtain ⟨num', p, hloop, hlen, hdrop⟩ := @digitLoop_eq 7 n (by decide) hn (num.set 7 0#8)
    (by rw [List.length_set]; omega)
  rw [hlast, pushDigits_eq_append] at hdrop
  have hdigits : CString.Holds 0#8 (num'.drop p) (pushDigits 7 n []) :=
    ⟨zero_notMem_pushDigits 7 n (by simp), [], hdrop⟩
  have hle := length_pushDigits_le 7 n []
  rw [List.length_nil] at hle
  obtain ⟨layout', hcat, hlen', hholds⟩ := xstrcat_holds h hdigits (by omega)
  refine ⟨layout', num', ?_, hlen', ?_, ?_⟩
  · rw [catNumber, hstore]
    change ((digitLoop 7 n (num.set 7 0#8)).bind fun r =>
      (xstrcat layout (r.1.drop r.2)).bind fun l => some (l, r.1)) = _
    rw [hloop, Option.bind_some, hcat, Option.bind_some]
  · rw [hlen, List.length_set, hnum]
  · rwa [← pushDigits_eq_repr (by decide) hn]

end Join

/-! The whole string. -/

theorem asciiBytes_append (s t : String) : asciiBytes (s ++ t) = asciiBytes s ++ asciiBytes t := by
  simp [asciiBytes]

section Whole

variable (c : Device)

theorem pageSizeKb_cases : c.getFlashPageSize / 1024 = 1 ∨ c.getFlashPageSize / 1024 = 2 := by
  rcases c.pageSize_cases with hp | hp <;> simp [hp]

theorem prepareMemoryLayout_text (h : flashBootldrSizeKb ≤ c.flashSize) :
    prepareMemoryLayout c = asciiBytes "@Internal Flash /0x08000000/" ++
      asciiBytes (toString (flashBootldrSizeKb / (c.getFlashPageSize / 1024))) ++
      asciiBytes (if c.getFlashPageSize / 1024 = 2 then "*002Ka," else "*001Ka,") ++
      asciiBytes (toString ((c.flashSize - flashBootldrSizeKb) / (c.getFlashPageSize / 1024))) ++
      asciiBytes (if c.getFlashPageSize / 1024 = 2 then "*002Kg" else "*001Kg") := by
  have hlt := c.flashSize_lt
  have hboot : flashBootldrSizeKb / (c.getFlashPageSize / 1024) < 10 ^ 10 :=
    Nat.lt_of_le_of_lt (Nat.div_le_self _ _) (by decide)
  have huser : (c.flashSize - flashBootldrSizeKb) / (c.getFlashPageSize / 1024) < 10 ^ 10 :=
    Nat.lt_of_le_of_lt (Nat.div_le_self _ _) (by omega)
  rw [prepareMemoryLayout, userPages_eq c h]
  rw [pushDigits_eq_repr (by decide) hboot, pushDigits_eq_repr (by decide) huser]

theorem writeMemoryLayout_holds (h : flashBootldrSizeKb ≤ c.flashSize) {layout num : List Byte}
    (hlayout : layout.length = 64) (hnum : num.length = 8) :
    ∃ buf, writeMemoryLayout c layout num = some buf ∧ buf.length = 64 ∧
      CString.Holds 0#8 buf (prepareMemoryLayout c) := by
  have hlt := c.flashSize_lt
  have hboot : flashBootldrSizeKb / (c.getFlashPageSize / 1024) < 10 ^ 7 :=
    Nat.lt_of_le_of_lt (Nat.div_le_self _ _) (by decide)
  have huser : (c.flashSize - flashBootldrSizeKb) / (c.getFlashPageSize / 1024) < 10 ^ 7 :=
    Nat.lt_of_le_of_lt (Nat.div_le_self _ _) (by omega)
  have hname : CString.Holds 0#8 (literal "@Internal Flash /0x08000000/")
      (asciiBytes "@Internal Flash /0x08000000/") := literal_holds (by decide)
  have hread : CString.Holds 0#8
      (literal (if c.getFlashPageSize / 1024 = 2 then "*002Ka," else "*001Ka,"))
      (asciiBytes (if c.getFlashPageSize / 1024 = 2 then "*002Ka," else "*001Ka,")) :=
    literal_holds (by split <;> decide)
  have hwrite : CString.Holds 0#8
      (literal (if c.getFlashPageSize / 1024 = 2 then "*002Kg" else "*001Kg"))
      (asciiBytes (if c.getFlashPageSize / 1024 = 2 then "*002Kg" else "*001Kg")) :=
    literal_holds (by split <;> decide)
  have hdigits : ∀ n, n < 10 ^ 7 → (asciiBytes (toString n)).length ≤ 7 := by
    intro n hn
    rw [← pushDigits_eq_repr (show 0 < 7 by decide) hn]
    exact length_pushDigits_le 7 n []
  have hnameLen : (asciiBytes "@Internal Flash /0x08000000/").length = 28 := by decide
  have hreadLen :
      (asciiBytes (if c.getFlashPageSize / 1024 = 2 then "*002Ka," else "*001Ka,")).length = 7 := by
    split <;> decide
  have hwriteLen :
      (asciiBytes (if c.getFlashPageSize / 1024 = 2 then "*002Kg" else "*001Kg")).length = 6 := by
    split <;> decide
  have hbootLen := hdigits _ hboot
  have huserLen := hdigits _ huser
  obtain ⟨layout₁, hrun₁, hlen₁, hholds₁⟩ := hname.copy
    (show (asciiBytes "@Internal Flash /0x08000000/").length < layout.length by omega)
  obtain ⟨layout₂, num₂, hrun₂, hlen₂, hnum₂, hholds₂⟩ := catNumber_holds hholds₁ hnum hboot
    (by omega)
  obtain ⟨layout₃, hrun₃, hlen₃, hholds₃⟩ := xstrcat_holds hholds₂ hread
    (by rw [List.length_append]; omega)
  obtain ⟨layout₄, num₄, hrun₄, hlen₄, -, hholds₄⟩ := catNumber_holds hholds₃ hnum₂ huser
    (by rw [List.length_append, List.length_append]; omega)
  obtain ⟨buf, hrun, hlen, hholds⟩ := xstrcat_holds hholds₄ hwrite
    (by rw [List.length_append, List.length_append, List.length_append]; omega)
  refine ⟨buf, ?_, by omega, ?_⟩
  · have hcpy : xstrcpy layout (literal "@Internal Flash /0x08000000/") = some layout₁ := hrun₁
    simp only [writeMemoryLayout, userPages_eq c h, hcpy, hrun₂, hrun₃, hrun₄, hrun,
      Option.bind_eq_bind, Option.bind_some]
  · rwa [prepareMemoryLayout_text c h]

end Whole

/-- For every flash of at least 8 KB and both page sizes, the function ends, writes only inside
its two buffers, and leaves the text it should; `S` is the page size in KB. -/
theorem memory_layout_written (c : Device) (h : flashBootldrSizeKb ≤ c.flashSize)
    {layout num : List Byte} (hlayout : layout.length = 64) (hnum : num.length = 8) :
    let S := c.getFlashPageSize / 1024
    ∃ buf, writeMemoryLayout c layout num = some buf ∧ buf.length = 64 ∧
      CString.Holds 0#8 buf (asciiBytes
        ("@Internal Flash /0x08000000/" ++
          (toString (8 / S) ++ "*00" ++ toString S ++ "Ka,") ++
          (toString ((c.flashSize - 8) / S) ++ "*00" ++ toString S ++ "Kg"))) := by
  intro S
  obtain ⟨buf, hrun, hlen, hholds⟩ := writeMemoryLayout_holds c h hlayout hnum
  refine ⟨buf, hrun, hlen, ?_⟩
  have hread : asciiBytes (if S = 2 then "*002Ka," else "*001Ka,") =
      asciiBytes ("*00" ++ toString S ++ "Ka,") := by
    rcases pageSizeKb_cases c with hS | hS <;> rw [show S = _ from hS] <;> rfl
  have hwrite : asciiBytes (if S = 2 then "*002Kg" else "*001Kg") =
      asciiBytes ("*00" ++ toString S ++ "Kg") := by
    rcases pageSizeKb_cases c with hS | hS <;> rw [show S = _ from hS] <;> rfl
  have h8 : flashBootldrSizeKb = 8 := rfl
  have hS : c.getFlashPageSize / 1024 = S := rfl
  rw [prepareMemoryLayout_text c h, hS, h8, hread, hwrite] at hholds
  simpa only [asciiBytes_append, List.append_assoc] using hholds

/-- A 64 KB part with 1 KB pages, and whatever was on the stack in `num`. -/
theorem memory_layout_written_64k :
    flashBootldrSizeKb ≤ Device.stm64k.flashSize ∧
      ∃ buf, writeMemoryLayout Device.stm64k (List.replicate 64 0#8) (List.replicate 8 0xA5#8) =
          some buf ∧ buf.length = 64 ∧
        CString.Holds 0#8 buf (asciiBytes
          ("@Internal Flash /0x08000000/" ++
            (toString (8 / (Device.stm64k.getFlashPageSize / 1024)) ++ "*00" ++
              toString (Device.stm64k.getFlashPageSize / 1024) ++ "Ka,") ++
            (toString ((Device.stm64k.flashSize - 8) / (Device.stm64k.getFlashPageSize / 1024)) ++
              "*00" ++ toString (Device.stm64k.getFlashPageSize / 1024) ++ "Kg"))) :=
  ⟨by decide, memory_layout_written Device.stm64k (by decide) (List.length_replicate ..)
    (List.length_replicate ..)⟩

end Swindle
