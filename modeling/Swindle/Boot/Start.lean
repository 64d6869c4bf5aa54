import Swindle.Flash.Program
import Swindle.Stage1

/-! The RAM across a reset: `start_c` sets up the variables of stage 1, and `main` clears the
marker and makes room for stage 2. -/
namespace Swindle
open Machine

/-- The symbols that `start_c` takes from the linker. -/
structure Layout where
  lmRomImgCfgp : Addr
  dataStart : Addr
  dataEnd : Addr
  bssStart : Addr
  bssEnd : Addr

def putWord (a : Addr) (v : BitVec 32) (ram : Addr → Byte) : Addr → Byte := fun x =>
  if InSpan a 4 x then leByte v (x - a).toNat else ram x

/-- `while (dst < end) *dst++ = ...`, where `v` is what is stored at `dst`. -/
def storeWords (limit : Addr) (v : Addr → BitVec 32) : ℕ → Addr → (Addr → Byte) → Addr → Byte
  | 0, _, ram => ram
  | fuel + 1, dst, ram =>
    if dst < limit then storeWords limit v fuel (dst + 4#32) (putWord dst (v dst) ram) else ram

/-- The loop over `.data`; source and destination advance together. -/
def copyData (l : Layout) (rom ram : Addr → Byte) : Addr → Byte :=
  storeWords l.dataEnd (fun dst => read32 rom (l.lmRomImgCfgp + (dst - l.dataStart)))
    l.dataEnd.toNat l.dataStart ram

def zeroBss (l : Layout) (ram : Addr → Byte) : Addr → Byte :=
  storeWords l.bssEnd (fun _ => 0#32) l.bssEnd.toNat l.bssStart ram

/-- `start_c` up to the call of `main`; `init` is `__libc_init_array`. -/
def startC (l : Layout) (init : (Addr → Byte) → Addr → Byte) (rom ram : Addr → Byte) :
    Addr → Byte :=
  let ram0 := read32 ram ramStartAddr
  let ram1 := read32 ram (ramStartAddr + 4#32)
  let ram := init (zeroBss l (copyData l rom ram))
  putWord (ramStartAddr + 4#32) ram1 (putWord ramStartAddr ram0 ram)

/-- What the linker script promises: `.bss` follows `.data`, and both are whole numbers of
words. -/
structure Layout.Linked (l : Layout) : Prop where
  dataSize : ∃ n, l.dataEnd.toNat = l.dataStart.toNat + 4 * n
  order : l.dataEnd.toNat ≤ l.bssStart.toNat
  bssSize : ∃ n, l.bssEnd.toNat = l.bssStart.toNat + 4 * n
  ram : l.bssEnd.toNat < 2 ^ 31

section Words

variable {ram : Addr → Byte} {a x : Addr} {v : BitVec 32}

theorem putWord_of_not (h : ¬InSpan a 4 x) : putWord a v ram x = ram x := if_neg h

theorem putWord_byte {j : ℕ} (hj : j < 4) :
    putWord a v ram (a + BitVec.ofNat 32 j) = leByte v j := by
  have hoff : (a + BitVec.ofNat 32 j - a).toNat = j := by
    rw [BitVec.add_comm, BitVec.add_sub_cancel, BitVec.toNat_ofNat]
    omega
  have hspan : InSpan a 4 (a + BitVec.ofNat 32 j) := by
    rw [InSpan, hoff]
    exact hj
  rw [putWord, if_pos hspan, hoff]

theorem leByte_read32 (rom : Addr → Byte) (a : Addr) {j : ℕ} (hj : j < 4) :
    leByte (read32 rom a) j = rom (a + BitVec.ofNat 32 j) := by
  rw [read32, leByte_load32 _ _ hj, Nat.zero_add]

theorem storeWords_cell {limit dst : Addr} (w : Addr → BitVec 32) {n fuel : ℕ}
    (hn : limit.toNat = dst.toNat + 4 * n) (hl : limit.toNat < 2 ^ 31) (hf : n ≤ fuel) :
    storeWords limit w fuel dst ram x =
      if dst.toNat ≤ x.toNat ∧ x.toNat < limit.toNat then
        leByte (w (x - BitVec.ofNat 32 ((x.toNat - dst.toNat) % 4)))
          ((x.toNat - dst.toNat) % 4)
      else ram x := by
  induction n generalizing dst ram fuel with
  | zero =>
    have hstop : ¬dst < limit := by
      rw [BitVec.lt_def]
      omega
    have hend : storeWords limit w fuel dst ram = ram := by
      cases fuel with
      | zero => rfl
      | succ fuel => exact if_neg hstop
    rw [hend, if_neg (by omega)]
  | succ n ih =>
    obtain ⟨fuel, rfl⟩ := Nat.exists_eq_add_of_le' (show 1 ≤ fuel by omega)
    have hgo : dst < limit := by
      rw [BitVec.lt_def]
      omega
    have hnext : (dst + 4#32).toNat = dst.toNat + 4 := by
      rw [BitVec.toNat_add]
      change (dst.toNat + 4) % _ = _
      omega
    have hx := x.isLt
    rw [storeWords, if_pos hgo, ih (by omega) (by omega)]
    by_cases hrest : (dst + 4#32).toNat ≤ x.toNat ∧ x.toNat < limit.toNat
    · have hin : dst.toNat ≤ x.toNat ∧ x.toNat < limit.toNat := by omega
      have hmod : (x.toNat - (dst + 4#32).toNat) % 4 = (x.toNat - dst.toNat) % 4 := by omega
      rw [if_pos hrest, if_pos hin, hmod]
    · rw [if_neg hrest]
      by_cases hin : dst.toNat ≤ x.toNat ∧ x.toNat < limit.toNat
      · obtain ⟨j, hj, hxj⟩ : ∃ j, j < 4 ∧ x.toNat = dst.toNat + j :=
          ⟨x.toNat - dst.toNat, by omega, by omega⟩
        have hcell : x = dst + BitVec.ofNat 32 j := by
          apply BitVec.eq_of_toNat_eq
          rw [BitVec.toNat_add, BitVec.toNat_ofNat]
          omega
        have hmod : (x.toNat - dst.toNat) % 4 = j := by omega
        have hword : x - BitVec.ofNat 32 j = dst := by rw [hcell, BitVec.add_sub_cancel]
        rw [if_pos hin, hmod, hword, hcell, putWord_byte hj]
      · rw [if_neg hin, putWord_of_not]
        rw [inSpan_iff (by omega)]
        omega

end Words

section Start

variable {l : Layout} {rom ram : Addr → Byte} {x : Addr}

theorem copyData_cell (h : l.Linked) :
    copyData l rom ram x =
      if l.dataStart.toNat ≤ x.toNat ∧ x.toNat < l.dataEnd.toNat then
        rom (l.lmRomImgCfgp + (x - l.dataStart))
      else ram x := by
  obtain ⟨n, hn⟩ := h.dataSize
  obtain ⟨k, hk⟩ := h.bssSize
  have hr := h.ram
  have ho := h.order
  rw [copyData, storeWords_cell _ hn (by omega) (by omega)]
  split
  · rename_i hx
    let j := (x.toNat - l.dataStart.toNat) % 4
    have hj : j < 4 := Nat.mod_lt _ (by omega)
    have hsum : l.lmRomImgCfgp + (x - BitVec.ofNat 32 j - l.dataStart) + BitVec.ofNat 32 j =
        l.lmRomImgCfgp + (x - l.dataStart) := by
      apply BitVec.eq_of_toNat_eq
      simp only [BitVec.toNat_add, BitVec.toNat_sub, BitVec.toNat_ofNat]
      omega
    change leByte (read32 rom (l.lmRomImgCfgp + (x - BitVec.ofNat 32 j - l.dataStart))) j = _
    rw [leByte_read32 _ _ hj, hsum]
  · rfl

theorem zeroBss_cell (h : l.Linked) :
    zeroBss l ram x =
      if l.bssStart.toNat ≤ x.toNat ∧ x.toNat < l.bssEnd.toNat then 0#8 else ram x := by
  obtain ⟨k, hk⟩ := h.bssSize
  have hr := h.ram
  rw [zeroBss, storeWords_cell _ hk (by omega) (by omega)]
  split
  · have hz : ∀ j, leByte 0#32 j = 0#8 := fun j => by simp [leByte]
    exact hz _
  · rfl

theorem startC_kept (l : Layout) (init : (Addr → Byte) → Addr → Byte) (rom ram : Addr → Byte)
    {i : ℕ} (hi : i < 8) :
    startC l init rom ram (ramStartAddr + BitVec.ofNat 32 i) =
      ram (ramStartAddr + BitVec.ofNat 32 i) := by
  have hstart : ramStartAddr.toNat = 0x20000000 := rfl
  unfold startC
  by_cases h4 : i < 4
  · have hlow : ¬InSpan (ramStartAddr + 4#32) 4 (ramStartAddr + BitVec.ofNat 32 i) := by
      rw [InSpan]
      simp only [BitVec.toNat_sub, BitVec.toNat_add, BitVec.toNat_ofNat, hstart]
      omega
    rw [putWord_of_not hlow, putWord_byte h4, leByte_read32 _ _ h4]
  · obtain ⟨j, rfl⟩ := Nat.exists_eq_add_of_le (Nat.not_lt.mp h4)
    have hj : j < 4 := by omega
    have hhigh : ramStartAddr + BitVec.ofNat 32 (4 + j) =
        ramStartAddr + 4#32 + BitVec.ofNat 32 j := by rw [BitVec.ofNat_add, BitVec.add_assoc]
    rw [hhigh, putWord_byte hj, leByte_read32 _ _ hj]

theorem startC_cell (h : l.Linked) (hx : ¬InSpan ramStartAddr 8 x) :
    startC l id rom ram x =
      if l.dataStart.toNat ≤ x.toNat ∧ x.toNat < l.dataEnd.toNat then
        rom (l.lmRomImgCfgp + (x - l.dataStart))
      else if l.bssStart.toNat ≤ x.toNat ∧ x.toNat < l.bssEnd.toNat then 0#8
      else ram x := by
  have hstart : ramStartAddr.toNat = 0x20000000 := rfl
  have hnext : (ramStartAddr + 4#32).toNat = 0x20000004 := rfl
  have ho := h.order
  rw [inSpan_iff (by omega)] at hx
  have hlow : ¬InSpan ramStartAddr 4 x := by
    rw [inSpan_iff (by omega)]
    omega
  have hhigh : ¬InSpan (ramStartAddr + 4#32) 4 x := by
    rw [inSpan_iff (by omega)]
    omega
  unfold startC
  rw [putWord_of_not hhigh, putWord_of_not hlow, id, zeroBss_cell h, copyData_cell h]
  by_cases hd : l.dataStart.toNat ≤ x.toNat ∧ x.toNat < l.dataEnd.toNat
  · have hno : ¬(l.bssStart.toNat ≤ x.toNat ∧ x.toNat < l.bssEnd.toNat) := by omega
    rw [if_neg hno, if_pos hd, if_pos hd]
  · by_cases hb : l.bssStart.toNat ≤ x.toNat ∧ x.toNat < l.bssEnd.toNat
    · rw [if_pos hb, if_neg hd, if_pos hb]
    · rw [if_neg hb, if_neg hd, if_neg hd, if_neg hb]

end Start

/-- `start_c` gives every variable its initial value and keeps the first eight bytes of the RAM,
where the marker lies, even if `.data` starts there; so it does whatever the initializers do. -/
theorem startC_sets_up {l : Layout} (h : l.Linked) (rom ram : Addr → Byte) :
    (∀ x, startC l id rom ram x =
      if InSpan ramStartAddr 8 x then ram x
      else if l.dataStart.toNat ≤ x.toNat ∧ x.toNat < l.dataEnd.toNat then
        rom (l.lmRomImgCfgp + (x - l.dataStart))
      else if l.bssStart.toNat ≤ x.toNat ∧ x.toNat < l.bssEnd.toNat then 0#8
      else ram x) ∧
    ∀ init x, InSpan ramStartAddr 8 x → startC l init rom ram x = ram x := by
  have hkept : ∀ init x, InSpan ramStartAddr 8 x → startC l init rom ram x = ram x := by
    intro init x hx
    have hcell : x = ramStartAddr + BitVec.ofNat 32 (x - ramStartAddr).toNat := by
      rw [BitVec.ofNat_toNat, BitVec.setWidth_eq, BitVec.add_comm, BitVec.sub_add_cancel]
    rw [hcell]
    exact startC_kept l init rom ram hx
  refine ⟨fun x => ?_, hkept⟩
  split
  · rename_i hx
    exact hkept id x hx
  · rename_i hx
    exact startC_cell h hx

/-- Four words of `.data`, four of `.bss`. -/
theorem startC_sets_up_words :
    let l : Layout := ⟨0x08001000#32, 0x20000000#32, 0x20000010#32, 0x20000010#32, 0x20000020#32⟩
    let rom : Addr → Byte := fun _ => 0xA5#8
    let ram : Addr → Byte := fun _ => 0xEE#8
    (∀ x, startC l id rom ram x =
      if InSpan ramStartAddr 8 x then ram x
      else if l.dataStart.toNat ≤ x.toNat ∧ x.toNat < l.dataEnd.toNat then
        rom (l.lmRomImgCfgp + (x - l.dataStart))
      else if l.bssStart.toNat ≤ x.toNat ∧ x.toNat < l.bssEnd.toNat then 0#8
      else ram x) ∧
    ∀ init x, InSpan ramStartAddr 8 x → startC l init rom ram x = ram x := by
  intro l rom ram
  have h : l.Linked := ⟨⟨4, rfl⟩, by decide, ⟨4, rfl⟩, by decide⟩
  exact startC_sets_up h rom ram

end Swindle
