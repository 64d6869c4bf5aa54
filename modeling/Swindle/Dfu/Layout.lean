import Swindle.Usb.Descriptors

/-! The memory map a DfuSe host reads from the layout string: a base address and groups of equal
sectors. The string advertises the bootloader's pages, then those of the application. -/
namespace Swindle

/-- `count` sectors of `size` bytes; `kind` says what the host may do with them. -/
structure SectorGroup where
  count : ℕ
  size : ℕ
  kind : Byte
  deriving DecidableEq, Repr

structure MemoryLayout where
  base : ℕ
  groups : List SectorGroup
  deriving DecidableEq, Repr

/-- The kinds in use: readable only, and readable, erasable and writable. -/
def kindRead : Byte := 0x61#8
def kindWrite : Byte := 0x67#8

/-! Reading the string. -/

def digitOf (radix : ℕ) (b : Byte) : Option ℕ :=
  let n := b.toNat
  let v :=
    if 48 ≤ n ∧ n < 58 then n - 48
    else if 65 ≤ n ∧ n < 71 then n - 55
    else if 97 ≤ n ∧ n < 103 then n - 87
    else radix
  if v < radix then some v else none

/-- The number at the front, begun with `acc`, and what follows it. -/
def readNat (radix : ℕ) : ℕ → List Byte → ℕ × List Byte
  | acc, [] => (acc, [])
  | acc, b :: l =>
    match digitOf radix b with
    | some v => readNat radix (radix * acc + v) l
    | none => (acc, b :: l)

def expect (b : Byte) : List Byte → Option (List Byte)
  | [] => none
  | x :: l => if x = b then some l else none

/-- The multiplier of a sector size: `B` or a blank, `K` and `M`. -/
def unitOf (b : Byte) : Option ℕ :=
  if b = 0x42#8 ∨ b = 0x20#8 then some 1
  else if b = 0x4B#8 then some 1024
  else if b = 0x4D#8 then some (1024 * 1024)
  else none

/-- The rest of a group after its count: `*`, size, unit and kind. -/
def readSectors (count : ℕ) (l : List Byte) : Option (SectorGroup × List Byte) := do
  let l ← expect 0x2A#8 l
  match readNat 10 0 l with
  | (size, u :: kind :: l) =>
    let unit ← unitOf u
    some (⟨count, size * unit, kind⟩, l)
  | _ => none

def readGroup (l : List Byte) : Option (SectorGroup × List Byte) :=
  let (count, l) := readNat 10 0 l
  readSectors count l

/-- Groups with commas between them. -/
def readGroups : ℕ → List Byte → Option (List SectorGroup)
  | 0, _ => none
  | fuel + 1, l => do
    let (g, l) ← readGroup l
    if l = [] then some [g]
    else
      let l ← expect 0x2C#8 l
      let gs ← readGroups fuel l
      some (g :: gs)

/-- `@name/0xbase/groups`. -/
def readLayout (l : List Byte) : Option MemoryLayout := do
  let l ← expect 0x40#8 l
  let l ← expect 0x2F#8 (l.dropWhile (· ≠ 0x2F#8))
  let l ← expect 0x30#8 l
  let l ← expect 0x78#8 l
  let (base, l) := readNat 16 0 l
  let l ← expect 0x2F#8 l
  let groups ← readGroups l.length l
  some ⟨base, groups⟩

/-! The sectors that the groups stand for. -/

structure Sector where
  start : ℕ
  size : ℕ
  kind : Byte
  deriving DecidableEq, Repr

def sectorsFrom : ℕ → List SectorGroup → List Sector
  | _, [] => []
  | base, g :: gs =>
    (List.range g.count).map (fun i => ⟨base + i * g.size, g.size, g.kind⟩) ++
      sectorsFrom (base + g.count * g.size) gs

def MemoryLayout.sectors (m : MemoryLayout) : List Sector := sectorsFrom m.base m.groups

/-! The string is read back as it was meant. -/

theorem digitOf_digit {n : ℕ} (h : n < 10) :
    digitOf 10 (BitVec.ofInt 8 (48 + (n : ℤ))) = some n := by
  have hb : (BitVec.ofInt 8 (48 + (n : ℤ))).toNat = 48 + n := by
    rw [BitVec.toNat_ofInt]
    omega
  unfold digitOf
  rw [hb]
  simp [h, show 48 + n < 58 by omega]

theorem readNat_digit {radix v : ℕ} {b : Byte} (h : digitOf radix b = some v) (a : ℕ)
    (l : List Byte) : readNat radix a (b :: l) = readNat radix (radix * a + v) l := by
  rw [readNat, h]

theorem readNat_stop {radix : ℕ} {b : Byte} (h : digitOf radix b = none) (a : ℕ)
    (l : List Byte) : readNat radix a (b :: l) = (a, b :: l) := by
  rw [readNat, h]

/-! One round of the digit loop, for a number that is not negative. -/

theorem digit_step (n : ℕ) :
    (n : ℤ).tmod 10 = ((n % 10 : ℕ) : ℤ) ∧ (n : ℤ).tdiv 10 = ((n / 10 : ℕ) : ℤ) :=
  ⟨Int.ofNat_tmod n 10, Int.ofNat_tdiv n 10⟩

theorem pushDigits_succ (f n : ℕ) (acc : List Byte) :
    pushDigits (f + 1) n acc =
      if n / 10 = 0 then BitVec.ofInt 8 (48 + ((n % 10 : ℕ) : ℤ)) :: acc
      else pushDigits f (n / 10 : ℕ) (BitVec.ofInt 8 (48 + ((n % 10 : ℕ) : ℤ)) :: acc) := by
  rw [pushDigits, (digit_step n).1, (digit_step n).2]
  by_cases hz : n / 10 = 0
  · simp [hz]
  · rw [if_pos (by exact_mod_cast hz), if_neg hz]

theorem div_ten_lt {f n : ℕ} (h : n < 10 ^ (f + 1)) : n / 10 < 10 ^ f :=
  Nat.div_lt_of_lt_mul (by rwa [Nat.pow_succ, Nat.mul_comm] at h)

theorem fuel_pos {f n : ℕ} (h : n < 10 ^ f) (hz : n ≠ 0) : 0 < f := by
  rcases Nat.eq_zero_or_pos f with rfl | hf
  · rw [Nat.pow_zero] at h
    omega
  · exact hf

theorem readNat_pushDigits {fuel n : ℕ} (h0 : 0 < fuel) (hn : n < 10 ^ fuel) (acc : List Byte) :
    ∃ k, ∀ a, readNat 10 a (pushDigits fuel n acc) = readNat 10 (10 ^ k * a + n) acc := by
  induction fuel generalizing n acc with
  | zero => exact absurd h0 (Nat.lt_irrefl 0)
  | succ fuel ih =>
    have hdigit := digitOf_digit (Nat.mod_lt n (show 0 < 10 by decide))
    rw [pushDigits_succ]
    by_cases hz : n / 10 = 0
    · rw [if_pos hz]
      refine ⟨1, fun a => ?_⟩
      rw [readNat_digit hdigit, Nat.pow_one]
      congr 1
      omega
    · rw [if_neg hz]
      have hlt := div_ten_lt hn
      obtain ⟨k, hk⟩ := ih (fuel_pos hlt hz) hlt
        (BitVec.ofInt 8 (48 + ((n % 10 : ℕ) : ℤ)) :: acc)
      refine ⟨k + 1, fun a => ?_⟩
      rw [hk, readNat_digit hdigit, Nat.pow_succ]
      congr 1
      have hsplit := Nat.div_add_mod n 10
      rw [Nat.mul_add, ← Nat.mul_assoc, Nat.mul_comm 10 (10 ^ k)]
      omega

theorem pushDigits_append (fuel : ℕ) (v : ℤ) (acc l : List Byte) :
    pushDigits fuel v (acc ++ l) = pushDigits fuel v acc ++ l := by
  induction fuel generalizing v acc with
  | zero => rfl
  | succ fuel ih =>
    rw [pushDigits, pushDigits]
    split
    · exact ih _ (_ :: acc)
    · rfl

theorem pushDigits_eq_append (fuel : ℕ) (v : ℤ) (l : List Byte) :
    pushDigits fuel v l = pushDigits fuel v [] ++ l :=
  pushDigits_append fuel v [] l

theorem readGroup_pushDigits {n : ℕ} (hn : n < 10 ^ 10) (l : List Byte) :
    readGroup (pushDigits 10 n (0x2A#8 :: l)) = readSectors n (0x2A#8 :: l) := by
  obtain ⟨k, hk⟩ := readNat_pushDigits (show 0 < 10 by decide) hn (0x2A#8 :: l)
  have hstop : digitOf 10 0x2A#8 = none := rfl
  rw [readGroup, hk, Nat.mul_zero, Nat.zero_add, readNat_stop hstop]

theorem readLayout_groups {n : ℕ} (hn : n < 10 ^ 10) {first tail : List Byte} {g g' : SectorGroup}
    (hfirst : ∀ l, readGroup (first ++ 0x2C#8 :: l) = some (g, 0x2C#8 :: l))
    (hlast : readSectors n (0x2A#8 :: tail) = some (g', [])) :
    readLayout (asciiBytes "@Internal Flash /0x08000000/" ++
      (first ++ 0x2C#8 :: pushDigits 10 n (0x2A#8 :: tail))) =
      some ⟨flashBaseAddr.toNat, [g, g']⟩ := by
  let l := first ++ 0x2C#8 :: pushDigits 10 n (0x2A#8 :: tail)
  have hhead : readLayout (asciiBytes "@Internal Flash /0x08000000/" ++ l) =
      (readGroups l.length l).bind fun gs => some ⟨flashBaseAddr.toNat, gs⟩ := rfl
  have hne : pushDigits 10 n (0x2A#8 :: tail) ≠ [] := by
    rw [pushDigits_eq_append]
    simp
  have hfuel : ∃ k, l.length = k + 2 := by
    have hpos := List.length_pos_iff.mpr hne
    refine ⟨first.length + (pushDigits 10 n (0x2A#8 :: tail)).length - 1, ?_⟩
    simp only [l, List.length_append, List.length_cons]
    omega
  obtain ⟨k, hk⟩ := hfuel
  have hgroups : readGroups (k + 2) l = some [g, g'] := by
    rw [readGroups, hfirst]
    change ((readGroups (k + 1) (pushDigits 10 n (0x2A#8 :: tail))).bind fun gs =>
      some (g :: gs)) = _
    rw [readGroups, readGroup_pushDigits hn, hlast]
    rfl
  rw [hhead, hk, hgroups]
  rfl

theorem userPages_eq (c : Device) (h : flashBootldrSizeKb ≤ c.flashSize) :
    ((c.flashSize : ℤ) - (flashBootldrSizeKb : ℕ)).tdiv ((c.getFlashPageSize / 1024 : ℕ) : ℤ) =
      (((c.flashSize - flashBootldrSizeKb) / (c.getFlashPageSize / 1024) : ℕ) : ℤ) := by
  rw [← Int.ofNat_sub h]
  exact Int.ofNat_tdiv _ _

theorem readLayout_prepareMemoryLayout (c : Device) (h : flashBootldrSizeKb ≤ c.flashSize) :
    readLayout (prepareMemoryLayout c) = some
      { base := flashBaseAddr.toNat
        groups :=
          [⟨flashBootldrSizeKb * 1024 / c.getFlashPageSize, c.getFlashPageSize, kindRead⟩,
            ⟨(c.flashSize - flashBootldrSizeKb) * 1024 / c.getFlashPageSize, c.getFlashPageSize,
              kindWrite⟩] } := by
  have hlt := c.flashSize_lt
  rcases c.pageSize_cases with hp | hp
  · let n := (c.flashSize - flashBootldrSizeKb) / (1024 / 1024)
    have hn : (c.flashSize - flashBootldrSizeKb) * 1024 / 1024 = n := by omega
    have htext : prepareMemoryLayout c = asciiBytes "@Internal Flash /0x08000000/" ++
        (asciiBytes "8*001Ka" ++ 0x2C#8 :: pushDigits 10 n (0x2A#8 :: asciiBytes "001Kg")) := by
      rw [prepareMemoryLayout, userPages_eq c h, hp,
        pushDigits_eq_append 10 n (0x2A#8 :: asciiBytes "001Kg")]
      rfl
    rw [htext, hp, hn]
    exact readLayout_groups (show n < 10 ^ 10 by omega) (fun l => rfl) rfl
  · let n := (c.flashSize - flashBootldrSizeKb) / (2048 / 1024)
    have hn : (c.flashSize - flashBootldrSizeKb) * 1024 / 2048 = n := by omega
    have htext : prepareMemoryLayout c = asciiBytes "@Internal Flash /0x08000000/" ++
        (asciiBytes "4*002Ka" ++ 0x2C#8 :: pushDigits 10 n (0x2A#8 :: asciiBytes "002Kg")) := by
      rw [prepareMemoryLayout, userPages_eq c h, hp,
        pushDigits_eq_append 10 n (0x2A#8 :: asciiBytes "002Kg")]
      rfl
    rw [htext, hp, hn]
    exact readLayout_groups (show n < 10 ^ 10 by omega) (fun l => rfl) rfl

end Swindle
