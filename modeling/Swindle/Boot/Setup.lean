import Swindle.Boot.Chip

/-! Start-up of stage 2, for any timing of the oscillators and of the tick: the core never runs
faster than the flash allows, D+ has been low for 300 ms before the USB peripheral is powered, and
the loop begins with the registers of `State.start`. -/
namespace Swindle
open Machine

namespace Chip

/-- After a reset of the board: the internal oscillator drives the core, and USB is down. -/
structure Fresh (c : Chip) : Prop where
  cfg0 : c.cfg0 = 0#32
  down : c.usb.reg usbCntrReg &&& 2#16 ≠ 0#16
  systick : c.systickCtrl = 0#32
  ticks : c.ticks = 0
  low : c.low = 0

/-- The PLL drives the core only once it and its source are stable, and the flash has enough wait
states: one up to 24 MHz, two up to 48 MHz, three up to 72 MHz. -/
structure ClockSafe (c : Chip) : Prop where
  stable : c.cfg0 &&& 3#32 = 2#32 →
    c.ctl.getLsbD 25 ∧ (c.cfg0.getLsbD 16 → c.ctl.getLsbD 17)
  waitStates : c.sysKhz ≤ 24000 * ((c.ws &&& 7#32).toNat + 1)

def usbPowered (c : Chip) : Prop :=
  c.apb1en.getLsbD 23 ∧ c.usb.reg usbCntrReg &&& 2#16 = 0#16

/-- The peripheral is powered only when the host has had 300 ms to see D+ low, and PA12 no longer
drives it. After 49 days of start-up the tick would have wrapped. -/
def BusSafe (c : Chip) : Prop :=
  c.usbPowered →
    (c.ticks < 2 ^ 32 - 300 → 301 ≤ c.low) ∧ (c.gpio.pin pa12).config = 4#4

/-- What the loop of `runDfu` starts from. -/
structure Ready (crystalless : Bool) (c : Chip) : Prop where
  reg : ∀ mem ram, c.usb.reg = (State.start mem ram).usb.reg
  sysclock : c.sysKhz = if crystalless then 36000 else 72000
  usbclock : c.usbKhz = 48000
  millisecond : c.systickCtrl = 7#32 ∧ c.systickLoad.toNat + 1 = c.sysKhz
  leds : ∀ p ∈ [led crystalless, pa8, pb13], (c.gpio.pin p).config = 3#4

end Chip

/-! Bits. -/

section Bits

variable {mask v r x k : BitVec 32} {n m : ℕ}

theorem and_shift_ne_zero (hn : n < 32) : x &&& 1#32 <<< n ≠ 0#32 ↔ x.getLsbD n := by
  constructor
  · intro h
    by_contra hx
    apply h
    apply BitVec.eq_of_getLsbD_eq
    intro i _
    rw [BitVec.getLsbD_and, getLsbD_one_shift hn]
    by_cases hi : i = n
    · rw [hi, Bool.eq_false_iff.mpr hx, Bool.false_and, BitVec.getLsbD_zero]
    · simp [hi]
  · intro h hz
    have hbit := congrArg (fun y : BitVec 32 => y.getLsbD n) hz
    simp [getLsbD_one_shift hn, h] at hbit

theorem getLsbD_or_shift (hn : n < 32) :
    (x ||| 1#32 <<< n).getLsbD m = (x.getLsbD m || decide (m = n)) := by
  rw [BitVec.getLsbD_or, getLsbD_one_shift hn]

theorem readyBits_plain (hm : mask.getLsbD n = false) (hn : n < 32) :
    (readyBits mask v r).getLsbD n = r.getLsbD n := by
  simp only [readyBits, BitVec.getLsbD_or, BitVec.getLsbD_and, BitVec.getLsbD_not, hm, hn]
  simp

theorem readyBits_succ (hm : mask.getLsbD (n + 1) = true) (hon : r.getLsbD n = true) :
    (readyBits mask v r).getLsbD (n + 1) = (r.getLsbD (n + 1) || v.getLsbD (n + 1)) := by
  have hn : n + 1 < 32 := by
    by_contra h
    rw [BitVec.getLsbD_of_ge mask _ (Nat.not_lt.mp h)] at hm
    cases hm
  simp only [readyBits, BitVec.getLsbD_or, BitVec.getLsbD_and, BitVec.getLsbD_not,
    BitVec.getLsbD_shiftLeft, hm, hn, Nat.add_sub_cancel, hon]
  simp

theorem status_cases (x : BitVec 32) :
    x &&& 0xC#32 = 0#32 ∨ x &&& 0xC#32 = 4#32 ∨ x &&& 0xC#32 = 8#32 ∨ x &&& 0xC#32 = 12#32 := by
  have hmask : ∀ i : Fin 32, (0xC#32).getLsbD i = (decide (i.val = 2) || decide (i.val = 3)) := by
    decide
  have hsplit : x &&& 0xC#32 =
      (if x.getLsbD 2 then 4#32 else 0#32) ||| if x.getLsbD 3 then 8#32 else 0#32 := by
    have h4 : ∀ i : Fin 32, (4#32).getLsbD i = decide (i.val = 2) := by decide
    have h8 : ∀ i : Fin 32, (8#32).getLsbD i = decide (i.val = 3) := by decide
    apply BitVec.eq_of_getLsbD_eq
    intro i hi
    rw [BitVec.getLsbD_and, hmask ⟨i, hi⟩, BitVec.getLsbD_or]
    have hi4 := h4 ⟨i, hi⟩
    have hi8 := h8 ⟨i, hi⟩
    by_cases h2 : i = 2
    · subst h2
      cases x.getLsbD 2 <;> cases x.getLsbD 3 <;> rfl
    · by_cases h3 : i = 3
      · subst h3
        cases x.getLsbD 2 <;> cases x.getLsbD 3 <;> rfl
      · cases x.getLsbD 2 <;> cases x.getLsbD 3 <;> simp_all
  rw [hsplit]
  cases x.getLsbD 2 <;> cases x.getLsbD 3 <;> decide

theorem cfg0_cases (h : x &&& ~~~0xC#32 = k) :
    x = k ||| 0#32 ∨ x = k ||| 4#32 ∨ x = k ||| 8#32 ∨ x = k ||| 12#32 := by
  have hx : x = (x &&& ~~~0xC#32) ||| (x &&& 0xC#32) := by
    apply BitVec.eq_of_getLsbD_eq
    intro i hi
    simp only [BitVec.getLsbD_or, BitVec.getLsbD_and, BitVec.getLsbD_not, hi, decide_true,
      Bool.true_and]
    cases x.getLsbD i <;> simp
  rw [h] at hx
  rcases status_cases x with hs | hs | hs | hs <;> rw [hs] at hx
  · exact .inl hx
  · exact .inr (.inl hx)
  · exact .inr (.inr (.inl hx))
  · exact .inr (.inr (.inr hx))

end Bits

/-! The clocks. -/

namespace Chip

/-- CFG0 without the status of the clock switch. -/
def Tree (k : BitVec 32) (c : Chip) : Prop := c.cfg0 &&& ~~~0xC#32 = k

def Stable (n : ℕ) (c : Chip) : Prop := c.ctl.getLsbD n ∧ c.ctl.getLsbD (n + 1)

def pllsrc (crystalless : Bool) : BitVec 32 := if crystalless then 0#32 else 1#32

structure Clocked (crystalless : Bool) (c : Chip) : Prop where
  tree : c.Tree (rccCfgr (pllsrc crystalless) ||| 2#32)
  ws : c.ws &&& 7#32 = 2#32
  pll : c.Stable 24
  hse : crystalless = false → c.Stable 16

def clocks (c : Chip) : BitVec 32 × BitVec 32 × BitVec 32 × BitVec 32 :=
  (c.ctl, c.cfg0, c.addctl, c.ws)

end Chip

section Clocks

variable {c : Chip} {k : BitVec 32} {n : ℕ} {crystalless : Bool}

theorem hardware_tick (c : Chip) :
    ∃ t n l, c.hardware .tick = { c with sysTick := t, ticks := n, low := l } := by
  by_cases h : c.systickCtrl = 7#32
  · exact ⟨_, _, _, if_pos h⟩
  · exact ⟨_, _, _, if_neg h⟩

theorem tree_keep (c : Chip) (h : Hardware) (ht : c.Tree k) : (c.hardware h).Tree k := by
  have hmask (v : BitVec 32) :
      ((c.cfg0 &&& ~~~0xC#32) ||| (v &&& 0xC#32)) &&& ~~~0xC#32 = c.cfg0 &&& ~~~0xC#32 := by
    apply BitVec.eq_of_getLsbD_eq
    intro i hi
    simp only [BitVec.getLsbD_or, BitVec.getLsbD_and, BitVec.getLsbD_not, hi, decide_true,
      Bool.true_and]
    cases (0xC#32).getLsbD i <;> simp
  cases h with
  | oscillators v w => exact ht
  | switch v => exact (hmask v).trans ht
  | tick =>
    obtain ⟨t, m, l, hc⟩ := hardware_tick c
    rw [hc]
    exact ht

theorem hardware_ws (c : Chip) (h : Hardware) : (c.hardware h).ws = c.ws := by
  cases h with
  | tick =>
    obtain ⟨t, m, l, hc⟩ := hardware_tick c
    rw [hc]
  | _ => rfl

theorem ctl_keep (hm : (0x02020002#32).getLsbD n = false) (hn : n < 32) (c : Chip)
    (h : Hardware) (hc : c.ctl.getLsbD n) : (c.hardware h).ctl.getLsbD n := by
  cases h with
  | oscillators v w =>
    change (readyBits _ v c.ctl).getLsbD n = true
    rw [readyBits_plain hm hn]
    exact hc
  | switch v => exact hc
  | tick =>
    obtain ⟨t, m, l, ht⟩ := hardware_tick c
    rw [ht]
    exact hc

theorem stable_keep (hm : (0x02020002#32).getLsbD n = false)
    (hr : (0x02020002#32).getLsbD (n + 1) = true) (c : Chip) (h : Hardware) (hc : c.Stable n) :
    (c.hardware h).Stable n := by
  have hn : n < 32 := by
    by_contra hge
    rw [BitVec.getLsbD_of_ge _ _ (by omega)] at hr
    cases hr
  refine ⟨ctl_keep hm hn c h hc.1, ?_⟩
  cases h with
  | oscillators v w =>
    change (readyBits _ v c.ctl).getLsbD (n + 1) = true
    rw [readyBits_succ hr hc.1, hc.2, Bool.true_or]
  | switch v => exact hc.2
  | tick =>
    obtain ⟨t, m, l, ht⟩ := hardware_tick c
    rw [ht]
    exact hc.2

theorem clockSafe_of_irc8 (h : c.cfg0 &&& 3#32 = 0#32) : c.ClockSafe := by
  have hne : c.cfg0 &&& 3#32 ≠ 2#32 := by
    rw [h]
    decide
  refine ⟨fun hsw => absurd hsw hne, ?_⟩
  rw [Chip.sysKhz, if_neg hne]
  omega

theorem irc8_of_tree (hk : k ∈ [0#32, rccCfgr 0#32, rccCfgr 1#32]) (h : c.Tree k) :
    c.cfg0 &&& 3#32 = 0#32 := by
  simp only [List.mem_cons, List.not_mem_nil, or_false] at hk
  rcases cfg0_cases h with hc | hc | hc | hc <;> rw [hc] <;>
    rcases hk with rfl | rfl | rfl <;> decide

theorem khz_of_tree (h : c.Tree (rccCfgr (Chip.pllsrc crystalless) ||| 2#32)) :
    c.cfg0 &&& 3#32 = 2#32 ∧ c.sysKhz = (if crystalless then 36000 else 72000) ∧
      c.pllKhz = (if crystalless then 36000 else 72000) ∧
      c.cfg0.getLsbD 16 = !crystalless ∧ c.cfg0.extractLsb' 22 2 = 0#2 := by
  unfold Chip.sysKhz Chip.pllKhz Chip.pllMul
  rcases cfg0_cases h with hc | hc | hc | hc <;> rw [hc] <;> cases crystalless <;> decide

theorem clockSafe_of_clocked (h : c.Clocked crystalless) : c.ClockSafe := by
  obtain ⟨hsw, hsys, -, hsrc, -⟩ := khz_of_tree h.tree
  refine ⟨fun _ => ⟨h.pll.2, fun hhse => ?_⟩, ?_⟩
  · rw [hsrc] at hhse
    exact (h.hse (by simpa using hhse)).2
  · rw [hsys, h.ws]
    cases crystalless <;> decide

theorem clocked_keep (c : Chip) (h : Hardware) (hc : c.Clocked crystalless) :
    (c.hardware h).Clocked crystalless where
  tree := tree_keep c h hc.tree
  ws := by rw [hardware_ws, hc.ws]
  pll := stable_keep (by decide) (by decide) c h hc.pll
  hse hcl := stable_keep (by decide) (by decide) c h (hc.hse hcl)

theorem ws_latency (w : BitVec 32) : ((w &&& ~~~7#32) ||| 2#32) &&& 7#32 = 2#32 := by
  have h7 : ~~~7#32 &&& 7#32 = 0#32 := by decide
  rw [BitVec.and_or_distrib_right, BitVec.and_assoc, h7, BitVec.and_zero, BitVec.zero_or]
  decide

end Clocks

/-- On the way to the PLL: CFG0, whether the flash has its wait states, and whether the PLL is
enabled. -/
structure Chip.Warming (crystalless : Bool) (k : BitVec 32) (latency pllon : Bool) (c : Chip) :
    Prop where
  tree : c.Tree k
  hse : crystalless = false → c.Stable 16
  ws : latency → c.ws &&& 7#32 = 2#32
  pll : pllon → c.ctl.getLsbD 24

section Clocks

variable {c : Chip} {k : BitVec 32} {latency pllon crystalless : Bool}

theorem warming_keep (c : Chip) (h : Hardware) (hc : c.Warming crystalless k latency pllon) :
    (c.hardware h).Warming crystalless k latency pllon where
  tree := tree_keep c h hc.tree
  hse hcl := stable_keep (by decide) (by decide) c h (hc.hse hcl)
  ws hl := by rw [hardware_ws, hc.ws hl]
  pll hp := ctl_keep (by decide) (by decide) c h (hc.pll hp)

theorem pll_outline (crystalless : Bool) :
    Outline Chip.hardware Chip.ClockSafe (Chip.Warming crystalless 0#32 false false)
      (clockSetupPll (Chip.pllsrc crystalless)) (Chip.Clocked crystalless) := by
  let k := rccCfgr (Chip.pllsrc crystalless)
  have hk : k ∈ [0#32, rccCfgr 0#32, rccCfgr 1#32] := by
    cases crystalless <;> simp [k, Chip.pllsrc]
  have hsafe {c : Chip} {l p : Bool} (h : c.Warming crystalless k l p) : c.ClockSafe :=
    clockSafe_of_irc8 (irc8_of_tree hk h.tree)
  refine .act (R := Chip.Warming crystalless k false false) warming_keep
    (fun c h => clockSafe_of_irc8 (irc8_of_tree (by simp) h.tree)) ?_ ?_
  · intro c h
    refine ⟨?_, h.hse, h.ws, h.pll⟩
    change ((c.cfg0 &&& 0xFF00000F#32) ||| k) &&& ~~~0xC#32 = k
    simp only [List.mem_cons, List.not_mem_nil, or_false] at hk
    rcases cfg0_cases h.tree with hc | hc | hc | hc <;> rw [hc] <;>
      rcases hk with hk | hk | hk <;> rw [hk] <;> decide
  refine .act (R := Chip.Warming crystalless k true false) warming_keep (fun _ => hsafe)
    (fun c h => ⟨h.tree, h.hse, fun _ => ws_latency c.ws, h.pll⟩) ?_
  refine .act (R := Chip.Warming crystalless k true true) warming_keep (fun _ => hsafe) ?_ ?_
  · intro c h
    refine ⟨h.tree, fun hcl => ?_, h.ws, fun _ => ?_⟩
    · simpa [Chip.Stable, rccCrPllon, getLsbD_or_shift] using h.hse hcl
    · simp [rccCrPllon]
  refine .wait (R := fun c => c.Warming crystalless k true true ∧ c.Stable 24) warming_keep
    (fun _ => hsafe) ?_ ?_
  · intro c h hw
    have hrdy : c.ctl &&& rccCrPllrdy ≠ 0#32 := by simpa using hw
    exact ⟨h, h.pll rfl, (and_shift_ne_zero (by decide)).mp hrdy⟩
  refine .act (R := Chip.Clocked crystalless) ?_ (fun _ h => hsafe h.1) ?_
    (.done clocked_keep (fun _ => clockSafe_of_clocked) fun _ h => h)
  · exact fun c e h => ⟨warming_keep c e h.1, stable_keep (by decide) (by decide) c e h.2⟩
  · intro c h
    refine ⟨?_, h.1.ws rfl, h.2, h.1.hse⟩
    change ((c.cfg0 &&& ~~~3#32) ||| 2#32) &&& ~~~0xC#32 = k ||| 2#32
    simp only [List.mem_cons, List.not_mem_nil, or_false] at hk
    rcases cfg0_cases h.1.tree with hc | hc | hc | hc <;> rw [hc] <;>
      rcases hk with hk | hk | hk <;> rw [hk] <;> decide

/-- The clocks as a whole: USB has the divided PLL or an oscillator of its own. -/
def Chip.Tuned (crystalless : Bool) (c : Chip) : Prop :=
  c.Clocked crystalless ∧ (crystalless → c.addctl.getLsbD 0)

theorem addctl_keep (c : Chip) (h : Hardware) {n : ℕ} (hn : n < 32)
    (hm : (0x00020000#32).getLsbD n = false) (hc : c.addctl.getLsbD n) :
    (c.hardware h).addctl.getLsbD n := by
  cases h with
  | oscillators v w =>
    change (readyBits _ w c.addctl).getLsbD n = true
    rw [readyBits_plain hm hn]
    exact hc
  | switch v => exact hc
  | tick =>
    obtain ⟨t, m, l, ht⟩ := hardware_tick c
    rw [ht]
    exact hc

theorem tuned_keep (c : Chip) (h : Hardware) (hc : c.Tuned crystalless) :
    (c.hardware h).Tuned crystalless :=
  ⟨clocked_keep c h hc.1, fun hcl => addctl_keep c h (by decide) (by decide) (hc.2 hcl)⟩

theorem tuned_congr {c c' : Chip} (h : c'.clocks = c.clocks) (hc : c.Tuned crystalless) :
    c'.Tuned crystalless := by
  simp only [Chip.clocks, Prod.mk.injEq] at h
  obtain ⟨hctl, hcfg, hadd, hws⟩ := h
  unfold Chip.Tuned
  rw [hadd]
  refine ⟨⟨?_, ?_, ?_, ?_⟩, hc.2⟩
  · rw [Chip.Tree, hcfg]
    exact hc.1.tree
  · rw [hws, hc.1.ws]
  · rw [Chip.Stable, hctl]
    exact hc.1.pll
  · rw [Chip.Stable, hctl]
    exact hc.1.hse

theorem clock_outline (crystalless : Bool) :
    Outline Chip.hardware Chip.ClockSafe (Chip.Tree 0#32)
      (if crystalless then clockSetupInHsi48mhz else clockSetupInHse8mhzOut72mhz)
      (Chip.Tuned crystalless) := by
  have hsafe {c : Chip} (h : c.Tree 0#32) : c.ClockSafe :=
    clockSafe_of_irc8 (irc8_of_tree (by simp) h)
  cases crystalless with
  | false =>
    refine .act (R := fun c => c.Tree 0#32 ∧ c.ctl.getLsbD 16) tree_keep (fun _ => hsafe) ?_ ?_
    · exact fun c h => ⟨h, by simp [rccCrHseon]⟩
    refine .wait (R := Chip.Warming false 0#32 false false) ?_ (fun _ h => hsafe h.1) ?_ ?_
    · exact fun c e h => ⟨tree_keep c e h.1, ctl_keep (by decide) (by decide) c e h.2⟩
    · intro c h hw
      have hrdy : c.ctl &&& rccCrHserdy ≠ 0#32 := by simpa using hw
      have h17 := (and_shift_ne_zero (by decide)).mp hrdy
      exact ⟨h.1, fun _ => ⟨h.2, h17⟩, nofun, nofun⟩
    · have hpll := pll_outline false
      have hend := hpll.append (.done clocked_keep (fun _ => clockSafe_of_clocked)
        (Q := Chip.Tuned false) fun c h => ⟨h, nofun⟩)
      rwa [List.append_nil] at hend
  | true =>
    have hpll : Outline Chip.hardware Chip.ClockSafe (Chip.Tree 0#32) (clockSetupPll 0#32)
        (Chip.Clocked true) :=
      (pll_outline true).pre tree_keep fun c h => ⟨h, nofun, nofun, nofun⟩
    refine hpll.append ?_
    refine .act (R := Chip.Clocked true) clocked_keep (fun _ => clockSafe_of_clocked)
      (fun c h => ⟨h.tree, h.ws, h.pll, h.hse⟩) ?_
    refine .wait (R := Chip.Clocked true) clocked_keep (fun _ => clockSafe_of_clocked)
      (fun c h _ => h) ?_
    refine .act (R := Chip.Tuned true) clocked_keep (fun _ => clockSafe_of_clocked) ?_
      (.done tuned_keep (fun _ h => clockSafe_of_clocked h.1) fun _ h => h)
    exact fun c h => ⟨⟨h.tree, h.ws, h.pll, h.hse⟩, fun _ => by simp⟩

end Clocks

/-! What the accesses leave. -/

section Accesses

variable (c : Chip)

@[simp] theorem modifyPins_fields (p : LnPin) (f : Gpios → Gpios) :
    (c.modifyPins p f).ctl = c.ctl ∧ (c.modifyPins p f).cfg0 = c.cfg0 ∧
      (c.modifyPins p f).addctl = c.addctl ∧ (c.modifyPins p f).ws = c.ws ∧
      (c.modifyPins p f).usb = c.usb ∧
      (c.modifyPins p f).apb1en = c.apb1en ∧ (c.modifyPins p f).apb2en = c.apb2en ∧
      (c.modifyPins p f).systickCtrl = c.systickCtrl ∧
      (c.modifyPins p f).systickLoad = c.systickLoad ∧
      (c.modifyPins p f).sysTick = c.sysTick ∧ (c.modifyPins p f).tgt = c.tgt ∧
      (c.modifyPins p f).ticks = c.ticks ∧ (c.modifyPins p f).low = c.low := by
  unfold Chip.modifyPins
  split <;> simp

@[simp] theorem modifyUsb_fields (off : ℕ) (f : BitVec 16 → BitVec 16) :
    (c.modifyUsb off f).ctl = c.ctl ∧ (c.modifyUsb off f).cfg0 = c.cfg0 ∧
      (c.modifyUsb off f).addctl = c.addctl ∧ (c.modifyUsb off f).ws = c.ws ∧
      (c.modifyUsb off f).gpio = c.gpio ∧
      (c.modifyUsb off f).apb1en = c.apb1en ∧ (c.modifyUsb off f).apb2en = c.apb2en ∧
      (c.modifyUsb off f).systickCtrl = c.systickCtrl ∧
      (c.modifyUsb off f).systickLoad = c.systickLoad ∧
      (c.modifyUsb off f).sysTick = c.sysTick ∧ (c.modifyUsb off f).tgt = c.tgt ∧
      (c.modifyUsb off f).ticks = c.ticks ∧ (c.modifyUsb off f).low = c.low := by
  unfold Chip.modifyUsb
  split <;> simp

end Accesses

theorem fixes_clocks (crystalless : Bool) (u : Unset) :
    ∀ i ∈ enablePeripherals crystalless ++ (disconnect u ++ (usbInit ++ leds crystalless u)),
      i.Fixes Chip.clocks := by
  simp [enablePeripherals, disconnect, usbInit, leds, rcuAction, startSystick, xDelay,
    Peripherals.isApb1, Instr.Fixes, Chip.pinMode, Chip.digitalWrite, Chip.clocks,
    Chip.putApb1rst]

theorem clockSafe_outline (crystalless : Bool) (u : Unset) :
    Outline Chip.hardware Chip.ClockSafe (Chip.Tree 0#32) (stage2Setup crystalless u)
      (Chip.Tuned crystalless) := by
  rw [stage2Setup, setupForUsb, List.append_assoc]
  refine (clock_outline crystalless).append ?_
  refine .of_keeps tuned_keep (fun _ h => clockSafe_of_clocked h.1) fun i hi => ?_
  exact (fixes_clocks crystalless u i hi).keeps fun _ _ => tuned_congr

/-! The tick and the ports. -/

namespace Chip

def Down (c : Chip) : Prop := c.usb.reg usbCntrReg &&& 2#16 ≠ 0#16

/-- Nothing ticks yet. -/
def Silent (c : Chip) : Prop := c.systickCtrl = 0#32 ∧ c.ticks = 0

/-- What `setupForUsb` leaves besides the clocks. -/
structure Based (crystalless : Bool) (c : Chip) : Prop where
  ports : c.apb2en.getLsbD 2 ∧ c.apb2en.getLsbD 3 ∧ c.apb2en.getLsbD 4
  systickCtrl : c.systickCtrl = 7#32
  systickLoad : c.systickLoad = configSystickClockHz crystalless / 1000#32 - 1#32
  sysTick : c.sysTick = BitVec.ofNat 32 c.ticks

/-- D+ has been low for 300 ticks and more. -/
def Waited (c : Chip) : Prop := c.ticks < 2 ^ 32 - 300 → 301 ≤ c.low

def Released (c : Chip) : Prop := c.Waited ∧ (c.gpio.pin pa12).config = 4#4

/-- On the way through `enablePeripherals`: `n` ports have their clock. -/
structure Starting (n : ℕ) (c : Chip) : Prop where
  down : c.Down
  silent : c.Silent
  ports : ∀ k < n, c.apb2en.getLsbD (2 + k)

def ticking (c : Chip) : BitVec 32 × BitVec 32 × BitVec 32 × BitVec 32 × ℕ :=
  (c.apb2en, c.systickCtrl, c.systickLoad, c.sysTick, c.ticks)

end Chip

section Tick

variable {c : Chip} {crystalless : Bool}

theorem hardware_usb (c : Chip) (h : Hardware) : (c.hardware h).usb = c.usb := by
  cases h with
  | tick =>
    obtain ⟨t, m, l, ht⟩ := hardware_tick c
    rw [ht]
  | _ => rfl

theorem hardware_gpio (c : Chip) (h : Hardware) : (c.hardware h).gpio = c.gpio := by
  cases h with
  | tick =>
    obtain ⟨t, m, l, ht⟩ := hardware_tick c
    rw [ht]
  | _ => rfl

theorem down_keep (c : Chip) (h : Hardware) (hc : c.Down) : (c.hardware h).Down := by
  rw [Chip.Down, hardware_usb]
  exact hc

theorem silent_keep (c : Chip) (h : Hardware) (hc : c.Silent) : (c.hardware h).Silent := by
  cases h with
  | tick =>
    have hno : c.systickCtrl ≠ 7#32 := by
      rw [hc.1]
      decide
    have heq : c.hardware .tick = c := if_neg hno
    rwa [heq]
  | _ => exact hc

theorem based_keep (c : Chip) (h : Hardware) (hc : c.Based crystalless) :
    (c.hardware h).Based crystalless := by
  cases h with
  | tick =>
    have heq : c.hardware .tick = _ := if_pos hc.systickCtrl
    rw [heq]
    refine ⟨hc.ports, hc.systickCtrl, hc.systickLoad, ?_⟩
    dsimp only
    rw [hc.sysTick, BitVec.ofNat_add]
  | _ => exact ⟨hc.ports, hc.systickCtrl, hc.systickLoad, hc.sysTick⟩

theorem based_congr {c c' : Chip} (h : c'.ticking = c.ticking) (hc : c.Based crystalless) :
    c'.Based crystalless := by
  simp only [Chip.ticking, Prod.mk.injEq] at h
  obtain ⟨hports, hctrl, hload, htick, hticks⟩ := h
  refine ⟨?_, hctrl.trans hc.systickCtrl, hload.trans hc.systickLoad, ?_⟩
  · rw [hports]
    exact hc.ports
  · rw [htick, hticks, hc.sysTick]

theorem waited_keep (c : Chip) (h : Hardware) (hc : c.Waited) : (c.hardware h).Waited := by
  cases h with
  | tick =>
    by_cases h7 : c.systickCtrl = 7#32
    · have heq : c.hardware .tick = _ := if_pos h7
      rw [heq]
      intro hlt
      have hlow := hc (Nat.lt_of_succ_lt hlt)
      dsimp only
      split <;> omega
    · have heq : c.hardware .tick = c := if_neg h7
      rwa [heq]
  | _ => exact hc

theorem released_keep (c : Chip) (h : Hardware) (hc : c.Released) :
    (c.hardware h).Released := by
  refine ⟨waited_keep c h hc.1, ?_⟩
  rw [hardware_gpio]
  exact hc.2

theorem busSafe_of_down (h : c.Down) : c.BusSafe := fun hon => absurd hon.2 h

theorem hardware_ports (c : Chip) (h : Hardware) : (c.hardware h).apb2en = c.apb2en := by
  cases h with
  | tick =>
    obtain ⟨t, m, l, ht⟩ := hardware_tick c
    rw [ht]
  | _ => rfl

theorem starting_keep {n : ℕ} (c : Chip) (h : Hardware) (hc : c.Starting n) :
    (c.hardware h).Starting n := by
  refine ⟨down_keep c h hc.down, silent_keep c h hc.silent, ?_⟩
  rw [hardware_ports]
  exact hc.ports

theorem silent_tick (c : Chip) (h : Hardware) (hc : c.Silent) :
    (c.hardware h).sysTick = c.sysTick ∧ (c.hardware h).systickLoad = c.systickLoad := by
  cases h with
  | tick =>
    have hno : c.systickCtrl ≠ 7#32 := by
      rw [hc.1]
      decide
    have heq : c.hardware .tick = c := if_neg hno
    rw [heq]
    exact ⟨rfl, rfl⟩
  | _ => exact ⟨rfl, rfl⟩

theorem starting_enable {n : ℕ} {bit : BitVec 32} (hbit : bit = 1#32 <<< (2 + n)) (hn : n < 30)
    (hc : c.Starting n) : Chip.Starting (n + 1) { c with apb2en := c.apb2en ||| bit } := by
  refine ⟨hc.down, hc.silent, fun k hk => ?_⟩
  rw [hbit, getLsbD_or_shift (by omega)]
  by_cases h : k = n
  · simp [h]
  · have hlt : k < n := by omega
    rw [hc.ports k hlt, Bool.true_or]

theorem setup_outline (crystalless : Bool) :
    Outline Chip.hardware Chip.BusSafe (Chip.Starting 0) (setupForUsb crystalless)
      fun c => c.Down ∧ c.Based crystalless := by
  let load := configSystickClockHz crystalless / 1000#32 - 1#32
  have hclocks : ∀ i ∈ if crystalless then clockSetupInHsi48mhz else clockSetupInHse8mhzOut72mhz,
      i.Fixes fun c => (c.usb, c.systickCtrl, c.ticks, c.apb2en) := by
    cases crystalless <;>
      simp [clockSetupInHsi48mhz, clockSetupInHse8mhzOut72mhz, clockSetupPll, Instr.Fixes]
  have hsafe {n : ℕ} (c : Chip) (h : c.Starting n) : c.BusSafe := busSafe_of_down h.down
  refine .append (R := Chip.Starting 0) (.of_keeps starting_keep hsafe fun i hi => ?_) ?_
  · refine (hclocks i hi).keeps fun c c' heq h => ?_
    simp only [Prod.mk.injEq] at heq
    obtain ⟨husb, hctrl, hticks, hports⟩ := heq
    refine ⟨?_, ⟨hctrl.trans h.silent.1, hticks.trans h.silent.2⟩, nofun⟩
    rw [Chip.Down, husb]
    exact h.down
  -- the ports
  refine .act (R := Chip.Starting 1) starting_keep hsafe
    (fun c h => starting_enable rfl (by decide) h) ?_
  refine .act (R := Chip.Starting 2) starting_keep hsafe
    (fun c h => starting_enable rfl (by decide) h) ?_
  refine .act (R := Chip.Starting 3) starting_keep hsafe
    (fun c h => starting_enable rfl (by decide) h) ?_
  refine .act (R := Chip.Starting 3) starting_keep hsafe ?_ ?_
  · intro c h
    refine ⟨h.down, h.silent, fun k hk => ?_⟩
    change (c.apb2en ||| 1#32 <<< 0).getLsbD (2 + k) = true
    rw [getLsbD_or_shift (by decide), h.ports k hk, Bool.true_or]
  -- the tick
  let counted (c : Chip) : Prop := c.Starting 3 ∧ c.sysTick = 0#32
  let loaded (c : Chip) : Prop := counted c ∧ c.systickLoad = load
  have hcounted (c : Chip) (e : Hardware) (h : counted c) : counted (c.hardware e) :=
    ⟨starting_keep c e h.1, (silent_tick c e h.1.silent).1.trans h.2⟩
  have hloaded (c : Chip) (e : Hardware) (h : loaded c) : loaded (c.hardware e) :=
    ⟨hcounted c e h.1, (silent_tick c e h.1.1.silent).2.trans h.2⟩
  refine .act (R := counted) starting_keep hsafe (fun c h => ⟨⟨h.down, h.silent, h.ports⟩, rfl⟩) ?_
  refine .act (R := counted) hcounted (fun c h => hsafe c h.1)
    (fun c h => ⟨⟨h.1.down, ⟨rfl, h.1.silent.2⟩, h.1.ports⟩, h.2⟩) ?_
  refine .act (R := counted) hcounted (fun c h => hsafe c h.1)
    (fun c h => ⟨⟨h.1.down, h.1.silent, h.1.ports⟩, h.2⟩) ?_
  refine .act (R := loaded) hcounted (fun c h => hsafe c h.1)
    (fun c h => ⟨⟨⟨h.1.down, h.1.silent, h.1.ports⟩, h.2⟩, rfl⟩) ?_
  let based (c : Chip) : Prop := c.Down ∧ c.Based crystalless
  have hbased (c : Chip) (e : Hardware) (h : based c) : based (c.hardware e) :=
    ⟨down_keep c e h.1, based_keep c e h.2⟩
  have hend (c : Chip) (h : based c) : c.BusSafe := busSafe_of_down h.1
  refine .act (R := based) hloaded (fun c h => hsafe c h.1.1) ?_ ?_
  · intro c h
    have hp := h.1.1.ports
    refine ⟨h.1.1.down, ⟨hp 0 (by decide), hp 1 (by decide), hp 2 (by decide)⟩, rfl, h.2, ?_⟩
    change c.sysTick = BitVec.ofNat 32 c.ticks
    rw [h.1.2, h.1.1.silent.2]
  refine .act (R := based) hbased hend
    (fun c h => ⟨h.1, h.2.ports, h.2.systickCtrl, h.2.systickLoad, h.2.sysTick⟩) ?_
  refine .act (R := based) hbased hend ?_ (.done hbased hend fun c h => h)
  intro c h
  refine ⟨?_, based_congr (by simp [Chip.ticking]) h.2⟩
  unfold Chip.modifyUsb Chip.Down
  split
  · simp [Usb.setReg, stored, usbCntrReg]
  · exact h.1

end Tick

/-! The pins. -/

section Pins

variable {c : Chip} {u : Unset} {p : LnPin} {mode : LnGpioMode} {crystalless : Bool}

theorem pinMode_pin (hmode : mode ≠ .lnUart ∧ mode ≠ .lnUartAlt ∧ mode ≠ .lnSpiMode)
    (hon : c.apb2en.getLsbD (2 + p.port.val)) :
    (c.pinMode u p mode).gpio.pin = Function.update c.gpio.pin p
      ⟨mode.config 3#4, mode.level (c.gpio.pin p).level⟩ := by
  obtain ⟨g, hg, hpins⟩ := mode_pins (g := c.gpio) u p 0#32 hmode
  have hspeed : (pinSpeed u 0#32).setWidth 4 = 3#4 := by
    rw [pinSpeed, if_pos (.inl rfl)]
    decide
  rw [Chip.pinMode, Chip.modifyPins, if_pos hon, hg]
  rw [hspeed] at hpins
  exact funext hpins

theorem pinMode_other (hmode : mode ≠ .lnUart ∧ mode ≠ .lnUartAlt ∧ mode ≠ .lnSpiMode)
    {q : LnPin} (hq : q ≠ p) : (c.pinMode u p mode).gpio.pin q = c.gpio.pin q := by
  by_cases hon : c.apb2en.getLsbD (2 + p.port.val)
  · rw [pinMode_pin hmode hon, Function.update_of_ne hq]
  · rw [Chip.pinMode, Chip.modifyPins, if_neg hon]

theorem digitalWrite_pin {v : Bool} (hon : c.apb2en.getLsbD (2 + p.port.val)) :
    (c.digitalWrite p v).gpio.pin =
      Function.update c.gpio.pin p { c.gpio.pin p with level := v } := by
  rw [Chip.digitalWrite, Chip.modifyPins, if_pos hon]
  exact funext (write_pins p v)

/-- The delay counts from `m` on. -/
def Chip.Waiting (c : Chip) : Prop :=
  ∃ m, c.tgt = BitVec.ofNat 32 (m + 300) ∧ m ≤ c.ticks ∧ c.ticks ≤ m + c.low

theorem waiting_keep (c : Chip) (h : Hardware) (hlow : c.dPlusLow) (hc : c.Waiting) :
    (c.hardware h).Waiting := by
  obtain ⟨m, htgt, hm, hle⟩ := hc
  cases h with
  | tick =>
    by_cases h7 : c.systickCtrl = 7#32
    · have heq : c.hardware .tick = _ := if_pos h7
      rw [heq, if_pos hlow]
      exact ⟨m, htgt, by dsimp only; omega, by dsimp only; omega⟩
    · have heq : c.hardware .tick = c := if_neg h7
      rw [heq]
      exact ⟨m, htgt, hm, hle⟩
  | _ => exact ⟨m, htgt, hm, hle⟩

theorem waited_of_waiting (hb : c.Based crystalless) (hc : c.Waiting) (hover : c.tgt < c.sysTick) :
    c.Waited := by
  obtain ⟨m, htgt, hm, hle⟩ := hc
  intro hlt
  rw [htgt, hb.sysTick, BitVec.lt_def, BitVec.toNat_ofNat, BitVec.toNat_ofNat] at hover
  omega

theorem disconnect_outline (crystalless : Bool) (u : Unset) :
    Outline Chip.hardware Chip.BusSafe (fun c => c.Down ∧ c.Based crystalless) (disconnect u)
      fun c => c.Based crystalless ∧ c.Released := by
  let base (c : Chip) : Prop := c.Down ∧ c.Based crystalless
  have hbase (c : Chip) (e : Hardware) (h : base c) : base (c.hardware e) :=
    ⟨down_keep c e h.1, based_keep c e h.2⟩
  have hsafe (c : Chip) (h : base c) : c.BusSafe := busSafe_of_down h.1
  have hon {c : Chip} (h : base c) : c.apb2en.getLsbD (2 + pa12.port.val) := h.2.ports.1
  have hpins {c : Chip} (p : LnPin) (f : Gpios → Gpios) (h : base c) :
      base (c.modifyPins p f) := by
    refine ⟨?_, based_congr (by simp [Chip.ticking]) h.2⟩
    simpa [Chip.Down] using h.1
  refine .act (R := fun c => base c ∧ (c.gpio.pin pa12).config = 3#4) hbase hsafe ?_ ?_
  · intro c h
    refine ⟨hpins _ _ h, ?_⟩
    rw [pinMode_pin (by decide) (hon h), Function.update_self]
    rfl
  refine .act (R := fun c => base c ∧ c.dPlusLow) ?_ (fun c h => hsafe c h.1) ?_ ?_
  · intro c e h
    rw [hardware_gpio]
    exact ⟨hbase c e h.1, h.2⟩
  · intro c h
    refine ⟨hpins _ _ h.1, ?_⟩
    rw [Chip.dPlusLow, digitalWrite_pin (hon h.1), Function.update_self, h.2]
    exact ⟨by decide, rfl⟩
  have hlow (c : Chip) (e : Hardware) (h : c.dPlusLow) : (c.hardware e).dPlusLow := by
    rw [Chip.dPlusLow, hardware_gpio]
    exact h
  refine .act (R := fun c => base c ∧ c.dPlusLow ∧ c.Waiting) ?_ (fun c h => hsafe c h.1) ?_ ?_
  · exact fun c e h => ⟨hbase c e h.1, hlow c e h.2⟩
  · intro c h
    refine ⟨⟨h.1.1, based_congr (c := c) rfl h.1.2⟩, h.2, c.ticks, ?_, Nat.le_refl _,
      Nat.le_add_right _ _⟩
    change c.sysTick + 300#32 = _
    rw [h.1.2.sysTick, BitVec.ofNat_add]
  let waited (c : Chip) : Prop := base c ∧ c.Waited
  have hwaited (c : Chip) (e : Hardware) (h : waited c) : waited (c.hardware e) :=
    ⟨hbase c e h.1, waited_keep c e h.2⟩
  refine .wait (R := waited) ?_ (fun c h => hsafe c h.1) ?_ ?_
  · exact fun c e h => ⟨hbase c e h.1, hlow c e h.2.1, waiting_keep c e h.2.1 h.2.2⟩
  · exact fun c h hw => ⟨h.1, waited_of_waiting h.1.2 h.2.2 (by simpa using hw)⟩
  refine .act (R := waited) hwaited (fun c h => hsafe c h.1) ?_ ?_
  · intro c h
    refine ⟨hpins _ _ h.1, ?_⟩
    simpa [Chip.Waited, Chip.digitalWrite] using h.2
  let released (c : Chip) : Prop := base c ∧ c.Released
  have hreleased (c : Chip) (e : Hardware) (h : released c) : released (c.hardware e) :=
    ⟨hbase c e h.1, released_keep c e h.2⟩
  refine .act (R := released) hwaited (fun c h => hsafe c h.1) ?_
    (.done hreleased (fun c h => hsafe c h.1) fun c h => ⟨h.1.2, h.2⟩)
  intro c h
  refine ⟨hpins _ _ h.1, ?_, ?_⟩
  · simpa [Chip.Waited, Chip.pinMode] using h.2
  · rw [pinMode_pin (by decide) (hon h.1), Function.update_self]
    rfl

theorem fixes_pins : ∀ i ∈ usbInit, i.Fixes fun c => (c.ticking, c.gpio, c.low) := by
  simp [usbInit, rcuAction, Peripherals.isApb1, Instr.Fixes, Chip.ticking, Chip.putApb1rst]

theorem output_keep (h : c.Based crystalless ∧ c.Released) (hp : pa12 ≠ p) :
    (c.pinMode u p .lnOutput).Based crystalless ∧ (c.pinMode u p .lnOutput).Released := by
  refine ⟨based_congr (by simp [Chip.ticking, Chip.pinMode]) h.1, ?_, ?_⟩
  · simpa [Chip.Waited, Chip.pinMode] using h.2.1
  · rw [pinMode_other (by decide) hp]
    exact h.2.2

theorem leds_outline (crystalless : Bool) (u : Unset) :
    Outline Chip.hardware Chip.BusSafe (fun c => c.Based crystalless ∧ c.Released)
      (usbInit ++ leds crystalless u) fun c => c.Based crystalless ∧
        ∀ p ∈ [led crystalless, pa8, pb13], (c.gpio.pin p).config = 3#4 := by
  let base (c : Chip) : Prop := c.Based crystalless ∧ c.Released
  have hkeep (c : Chip) (e : Hardware) (h : base c) : base (c.hardware e) :=
    ⟨based_keep c e h.1, released_keep c e h.2⟩
  have hsafe (c : Chip) (h : base c) : c.BusSafe := fun _ => h.2
  refine .append (R := base) (.of_keeps hkeep hsafe fun i hi => ?_) ?_
  · refine (fixes_pins i hi).keeps fun c c' heq h => ?_
    simp only [Prod.mk.injEq] at heq
    obtain ⟨hticking, hgpio, hlow⟩ := heq
    have hticks : c'.ticks = c.ticks := congrArg (fun x => x.2.2.2.2) hticking
    refine ⟨based_congr hticking h.1, ?_, ?_⟩
    · rw [Chip.Waited, hticks, hlow]
      exact h.2.1
    · rw [hgpio]
      exact h.2.2
  -- each LED pin is set, and is no other LED pin
  have hled : led crystalless ≠ pa8 ∧ led crystalless ≠ pb13 ∧ pa12 ≠ led crystalless := by
    cases crystalless <;> decide
  have hportLed {c : Chip} (h : base c) :
      c.apb2en.getLsbD (2 + (led crystalless).port.val) := by
    cases crystalless with
    | false => exact h.1.ports.2.2
    | true => exact h.1.ports.1
  have hset {c : Chip} {p : LnPin} (hon : c.apb2en.getLsbD (2 + p.port.val)) :
      ((c.pinMode u p .lnOutput).gpio.pin p).config = 3#4 := by
    rw [pinMode_pin (by decide) hon, Function.update_self]
    rfl
  let one (c : Chip) : Prop := base c ∧ (c.gpio.pin (led crystalless)).config = 3#4
  let two (c : Chip) : Prop := one c ∧ (c.gpio.pin pa8).config = 3#4
  let three (c : Chip) : Prop := two c ∧ (c.gpio.pin pb13).config = 3#4
  have hone (c : Chip) (e : Hardware) (h : one c) : one (c.hardware e) := by
    refine ⟨hkeep c e h.1, ?_⟩
    rw [hardware_gpio]
    exact h.2
  have htwo (c : Chip) (e : Hardware) (h : two c) : two (c.hardware e) := by
    refine ⟨hone c e h.1, ?_⟩
    rw [hardware_gpio]
    exact h.2
  have hthree (c : Chip) (e : Hardware) (h : three c) : three (c.hardware e) := by
    refine ⟨htwo c e h.1, ?_⟩
    rw [hardware_gpio]
    exact h.2
  refine .act (R := one) hkeep hsafe
    (fun c h => ⟨output_keep h hled.2.2, hset (hportLed h)⟩) ?_
  refine .act (R := two) hone (fun c h => hsafe c h.1) ?_ ?_
  · intro c h
    refine ⟨⟨output_keep h.1 (by decide), ?_⟩, hset h.1.1.ports.1⟩
    rw [pinMode_other (by decide) hled.1]
    exact h.2
  refine .act (R := three) htwo (fun c h => hsafe c h.1.1) ?_
    (.done hthree (fun c h => hsafe c h.1.1.1) ?_)
  · intro c h
    refine ⟨⟨⟨output_keep h.1.1 (by decide), ?_⟩, ?_⟩, hset h.1.1.1.ports.2.1⟩
    · rw [pinMode_other (by decide) hled.2.1]
      exact h.1.2
    · rw [pinMode_other (by decide) (by decide)]
      exact h.2
  · intro c h
    simp only [List.mem_cons, List.not_mem_nil, or_false]
    refine ⟨h.1.1.1.1, ?_⟩
    intro p hp
    rcases hp with rfl | rfl | rfl
    · exact h.1.1.2
    · exact h.1.2
    · exact h.2

theorem busSafe_outline (crystalless : Bool) (u : Unset) :
    Outline Chip.hardware Chip.BusSafe (Chip.Starting 0) (stage2Setup crystalless u)
      fun c => c.Based crystalless ∧
        ∀ p ∈ [led crystalless, pa8, pb13], (c.gpio.pin p).config = 3#4 :=
  (setup_outline crystalless).append
    ((disconnect_outline crystalless u).append (leds_outline crystalless u))

end Pins

/-! The registers of the USB peripheral. -/

section Registers

/-- All but CNTR are in reset. -/
def Chip.Clean (c : Chip) : Prop := c.apb1en.getLsbD 23 ∧ ∀ i ≠ usbCntrReg, c.usb.reg i = 0#16

def Chip.Initialised (c : Chip) : Prop :=
  ∀ i, c.usb.reg i = if i = usbCntrReg then 0x9C00#16 else 0#16

theorem hardware_apb1en (c : Chip) (h : Hardware) : (c.hardware h).apb1en = c.apb1en := by
  cases h with
  | tick =>
    obtain ⟨t, m, l, ht⟩ := hardware_tick c
    rw [ht]
  | _ => rfl

theorem clean_keep (c : Chip) (h : Hardware) (hc : c.Clean) : (c.hardware h).Clean := by
  rw [Chip.Clean, hardware_apb1en, hardware_usb]
  exact hc

theorem modifyUsb_reg {c : Chip} (h : c.apb1en.getLsbD 23) (off : ℕ) (f : BitVec 16 → BitVec 16) :
    (c.modifyUsb off f).usb.reg = Function.update c.usb.reg off
      (stored off (c.usb.reg off) (f (c.usb.reg off))) := by
  rw [Chip.modifyUsb, if_pos h]
  rfl

theorem clean_cntr {c : Chip} (h : c.Clean) (f : BitVec 16 → BitVec 16) :
    (c.modifyUsb usbCntrReg f).Clean := by
  refine ⟨by simpa using h.1, fun i hi => ?_⟩
  rw [modifyUsb_reg h.1, Function.update_of_ne hi]
  exact h.2 i hi

theorem clean_clear {c : Chip} (h : c.Clean) {off : ℕ} (hoff : stored off 0#16 0#16 = 0#16)
    (hne : off ≠ usbCntrReg) : (c.modifyUsb off fun _ => 0#16).Clean := by
  refine ⟨by simpa using h.1, fun i hi => ?_⟩
  rw [modifyUsb_reg h.1]
  by_cases hio : i = off
  · rw [hio, Function.update_self, h.2 off hne, hoff]
  · rw [Function.update_of_ne hio]
    exact h.2 i hi

theorem registers_outline (crystalless : Bool) (u : Unset) :
    Outline Chip.hardware (fun _ => True) (fun _ => True) (stage2Setup crystalless u)
      Chip.Initialised := by
  have hkeep (c : Chip) (e : Hardware) (_ : True) : True := trivial
  have hinit (c : Chip) (e : Hardware) (h : c.Initialised) : (c.hardware e).Initialised := by
    rw [Chip.Initialised, hardware_usb]
    exact h
  have hany {P : Chip → Prop} (c : Chip) (_ : P c) : True := trivial
  have hskip (is : List (Instr Chip)) :
      Outline Chip.hardware (fun _ => True) (fun _ => True) is fun _ => True := by
    refine .of_keeps hkeep hany fun i _ => ?_
    cases i <;> simp [Instr.Keeps]
  have hleds : Outline Chip.hardware (fun _ => True) Chip.Initialised (leds crystalless u)
      Chip.Initialised := by
    refine .of_keeps hinit hany fun i hi => ?_
    have hfix : i.Fixes Chip.usb := by
      revert i
      simp [leds, Instr.Fixes, Chip.pinMode]
    refine hfix.keeps fun c c' heq h => ?_
    rw [Chip.Initialised, heq]
    exact h
  refine (hskip _).append ((hskip _).append (.append ?_ hleds))
  -- `usb_init`
  let on (c : Chip) : Prop := c.apb1en.getLsbD 23
  have hon (c : Chip) (e : Hardware) (h : on c) : on (c.hardware e) := by
    change (c.hardware e).apb1en.getLsbD 23 = true
    rw [hardware_apb1en]
    exact h
  refine .act (R := on) hkeep hany ?_ ?_
  · intro c _
    change (c.apb1en ||| 1#32 <<< 23).getLsbD 23 = true
    rw [getLsbD_or_shift (by decide), decide_eq_true rfl, Bool.or_true]
  refine .act (R := Chip.Clean) hon hany ?_ ?_
  · intro c h
    have hbit : (c.apb1rst ||| 1#32 <<< 23).getLsbD 23 = true := by
      rw [getLsbD_or_shift (by decide), decide_eq_true rfl, Bool.or_true]
    refine ⟨h, fun i hi => ?_⟩
    change (if (c.apb1rst ||| 1#32 <<< 23).getLsbD 23 then Chip.usbReset c.usb else c.usb).reg i = _
    rw [if_pos hbit]
    exact if_neg hi
  refine .act (R := Chip.Clean) clean_keep hany ?_ ?_
  · intro c h
    refine ⟨h.1, fun i hi => ?_⟩
    have hbit : (c.apb1rst &&& ~~~(1#32 <<< 23)).getLsbD 23 = false := by
      rw [BitVec.getLsbD_and, BitVec.getLsbD_not, getLsbD_one_shift (by decide)]
      simp
    change (if (c.apb1rst &&& ~~~(1#32 <<< 23)).getLsbD 23 then _ else c.usb).reg i = _
    rw [hbit]
    exact h.2 i hi
  refine .act (R := Chip.Clean) clean_keep hany (fun c h => clean_cntr h _) ?_
  refine .act (R := Chip.Clean) clean_keep hany (fun c h => clean_cntr h _) ?_
  refine .act (R := Chip.Clean) clean_keep hany (fun c h => clean_cntr h _) ?_
  refine .act (R := Chip.Clean) clean_keep hany
    (fun c h => clean_clear h (by decide) (by decide)) ?_
  refine .act (R := Chip.Clean) clean_keep hany
    (fun c h => clean_clear h (by decide) (by decide)) ?_
  refine .act (R := Chip.Initialised) clean_keep hany ?_ (.done hinit hany fun _ h => h)
  intro c h i
  rw [modifyUsb_reg h.1]
  by_cases hi : i = usbCntrReg
  · rw [hi, Function.update_self, if_pos rfl]
    simp [stored, usbCntrReg]
  · rw [Function.update_of_ne hi, if_neg hi]
    exact h.2 i hi

end Registers

/-! With oscillators that start, and a tick, start-up comes to its end. -/

section Progress

variable {c : Chip} {Q : Chip → Prop} {is : List (Instr Chip)}

def Hardware.ready : Hardware := .oscillators (BitVec.allOnes 32) (BitVec.allOnes 32)

theorem passes_ctl {n : ℕ} (hmask : (0x02020002#32).getLsbD (n + 1) = true)
    (hon : c.ctl.getLsbD n) (h : Passes Chip.hardware Q (c.hardware .ready) is) :
    Passes Chip.hardware Q c ((.wait fun c => c.ctl &&& 1#32 <<< (n + 1) ≠ 0#32) :: is) := by
  have hn : n + 1 < 32 := by
    by_contra hge
    rw [BitVec.getLsbD_of_ge _ _ (Nat.not_lt.mp hge)] at hmask
    cases hmask
  refine ⟨[.ready], ?_, h⟩
  have hbit : (readyBits 0x02020002#32 (BitVec.allOnes 32) c.ctl).getLsbD (n + 1) = true := by
    rw [readyBits_succ hmask hon, BitVec.getLsbD_allOnes, decide_eq_true hn, Bool.or_true]
  exact decide_eq_true ((and_shift_ne_zero hn).mpr hbit)

theorem passes_pll (src : BitVec 32) (h : c.Silent) :
    Passes Chip.hardware Chip.Silent c (clockSetupPll src) := by
  refine passes_ctl (n := 24) (by decide) ?_ h
  change (c.ctl ||| 1#32 <<< 24).getLsbD 24 = true
  rw [getLsbD_or_shift (by decide), decide_eq_true rfl, Bool.or_true]

theorem passes_clocks (crystalless : Bool) (h : c.Silent) :
    Passes Chip.hardware Chip.Silent c
      (if crystalless then clockSetupInHsi48mhz else clockSetupInHse8mhzOut72mhz) := by
  cases crystalless with
  | false =>
    refine passes_ctl (n := 16) (by decide) ?_ (passes_pll 1#32 h)
    change (c.ctl ||| 1#32 <<< 16).getLsbD 16 = true
    rw [getLsbD_or_shift (by decide), decide_eq_true rfl, Bool.or_true]
  | true =>
    refine (passes_pll 0#32 h).append fun c h => ⟨[.ready], ?_, h⟩
    have hon : (c.addctl ||| 1#32 <<< 16).getLsbD 16 = true := by
      rw [getLsbD_or_shift (by decide), decide_eq_true rfl, Bool.or_true]
    have hbit : (readyBits 0x00020000#32 (BitVec.allOnes 32)
        (c.addctl ||| 1#32 <<< 16)).getLsbD 17 = true := by
      rw [readyBits_succ (by decide) hon, BitVec.getLsbD_allOnes]
      simp
    exact decide_eq_true ((and_shift_ne_zero (by decide)).mpr hbit)

/-- The counter has been started, and nothing has been counted. -/
def Chip.Started (c : Chip) : Prop := c.systickCtrl = 7#32 ∧ c.sysTick = 0#32

theorem passes_enable (crystalless : Bool) :
    Passes Chip.hardware Chip.Started c (enablePeripherals crystalless) := by
  change Chip.Started (Chip.modifyUsb usbCntrReg _ _)
  simp [Chip.Started]

theorem run_ticks (h : c.systickCtrl = 7#32) (n : ℕ) :
    (run Chip.hardware c (List.replicate n .tick)).sysTick = c.sysTick + BitVec.ofNat 32 n ∧
      (run Chip.hardware c (List.replicate n .tick)).tgt = c.tgt := by
  induction n generalizing c with
  | zero => exact ⟨(BitVec.add_zero _).symm, rfl⟩
  | succ n ih =>
    have heq : c.hardware .tick = _ := if_pos h
    obtain ⟨hsys, htgt⟩ := ih (c := c.hardware .tick) (by rw [heq]; exact h)
    rw [List.replicate_succ, run_cons, hsys, htgt, heq]
    refine ⟨?_, rfl⟩
    rw [BitVec.add_assoc, Nat.add_comm n 1, BitVec.ofNat_add]

theorem passes_disconnect (u : Unset) (h : c.Started) :
    Passes Chip.hardware (fun _ => True) c (disconnect u) := by
  let d : Chip := (c.pinMode u pa12 .lnOutput).digitalWrite pa12 false
  let e : Chip := { d with tgt := d.sysTick + 300#32 }
  have hctrl : e.systickCtrl = 7#32 := by
    simp [e, d, Chip.pinMode, Chip.digitalWrite, h.1]
  have hsys : e.sysTick = 0#32 := by
    simp [e, d, Chip.pinMode, Chip.digitalWrite, h.2]
  have htgt : e.tgt = 300#32 := by
    change e.sysTick + 300#32 = _
    rw [hsys, BitVec.zero_add]
  obtain ⟨hnow, hkeep⟩ := run_ticks hctrl 301
  refine ⟨List.replicate 301 .tick, ?_, trivial⟩
  apply decide_eq_true
  change (run Chip.hardware e _).tgt < (run Chip.hardware e _).sysTick
  rw [hnow, hkeep, hsys, htgt]
  decide

theorem passes_setup (crystalless : Bool) (u : Unset) (h : c.Silent) :
    Passes Chip.hardware (fun _ => True) c (stage2Setup crystalless u) := by
  have hon : Passes Chip.hardware Chip.Started c (setupForUsb crystalless) :=
    (passes_clocks crystalless h).append fun _ _ => passes_enable crystalless
  exact hon.append fun _ hs => (passes_disconnect u hs).append fun _ _ => trivial

end Progress

/-- Start-up of stage 2 after a reset, in both builds and for any timing of the hardware. At every
moment the PLL drives the core only when it is stable, the flash has the wait states for the core's
frequency, and the USB peripheral is powered only after D+ has been low for 300 ms and is released.
Start-up can end, and whenever it has ended, the loop finds the registers that `State.start` gives
it, 48 MHz for USB and a tick of a millisecond. -/
theorem stage2_sets_up (crystalless : Bool) (u : Unset) {c : Chip} (h : c.Fresh) :
    let setup := fun es => run (Thread.step Chip.hardware) ⟨stage2Setup crystalless u, c⟩ es
    (∀ es, (setup es).state.ClockSafe ∧ (setup es).state.BusSafe ∧
      ((setup es).todo = [] → (setup es).state.Ready crystalless)) ∧
      ∃ es, (setup es).todo = [] := by
  intro setup
  have hsilent : c.Silent := ⟨h.systick, h.ticks⟩
  have htree : c.Tree 0#32 := by
    rw [Chip.Tree, h.cfg0]
    decide
  refine ⟨fun es => ?_, (passes_setup crystalless u hsilent).ends⟩
  obtain ⟨hclock, htuned⟩ := (clockSafe_outline crystalless u).sound htree es
  obtain ⟨hbus, hbased⟩ := (busSafe_outline crystalless u).sound ⟨h.down, hsilent, nofun⟩ es
  obtain ⟨-, hregs⟩ := (registers_outline crystalless u).sound trivial es
  refine ⟨hclock, hbus, fun hdone => ?_⟩
  obtain ⟨hcl, hadd⟩ := htuned hdone
  obtain ⟨hbase, hleds⟩ := hbased hdone
  obtain ⟨-, hsys, hpll, -, hdiv⟩ := khz_of_tree hcl.tree
  refine ⟨fun mem ram => funext (hregs hdone), hsys, ?_, ⟨hbase.systickCtrl, ?_⟩, hleds⟩
  · rw [Chip.usbKhz, hdiv, hpll]
    cases crystalless with
    | false =>
      split
      · rfl
      · decide
    | true => exact if_pos (hadd rfl)
  · rw [hbase.systickLoad, hsys]
    cases crystalless <;> decide

/-- As stage 1 leaves the chip, built with a crystal. -/
theorem stage2_sets_up_crystal :
    let c : Chip := { Chip.atReset with apb2en := 0x19#32 }
    let setup := fun es => run (Thread.step Chip.hardware) ⟨stage2Setup false ⟨0#32, 0#32⟩, c⟩ es
    (∀ es, (setup es).state.ClockSafe ∧ (setup es).state.BusSafe ∧
      ((setup es).todo = [] → (setup es).state.Ready false)) ∧ ∃ es, (setup es).todo = [] := by
  intro c
  refine stage2_sets_up false ⟨0#32, 0#32⟩ ⟨rfl, ?_, rfl, rfl, rfl⟩
  decide

end Swindle
