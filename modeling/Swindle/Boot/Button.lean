import Swindle.Boot.Setup
import Swindle.Boot.Cycle

/-! The button of stage 1: what `main` reads from PB14 after it has set up the pin. -/
namespace Swindle
open Machine

/-- The accesses of stage 1's `main` up to the button. -/
def forceDfuSetup (u : Unset) : List (Instr Chip) :=
  rcuAction .pGpiob .rcuEnable ++ rcuAction .pGpioc .rcuEnable ++ rcuAction .pAf .rcuEnable ++
    [.act (Chip.pinMode u pb14 .lnInputPullup)]

/-- ISTAT once the pins have settled: an input with a pull shows what drives it from outside, or
else its pull. -/
def Settled (istat : Fin 5 → BitVec 32) (drive : LnPin → Option Bool) (g : Gpios) : Prop :=
  ∀ p, (g.pin p).config = 8#4 →
    (istat p.port).getLsbD p.bit = (drive p).getD (g.pin p).level

section Button

variable {u : Unset}

theorem lnDigitalRead_eq (istat : Fin 5 → BitVec 32) (p : LnPin) :
    lnDigitalRead istat p = (istat p.port).getLsbD p.bit := by
  have hbit := and_shift_ne_zero (x := istat p.port) (n := p.bit) (by have := p.bit_lt; omega)
  rw [lnDigitalRead, Bool.eq_iff_iff, decide_eq_true_iff]
  exact hbit

theorem button_outline (u : Unset) :
    Outline Chip.hardware (fun _ => True) (fun _ => True) (forceDfuSetup u)
      fun c => c.gpio.pin pb14 = ⟨8#4, true⟩ := by
  have hany {P : Chip → Prop} (c : Chip) (_ : P c) : True := trivial
  let on (c : Chip) : Prop := c.apb2en.getLsbD 3
  have hon (c : Chip) (e : Hardware) (h : on c) : on (c.hardware e) := by
    change (c.hardware e).apb2en.getLsbD 3 = true
    rw [hardware_ports]
    exact h
  have hor (c : Chip) (bit : BitVec 32) (h : on c) : on { c with apb2en := c.apb2en ||| bit } := by
    change (c.apb2en ||| bit).getLsbD 3 = true
    have h3 : c.apb2en.getLsbD 3 = true := h
    rw [BitVec.getLsbD_or, h3, Bool.true_or]
  refine .act (R := on) (fun _ _ h => h) hany ?_ ?_
  · intro c _
    change (c.apb2en ||| 1#32 <<< 3).getLsbD 3 = true
    rw [getLsbD_or_shift (by decide), decide_eq_true rfl, Bool.or_true]
  refine .act (R := on) hon hany (fun c h => hor c _ h) ?_
  refine .act (R := on) hon hany (fun c h => hor c _ h) ?_
  refine .act (R := fun c => c.gpio.pin pb14 = ⟨8#4, true⟩) hon hany ?_ (.done ?_ hany ?_)
  · intro c h
    rw [pinMode_pin (by decide) h, Function.update_self]
    rfl
  · intro c e h
    rw [hardware_gpio]
    exact h
  · exact fun _ h => h

/-- From any register contents and however long each access takes, stage 1 reads a released PB14 as
high and a driven one as it is driven; so a reset leads to DFU when PB14 is held low, and otherwise
only if the application has asked for it or there is none. -/
theorem button_decides (f : Firmware) (b : Board) (u : Unset) (c : Chip)
    (es : List (Option Hardware)) (istat : Fin 5 → BitVec 32) (drive : LnPin → Option Bool)
    (hdone : (run (Thread.step Chip.hardware) ⟨forceDfuSetup u, c⟩ es).todo = [])
    (hset : Settled istat drive
      (run (Thread.step Chip.hardware) ⟨forceDfuSetup u, c⟩ es).state.gpio) :
    (b.reset f (lnDigitalRead istat pb14)).1.chainTo =
      if b.station.asked ∨ drive pb14 = some false ∨ ¬Accepts f.crc b.flash then ramStartAddr
      else appAddress := by
  obtain ⟨-, hpost⟩ := (button_outline u).sound trivial es
  have hpin := hpost hdone
  have hread : lnDigitalRead istat pb14 = (drive pb14).getD true := by
    rw [lnDigitalRead_eq, hset pb14 (by rw [hpin]), hpin]
  have hlow : lnDigitalRead istat pb14 = false ↔ drive pb14 = some false := by
    rw [hread]
    cases drive pb14 <;> simp
  have hchain : (b.reset f (lnDigitalRead istat pb14)).1.chainTo =
      if (b.reset f (lnDigitalRead istat pb14)).1.goDfu = 0#32 then appAddress
      else ramStartAddr := main_chainTo_eq _ _ _
  have hgo := reset_goDfu_iff f b (lnDigitalRead istat pb14)
  rw [hlow] at hgo
  rw [hchain, if_congr hgo rfl rfl, ite_not]

/-- A chip in reset, with PB14 held low. -/
theorem button_decides_low :
    let f := Firmware.stm64k
    let b : Board := ⟨fun _ => 0xFF#8, fun _ => 0#8⟩
    (b.reset f (lnDigitalRead (fun _ => 0#32) pb14)).1.chainTo =
      if b.station.asked ∨ some false = some false ∨ ¬Accepts f.crc b.flash then ramStartAddr
      else appAddress := by
  intro f b
  refine button_decides f b ⟨0#32, 0#32⟩ .atReset [none, none, none, none] (fun _ => 0#32)
    (fun _ => some false) rfl fun p _ => ?_
  exact BitVec.getLsbD_zero

end Button

end Swindle
